/-
  PredictIQ.Tts.TimedOutCalls: what a rejected call still sends.

  `opossum` does not cancel the action of a call that it has timed out, and the
  loop of `withRetry` is not told.  A loop that sleeps then, or whose request
  ends in an error that it retries, sends further requests for a job that has
  gone on to the fallback, or is done.
-/
import PredictIQ.Tts.CallTimes

namespace PredictIQ.Tts.ProviderCalls

open Foundation

/-! ## §1. What is claimed of it. -/

/-- The call to `p` has been rejected, or the job is done or in error. -/
def Job.IsOver (job : Job) (p : TTSProvider) : Prop :=
  (∃ c, job.calls p = some c ∧ c.fire = .rejected) ∨ job.phase = .done ∨ ∃ message, job.phase = .error message

namespace System

variable (O : Opossum) (C : CallConfig)

/-- No request is sent for what is over, and none beyond the retries. -/
structure CallsEnd (actions : List Action) : Prop where
  silent : ∀ as more, as ++ more <+: actions → ∀ j p job, (after C as : System O).jobs[j]? = some job → job.IsOver p →
    (after C (as ++ more) : System O).requests j p = (after C as : System O).requests j p
  bounded : ∀ as, as <+: actions → ∀ j p, (after C as : System O).requests j p ≤ C.retry.maxRetries + 1

variable {O}

/-- No breaker's timer fires while the loop sleeps; and a request that its call
has not waited for ends in audio, in an error that is not retried, or is the last attempt. -/
def Careful (s : System O) : Action → Prop
  | .job j (.timeout p) => ∀ c, s.call j p = some c → c.fire = .pending → c.firedAt + C.timeoutMs ≤ s.now →
      ∀ n wakeAt, c.loop ≠ .backingOff n wakeAt
  | .job j (.answer a _) => ∀ c n startedAt err, s.call j a.provider = some c → c.fire = .rejected →
      c.loop = .requesting n startedAt → a.result C.timeoutMs = .error err → isRetryable err = true →
      n = C.retry.maxRetries
  | _ => True

end System

/-! ## §2. Loops that sleep on. -/

/-- The loop sleeps, and the call has been rejected. -/
def Call.Lingers (c : Call) : Prop := c.fire = .rejected ∧ ∃ n wakeAt, c.loop = .backingOff n wakeAt

namespace System

variable {O : Opossum} {C : CallConfig} {s : System O} {a : Action} {j : Nat} {p : TTSProvider}

def NoneLingers (s : System O) : Prop := ∀ j p c, s.call j p = some c → ¬ c.Lingers

theorem noneLingers_init : (init : System O).NoneLingers := fun j p c h => by simp [call, init] at h

theorem NoneLingers.step (h : s.NoneLingers) (hcareful : s.Careful C a) : (s.step C a).NoneLingers := by
  rintro j p c hcall ⟨hrejected, n, wakeAt, hloop⟩
  rcases call_step C s a j p with hsame | ⟨e, job, rfl, hjob, htouches⟩
  · exact h j p c (hsame ▸ hcall) ⟨hrejected, n, wakeAt, hloop⟩
  · rw [hcall] at htouches
    generalize hbefore : some c = after at htouches
    cases htouches with
    | same => exact h j p c ((call_eq hjob p).trans hbefore.symm) ⟨hrejected, n, wakeAt, hloop⟩
    | begins | refused =>
        obtain rfl := Option.some.inj hbefore
        simp at hloop
    | moves hc hmoves =>
        obtain rfl := Option.some.inj hbefore
        have hcall' := (call_eq hjob p).trans hc
        cases hmoves with
        | returns hinFlight hturn => simp at hloop
        | wakes hasleep hdue => simp at hloop
        | timesOut hpending hdue => exact hcareful _ hcall' hpending hdue n wakeAt hloop
        | sleeps hinFlight hturn =>
            -- the loop sleeps after an error that it retries
            obtain ⟨⟨err, herr, hretry⟩, hlast, -⟩ := withRetry_sleeps hturn
            exact hlast (hcareful _ _ _ err hcall' hrejected hinFlight herr hretry)

/-- A step that is not careful leaves a loop sleeping. -/
theorem exists_lingers (hcareless : ¬ s.Careful C a) :
    ∃ j p c, (s.step C a).call j p = some c ∧ c.Lingers := by
  cases a with
  | enqueue spec => exact absurd trivial hcareless
  | tick ms => exact absurd trivial hcareless
  | job j e =>
      cases e with
      | hit audio | miss | fallBack | saved | failed message | wake p => exact absurd trivial hcareless
      | timeout p =>
          simp only [Careful] at hcareless
          push Not at hcareless
          obtain ⟨c, hcall, hpending, hdue, n, wakeAt, hloop⟩ := hcareless
          obtain ⟨job, hjob, hc⟩ := exists_job hcall
          refine ⟨j, p, { c with fire := .rejected }, ?_, rfl, n, wakeAt, hloop⟩
          rw [call_job hjob]
          simp [Job.step, hc, hpending, hdue, Job.reject_calls]
      | answer a random =>
          simp only [Careful] at hcareless
          push Not at hcareless
          obtain ⟨c, n, startedAt, err, hcall, hrejected, hloop, herr, hretry, hlast⟩ := hcareless
          obtain ⟨job, hjob, hc⟩ := exists_job hcall
          have hturn : withRetry C.retry n random (a.result C.timeoutMs)
              = .sleeps (backoffDelay n C.retry.maxDelayMs random) := by
            simp [withRetry, herr, hretry, hlast]
          let wakeAt := s.now + backoffDelay n C.retry.maxDelayMs random
          refine ⟨j, a.provider, { c with loop := .backingOff n wakeAt }, ?_, hrejected, n, wakeAt, rfl⟩
          rw [call_job hjob]
          simp [Job.step, hc, hloop, hturn, wakeAt]

end System

/-! ## §3. What is over stays over. -/

namespace Job

variable {C : CallConfig} {admits : TTSProvider → Bool} {now : Nat} {job : Job} {e : Event} {p : TTSProvider}
  {c : Call}

theorem IsOver.not_begins (hover : job.IsOver p) (hinv : job.Inv C) : ¬ job.Begins e p := by
  intro hbegins
  obtain ⟨c, hc, -⟩ | hfinal := hover
  · exact hinv.not_begins hc hbegins
  · obtain ⟨-, hphase, -⟩ | ⟨-, ⟨err, hphase⟩, -⟩ := hbegins <;> simp [hphase] at hfinal

theorem IsOver.not_pending (hover : job.IsOver p) (hinv : job.Inv C) (hc : job.calls p = some c) : c.fire ≠ .pending := by
  intro hpending
  obtain ⟨d, hd, hrejected⟩ | hfinal := hover
  · obtain rfl := Option.some.inj (hc.symm.trans hd)
    simp [hpending] at hrejected
  · obtain ⟨hphase, -⟩ | ⟨⟨err, hphase⟩, -⟩ := hinv.waits p c hc hpending
    · simp [hphase] at hfinal
    · simp [hphase] at hfinal

/-- A job that is done or in error ends so: a call of it that ends later changes nothing else. -/
theorem final_of_does {r : Job × Signal} (hinv : job.Inv C)
    (hfinal : job.phase = .done ∨ ∃ message, job.phase = .error message) (hdoes : job.Does C admits now e r) :
    r.1.phase = .done ∨ ∃ message, r.1.phase = .error message := by
  have hsettled : ∀ p c, job.calls p = some c → c.fire ≠ .pending :=
    fun p c hc => IsOver.not_pending (.inr hfinal) hinv hc
  cases hdoes with
  | stays | sleeps | wakes => exact hfinal
  | fails => exact .inr ⟨_, rfl⟩
  | hits hphase | misses hphase | fallsBack hphase | saves hphase => simp [hphase] at hfinal
  | timesOut hcall hpending => exact absurd hpending (hsettled _ _ hcall)
  | @returns a random n startedAt c result hcall hloop hturn =>
      unfold finish
      cases hfire : c.fire with
      | pending => exact absurd hfire (hsettled _ c hcall)
      | fulfilled | rejected => exact hfinal

/-- A call that is over, and does not linger, sends nothing more, and stays over. -/
theorem IsOver.step (hover : job.IsOver p) (hinv : job.Inv C) (hends : ∀ c, job.calls p = some c → ¬ c.Lingers)
    (admits : TTSProvider → Bool) (now : Nat) (e : Event) :
    (job.step C admits now e).1.IsOver p
      ∧ ((job.step C admits now e).1.calls p).elim 0 Call.requests = (job.calls p).elim 0 Call.requests := by
  have htouches := job.touches_step C admits now e p
  generalize hafter : (job.step C admits now e).1.calls p = after at htouches
  -- the call itself, and its requests
  suffices hcall : (∀ c, job.calls p = some c → c.fire = .rejected → ∃ c', after = some c' ∧ c'.fire = .rejected)
      ∧ after.elim 0 Call.requests = (job.calls p).elim 0 Call.requests by
    refine ⟨?_, hcall.2⟩
    obtain ⟨c, hc, hrejected⟩ | hfinal := hover
    · obtain ⟨c', hc', hrejected'⟩ := hcall.1 c hc hrejected
      exact .inl ⟨c', hafter.trans hc', hrejected'⟩
    · exact .inr (final_of_does hinv hfinal (job.does_step C admits now e))
  cases htouches with
  | same => exact ⟨fun c hc hrejected => ⟨c, hc, hrejected⟩, rfl⟩
  | begins hbegins | refused hbegins => exact absurd hbegins (hover.not_begins hinv)
  | @moves c c' hc hmoves =>
      rw [hc]
      have hsettled := hover.not_pending hinv hc
      cases hmoves with
      | sleeps => exact ⟨fun d hd hrejected => ⟨_, rfl, by rwa [← Option.some.inj hd] at hrejected⟩, rfl⟩
      | returns =>
          refine ⟨fun d hd hrejected => ⟨_, rfl, ?_⟩, rfl⟩
          obtain rfl := Option.some.inj hd
          simp [Fire.settle, hrejected]
      | timesOut hpending => exact absurd hpending hsettled
      | @wakes _ n wakeAt hloop =>
          -- neither fulfilled, for it would have returned, nor rejected, for it would linger
          exfalso
          cases hfire : c.fire with
          | pending => exact hsettled hfire
          | fulfilled => simp [(hinv.call p c hc).fulfilled hfire] at hloop
          | rejected => exact hends c hc ⟨hfire, n, wakeAt, hloop⟩

end Job

/-! ## §4. Runs. -/

namespace System

variable {O : Opossum} {C : CallConfig} {s : System O} {j : Nat} {p : TTSProvider} {job : Job}

/-- What is over stays so as long as no call lingers, and sends nothing. -/
theorem silent_run (hinv : s.Inv C) (hjob : s.jobs[j]? = some job) (hover : job.IsOver p) (more : List Action)
    (hends : ∀ as, as <+: more → (run (step C) s as).NoneLingers) :
    (∃ job', (run (step C) s more).jobs[j]? = some job' ∧ job'.IsOver p)
      ∧ (run (step C) s more).requests j p = s.requests j p := by
  induction more generalizing s job with
  | nil => exact ⟨⟨job, hjob, hover⟩, rfl⟩
  | cons a more ih =>
      have hhere : s.NoneLingers := hends [] (List.nil_prefix)
      have hlater : ∀ as, as <+: more → (run (step C) (s.step C a) as).NoneLingers :=
        fun as has => hends (a :: as) (List.cons_prefix_cons.mpr ⟨rfl, has⟩)
      obtain ⟨hother, hsame⟩ | ⟨e, rfl, hstep⟩ := jobs_step C hjob a
      · have hrequests : (s.step C a).requests j p = s.requests j p := by
          simp [requests, call_eq hsame, call_eq hjob]
        obtain ⟨hfound, hsilent⟩ := ih (hinv.step a) hsame hover hlater
        exact ⟨hfound, hsilent.trans hrequests⟩
      · obtain ⟨hover', hrequests⟩ := hover.step (hinv j job hjob)
          (fun c hc => hhere j p c ((call_eq hjob p).trans hc)) s.admits s.now e
        obtain ⟨hfound, hsilent⟩ := ih (hinv.step _) hstep hover' hlater
        refine ⟨hfound, hsilent.trans ?_⟩
        simp only [requests, call_eq hstep, call_eq hjob]
        exact hrequests

/-- **Careful runs end their calls**; and each step that is not careful can be
followed by a request for a call that its breaker has rejected. -/
theorem calls_end (actions : List Action) :
    ((∀ t ∈ trace (step C) (init : System O) actions, t.pre.Careful C t.act) → CallsEnd O C actions)
      ∧ ∀ a, ¬ (after C actions : System O).Careful C a → ∃ more, ¬ CallsEnd O C (actions ++ a :: more) := by
  constructor
  · intro hcareful
    have hends : ∀ as, as <+: actions → (after C as : System O).NoneLingers := by
      intro as has
      exact run_invariant_of (step C) NoneLingers (fun t => t.pre.Careful C t.act) noneLingers_init
        (fun s a h hcare => h.step hcare) as fun t ht => hcareful t (mem_trace_of_isPrefix _ has ht)
    refine ⟨?_, fun as _ => requests_le as⟩
    intro as more hactions j p job hjob hover
    unfold after
    rw [run_append]
    refine (silent_run (inv_after as) hjob hover more fun bs hbs => ?_).2
    have hprefix : as ++ bs <+: actions := ((List.prefix_append_right_inj as).mpr hbs).trans hactions
    have hend := hends (as ++ bs) hprefix
    unfold after at hend
    rwa [run_append] at hend
  · intro a hcareless
    obtain ⟨j, p, c, hcall, hrejected, n, wakeAt, hloop⟩ := exists_lingers hcareless
    obtain ⟨more, hmore⟩ := exists_wake C hcall hloop (by simp [hrejected])
    obtain ⟨job, hjob, hc⟩ := exists_job hcall
    refine ⟨more, fun hend => ?_⟩
    -- the call is over, and the loop sends one more request
    have hafter : (after C (actions ++ [a]) : System O) = (after C actions).step C a := run_concat ..
    have hsilent := hend.silent (actions ++ [a]) more (by simp) j p job (by rw [hafter]; exact hjob)
      (.inl ⟨c, hc, hrejected⟩)
    unfold after at hsilent hmore
    rw [run_append, run_concat, hmore] at hsilent
    omega

end System

def slowSpec : JobSpec := ⟨"hello", ⟨"voice", "en-US", "Voice"⟩, .elevenlabs, false, ""⟩

def serverError : Answer := .elevenlabs (.response 500 "" (.error ""))

def badRequest : Answer := .elevenlabs (.response 400 "" (.error ""))

/-- A request fails and is repeated, the timer fires while the second hangs, and
Google has the audio before it fails for good. -/
def endedMeanwhile : List Action :=
  [.enqueue slowSpec, .job 0 .miss, .tick 100, .job 0 (.answer serverError 900), .tick 900, .job 0 (.wake .elevenlabs),
    .tick 9000, .job 0 (.timeout .elevenlabs), .job 0 .fallBack, .job 0 (.answer (audioFrom .google) 0),
    .job 0 (.answer badRequest 0), .job 0 .saved]

/-- The call to the first provider is rejected after two requests, and sends no more. -/
theorem calls_end_sample : System.CallsEnd (.early 5) .default endedMeanwhile
    ∧ (System.after .default endedMeanwhile : System (.early 5)).requests 0 .elevenlabs = 2 := by
  refine ⟨(System.calls_end endedMeanwhile).1 fun t ht => ?_, by decide⟩
  simp only [endedMeanwhile, trace, List.mem_cons, List.not_mem_nil, or_false] at ht
  rcases ht with rfl | rfl | rfl | rfl | rfl | rfl | rfl | rfl | rfl | rfl | rfl | rfl
  any_goals trivial
  · -- the first failure is heard by a call that is pending
    intro c n startedAt err hcall hrejected
    obtain rfl := Option.some.inj hcall
    cases hrejected
  · -- the timer meets a request
    intro c hcall _ _ n wakeAt hloop
    obtain rfl := Option.some.inj hcall
    cases hloop
  · intro c n startedAt err hcall hrejected
    obtain rfl := Option.some.inj hcall
    cases hrejected
  · -- the last failure is not retried
    intro c n startedAt err _ _ _ herr hretry
    cases herr
    exact absurd hretry (by decide)

/-- The timer fires while the loop sleeps, and Google has the audio. -/
def doneMeanwhile : List Action :=
  [.enqueue slowSpec, .job 0 .miss, .tick 9500, .job 0 (.answer serverError 900), .tick 500,
    .job 0 (.timeout .elevenlabs), .job 0 .fallBack, .job 0 (.answer (audioFrom .google) 0), .job 0 .saved]

/-- A request hangs, and the timer fires. -/
def rejectedMeanwhile : List Action :=
  [.enqueue slowSpec, .job 0 .miss, .tick 10000, .job 0 (.timeout .elevenlabs)]

/-- The loop wakes when the job is done; or its request is aborted at the same time, and it sends another. -/
theorem sends_after_done :
    ¬ System.CallsEnd (.early 5) .default (doneMeanwhile ++ [.tick 400, .job 0 (.wake .elevenlabs)])
      ∧ ¬ System.CallsEnd (.early 5) .default
        (rejectedMeanwhile ++ [.job 0 (.answer (.elevenlabs .aborted) 500), .tick 500, .job 0 (.wake .elevenlabs)]) := by
  refine ⟨fun h => ?_, fun h => ?_⟩
  · have hsilent := h.silent doneMeanwhile _ List.prefix_rfl 0 .elevenlabs _ rfl (.inr (.inl rfl))
    revert hsilent
    decide
  · have hsilent := h.silent rejectedMeanwhile _ List.prefix_rfl 0 .elevenlabs _ rfl (.inl ⟨_, rfl, rfl⟩)
    revert hsilent
    decide

end PredictIQ.Tts.ProviderCalls
