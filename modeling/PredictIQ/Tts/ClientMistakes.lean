/-
  PredictIQ.Tts.ClientMistakes: what a client's mistake does to a breaker.

  The answer to a bad request is looked at three times: when `generateElevenLabs`
  or `generateGoogle` wraps its error, by `isRetryable`, and by `errorFilter`.
  For ElevenLabs the three agree.  `generateGoogle` gives every error the status
  code 502, so a mistake is retried there like a failure, and counted as one.
-/
import PredictIQ.Tts.CallTimes

namespace PredictIQ.Tts.ProviderCalls

open Foundation

/-! ## §1. What is claimed of it. -/

/-- A client error other than rate limiting. -/
def Answer.isClientError : Answer → Bool
  | .elevenlabs (.response status _ _) => status ≥ 400 && status < 500 && status ≠ 429
  | .google (.failed code _) => code ∈ [.invalidArgument, .unauthenticated, .permissionDenied, .notFound]
  | _ => false

/-- Audio, or a client error. -/
def Answer.isClean (timeoutMs : Nat) (a : Answer) : Bool := (a.result timeoutMs).isOk || a.isClientError

/-- Every failing answer is a client error, and no call times out. -/
def Action.isClean (timeoutMs : Nat) : Action → Bool
  | .job _ (.answer a _) => a.isClean timeoutMs
  | .job _ (.timeout _) => false
  | _ => true

def Action.googleError (j : Nat) (code : RpcCode) (text : String) (random : Nat) : Action :=
  .job j (.answer (.google (.failed code text)) random)

namespace System

variable (O : Opossum) (C : CallConfig)

/-- No breaker has heard of a failure, none is open, and a client error is the
answer to the last request of its job to its provider. -/
structure Untripped (actions : List Action) : Prop where
  quiet : ∀ as, as <+: actions → ∀ p, (after C as : System O).failures p = 0
  closed : ∀ as, as <+: actions → ∀ p, O.closed ((after C as : System O).breakers p) = true
  last : ∀ as j a random more, as ++ .job j (.answer a random) :: more <+: actions → a.isClientError = true →
    ∀ c, (after C as : System O).call j a.provider = some c → c.InFlight →
    (after C (as ++ .job j (.answer a random) :: more) : System O).requests j a.provider
      = (after C as : System O).requests j a.provider

variable {O}

/-- No request to Google ends in an error. -/
def NoGoogleError (s : System O) (action : Action) : Prop :=
  ∀ j code text random, action = .googleError j code text random → ∀ c, s.call j .google = some c → ¬ c.InFlight

end System

/-! ## §2. The three classifications. -/

/-- They agree on what ElevenLabs answers to a bad request. -/
theorem elevenlabs_agrees {timeoutMs : Nat} {a : ElevenLabsAnswer} {err : CallError}
    (hclient : (Answer.elevenlabs a).isClientError = true) (herr : generateElevenLabs timeoutMs a = .error err) :
    isRetryable err = false ∧ errorFilter err = true := by
  cases a with
  | networkError text | aborted => simp [Answer.isClientError] at hclient
  | response status text audio =>
      have hbounds : (400 ≤ status ∧ status < 500) ∧ status ≠ 429 := by
        simpa [Answer.isClientError] using hclient
      have hok : isOk status = false := by
        simp [isOk]
        omega
      have hbelow : ¬ status ≥ 500 := by omega
      rw [generateElevenLabs, hok] at herr
      obtain rfl : CallError.provider _ _ (if status ≥ 500 then 502 else status) = err := Except.error.inj herr
      rw [if_neg hbelow]
      simp [isRetryable, errorFilter]
      omega

/-- They agree on no error of Google. -/
theorem google_disagrees (code : RpcCode) (text : String) :
    ∃ err, generateGoogle (.failed code text) = .error err ∧ isRetryable err = true ∧ errorFilter err = false :=
  ⟨_, rfl, rfl, rfl⟩

/-- A clean answer that fails is a client error. -/
theorem Answer.client_of_clean {timeoutMs : Nat} {a : Answer} {err : CallError} (hclean : a.isClean timeoutMs = true)
    (herr : a.result timeoutMs = .error err) : a.isClientError = true := by
  simpa [Answer.isClean, herr, Except.isOk, Except.toBool] using hclean

/-- What is known of the errors of a clean run in which Google has none. -/
theorem Answer.error_spec {timeoutMs : Nat} {a : Answer} {err : CallError} (hclean : a.isClean timeoutMs = true)
    (hgoogle : ∀ code text, a ≠ .google (.failed code text)) (herr : a.result timeoutMs = .error err) :
    isRetryable err = false ∧ errorFilter err = true := by
  have hclient := client_of_clean hclean herr
  cases a with
  | elevenlabs a => exact elevenlabs_agrees hclient herr
  | google a =>
      cases a with
      | failed code text => exact absurd rfl (hgoogle code text)
      | response audio => simp [Answer.isClientError] at hclient

/-! ## §3. Clean events. -/

/-- The loop does not sleep, and its call waits for the request. -/
structure Call.Awake (c : Call) : Prop where
  awake : ∀ n wakeAt, c.loop ≠ .backingOff n wakeAt
  waits : c.InFlight → c.fire = .pending

/-- No loop of the job sleeps. -/
def Job.Awake (job : Job) : Prop := ∀ p c, job.calls p = some c → c.Awake

namespace Job

variable {C : CallConfig} {admits : TTSProvider → Bool} {now : Nat} {job : Job} {e : Event} {p : TTSProvider}
  {c c' : Call}

/-- An event of a clean run in which no request to Google ends in an error. -/
structure Mild (C : CallConfig) (job : Job) (e : Event) : Prop where
  clean : ∀ a random, e = .answer a random → a.isClean C.timeoutMs = true
  timeout : ∀ p, e ≠ .timeout p
  google : ∀ code text random, e = .answer (.google (.failed code text)) random →
    ∀ c, job.calls .google = some c → ¬ c.InFlight

/-- The errors that a request in flight ends in. -/
theorem Mild.error_spec {a : Answer} {random : Nat} {err : CallError} (hmild : job.Mild C (.answer a random))
    (hc : job.calls a.provider = some c) (hflight : c.InFlight) (herr : a.result C.timeoutMs = .error err) :
    isRetryable err = false ∧ errorFilter err = true := by
  apply Answer.error_spec (hmild.clean a random rfl) ?_ herr
  rintro code text rfl
  exact hmild.google code text random rfl c hc hflight

theorem Mild.moves (hmild : job.Mild C e) (hawake : c.Awake) (hc : job.calls p = some c)
    (hmoves : c.Moves C now e p c') : c'.Awake ∧ c'.requests = c.requests := by
  cases hmoves with
  | sleeps hloop hturn =>
      -- an error that is retried would be one of Google's
      obtain ⟨⟨err, herr, hretry⟩, -⟩ := withRetry_sleeps hturn
      have := (hmild.error_spec hc ⟨_, _, hloop⟩ herr).1
      simp [hretry] at this
  | returns => exact ⟨⟨nofun, fun ⟨n, startedAt, h⟩ => nomatch h⟩, rfl⟩
  | wakes hloop => exact absurd hloop (hawake.awake _ _)
  | timesOut => exact absurd rfl (hmild.timeout p)

theorem Awake.step (hawake : job.Awake) (hmild : job.Mild C e) : (job.step C admits now e).1.Awake := by
  intro p c hc
  have htouches := job.touches_step C admits now e p
  rw [hc] at htouches
  generalize hafter : some c = after at htouches
  cases htouches with
  | same => exact hawake p c hafter.symm
  | begins =>
      obtain rfl := Option.some.inj hafter
      exact ⟨nofun, fun _ => rfl⟩
  | refused =>
      obtain rfl := Option.some.inj hafter
      exact ⟨nofun, fun ⟨n, startedAt, h⟩ => nomatch h⟩
  | moves hcall hmoves =>
      obtain rfl := Option.some.inj hafter
      exact (hmild.moves (hawake p _ hcall) hcall hmoves).1

/-- A call that has been made sends no second request. -/
theorem Awake.requests_step (hawake : job.Awake) (hinv : job.Inv C) (hmild : job.Mild C e) (hc : job.calls p = some c) :
    ∃ c', (job.step C admits now e).1.calls p = some c' ∧ c'.requests = c.requests := by
  have htouches := job.touches_step C admits now e p
  generalize hafter : (job.step C admits now e).1.calls p = after at htouches
  cases htouches with
  | same => exact ⟨c, hc, rfl⟩
  | begins hbegins | refused hbegins => exact absurd hbegins (hinv.not_begins hc)
  | moves hcall hmoves =>
      obtain rfl := Option.some.inj (hc.symm.trans hcall)
      exact ⟨_, rfl, (hmild.moves (hawake p c hc) hc hmoves).2⟩

/-- No breaker hears of a failure. -/
theorem Mild.quiet {r : Job × Signal} (hmild : job.Mild C e) (hdoes : job.Does C admits now e r) (p : TTSProvider) :
    r.2 ≠ .recorded p true := by
  cases hdoes with
  | stays | hits | saves | fails | sleeps | wakes => simp
  | misses | fallsBack =>
      unfold callProvider
      split
      · split <;> simp
      · simp
  | timesOut => exact absurd rfl (hmild.timeout _)
  | @returns a random n startedAt c result hcall hloop hturn =>
      obtain rfl := withRetry_returns hturn
      unfold finish
      split
      · simp
      · next err hpending herr =>
          -- the filter accepts it
          have hfilter := (hmild.error_spec hcall ⟨n, startedAt, hloop⟩ herr).2
          simp [reject, hfilter]
      · simp

end Job

/-! ## §4. Clean runs. -/

namespace System

variable {O : Opossum} {C : CallConfig} {s : System O} {a : Action} {j : Nat} {p : TTSProvider} {c : Call}

theorem mild_of_clean {job : Job} {e : Event} (hclean : (Action.job j e).isClean C.timeoutMs = true)
    (hgoogle : s.NoGoogleError (.job j e)) (hjob : s.jobs[j]? = some job) : job.Mild C e where
  clean a random h := by
    subst h
    exact hclean
  timeout p h := by
    subst h
    cases hclean
  google code text random h c hc := hgoogle j code text random (by rw [h]; rfl) c ((call_eq hjob .google).trans hc)

/-- What holds after each clean run in which no request to Google ends in an error. -/
structure Calm (C : CallConfig) (s : System O) : Prop where
  inv : s.Inv C
  awake : ∀ (j : Nat) (job : Job), s.jobs[j]? = some job → job.Awake
  quiet : ∀ p, s.failures p = 0
  closed : ∀ p, O.closed (s.breakers p) = true

theorem calm_init : (init : System O).Calm C :=
  ⟨inv_init, fun j job h => by simp [init] at h, fun _ => rfl, fun _ => O.closed_initial⟩

/-- A signal that is no failure opens no breaker. -/
theorem hear_quiet {signal : Signal} (hsignal : ∀ p, signal ≠ .recorded p true) (hquiet : ∀ p, s.failures p = 0)
    (hclosed : ∀ p, O.closed (s.breakers p) = true) :
    (∀ p, (s.hear signal).failures p = 0) ∧ ∀ p, O.closed ((s.hear signal).breakers p) = true := by
  cases signal with
  | none => exact ⟨hquiet, hclosed⟩
  | fired q =>
      refine ⟨hquiet, fun p => ?_⟩
      show O.closed (Function.update s.breakers q _ p) = true
      rw [Function.update_apply]
      split
      · exact O.closed_fired _ (hclosed q)
      · exact hclosed p
  | recorded q failure =>
      cases failure with
      | true => exact absurd rfl (hsignal q)
      | false =>
          refine ⟨hquiet, fun p => ?_⟩
          show O.closed (Function.update s.breakers q _ p) = true
          rw [Function.update_apply]
          split
          · exact O.closed_record _ (hclosed q)
          · exact hclosed p

theorem Calm.step (hcalm : s.Calm C) (hclean : a.isClean C.timeoutMs = true) (hgoogle : s.NoGoogleError a) :
    (s.step C a).Calm C := by
  have hawake : ∀ (j : Nat) (job : Job), (s.step C a).jobs[j]? = some job → job.Awake := by
    refine forall_jobs_step (fun spec => nofun) hcalm.awake ?_
    rintro j e job rfl hjob
    exact (hcalm.awake j job hjob).step (mild_of_clean hclean hgoogle hjob)
  suffices hbreakers : (∀ p, (s.step C a).failures p = 0) ∧ ∀ p, O.closed ((s.step C a).breakers p) = true from
    ⟨hcalm.inv.step a, hawake, hbreakers.1, hbreakers.2⟩
  cases a with
  | enqueue spec => exact ⟨hcalm.quiet, hcalm.closed⟩
  | tick ms =>
      simp only [System.step]
      split
      · exact ⟨hcalm.quiet, fun p => O.closed_elapse _ ms (hcalm.closed p)⟩
      · exact ⟨hcalm.quiet, hcalm.closed⟩
  | job j e =>
      cases hjob : s.jobs[j]? with
      | none => simpa only [System.step, hjob] using ⟨hcalm.quiet, hcalm.closed⟩
      | some job =>
          rw [step_job hjob]
          exact hear_quiet ((mild_of_clean hclean hgoogle hjob).quiet (job.does_step C s.admits s.now e)) hcalm.quiet
            hcalm.closed

theorem Calm.requests_step (hcalm : s.Calm C) (hclean : a.isClean C.timeoutMs = true) (hgoogle : s.NoGoogleError a)
    (hcall : s.call j p = some c) : ∃ c', (s.step C a).call j p = some c' ∧ c'.requests = c.requests := by
  obtain ⟨job, hjob, hc⟩ := exists_job hcall
  obtain ⟨-, hsame⟩ | ⟨e, rfl, -⟩ := jobs_step C hjob a
  · exact ⟨c, (call_eq hsame p).trans hc, rfl⟩
  · rw [call_job hjob]
    exact (hcalm.awake j job hjob).requests_step (hcalm.inv j job hjob) (mild_of_clean hclean hgoogle hjob) hc

/-- The transitions of such a run. -/
def IsMild (C : CallConfig) (t : Transition (System O) Action) : Prop :=
  t.act.isClean C.timeoutMs = true ∧ t.pre.NoGoogleError t.act

theorem calm_run (hcalm : s.Calm C) (more : List Action) (h : ∀ t ∈ trace (step C) s more, IsMild C t) :
    (run (step C) s more).Calm C :=
  run_invariant_of (step C) (Calm C) (IsMild C) hcalm (fun _ _ hs hmild => hs.step hmild.1 hmild.2) more h

theorem requests_run (hcalm : s.Calm C) (more : List Action) (h : ∀ t ∈ trace (step C) s more, IsMild C t)
    (hcall : s.call j p = some c) : ∃ c', (run (step C) s more).call j p = some c' ∧ c'.requests = c.requests := by
  induction more generalizing s c with
  | nil => exact ⟨c, hcall, rfl⟩
  | cons a more ih =>
      have hmild := h _ List.mem_cons_self
      obtain ⟨c', hc', hrequests⟩ := hcalm.requests_step hmild.1 hmild.2 hcall
      obtain ⟨c'', hc'', hrequests'⟩ :=
        ih (hcalm.step hmild.1 hmild.2) (fun t ht => h t (List.mem_cons_of_mem _ ht)) hc'
      exact ⟨c'', hc'', hrequests'.trans hrequests⟩

/-! ## §5. An error of Google's. -/

/-- An answer touches the call to its provider only. -/
theorem call_answer_of_ne {k : Nat} {q : TTSProvider} {a : Answer} {random : Nat} (h : (k, q) ≠ (j, a.provider)) :
    (s.step C (.job j (.answer a random))).call k q = s.call k q := by
  rcases call_step C s (.job j (.answer a random)) k q with hsame | ⟨e, job, he, hjob, htouches⟩
  · exact hsame
  · obtain ⟨rfl, rfl⟩ := Action.job.inj he
    rw [call_eq hjob]
    generalize (s.step C (.job j (.answer a random))).call j q = after at htouches
    cases htouches with
    | same => rfl
    | begins hbegins | refused hbegins => simp [Job.Begins] at hbegins
    | moves hc hmoves => cases hmoves <;> exact absurd rfl h

/-- The last attempt: the breaker hears of a failure. -/
theorem failure_of_last {startedAt : Nat} (hcall : s.call j .google = some c) (hpending : c.fire = .pending)
    (hloop : c.loop = .requesting C.retry.maxRetries startedAt) (code : RpcCode) (text : String) (random : Nat) :
    (s.step C (.googleError j code text random)).failures .google = s.failures .google + 1 := by
  obtain ⟨job, hjob, hc⟩ := exists_job hcall
  obtain ⟨err, herr, hretry, hfilter⟩ := google_disagrees code text
  rw [Action.googleError, step_job hjob]
  simp [Job.step, Answer.provider, hc, hloop, Answer.result, herr, withRetry, Job.finish, hpending, Job.reject, hfilter,
    hear]

/-- An earlier one: the loop sleeps. -/
theorem sleeps_of_earlier {n startedAt : Nat} (hcall : s.call j .google = some c)
    (hloop : c.loop = .requesting n startedAt) (hlast : n ≠ C.retry.maxRetries) (code : RpcCode) (text : String)
    (random : Nat) :
    (s.step C (.googleError j code text random)).call j .google
      = some { c with loop := .backingOff n (s.now + backoffDelay n C.retry.maxDelayMs random) } := by
  obtain ⟨job, hjob, hc⟩ := exists_job hcall
  obtain ⟨err, herr, hretry, -⟩ := google_disagrees code text
  rw [Action.googleError, call_job hjob]
  simp [Job.step, Answer.provider, hc, hloop, Answer.result, herr, withRetry, hretry, hlast]

/-- When the other calls have been answered, the clock can go on to the end of the sleep. -/
theorem exists_retry {n wakeAt : Nat} (hinv : s.Inv C) (hcall : s.call j p = some c)
    (hloop : c.loop = .backingOff n wakeAt) (hnow : s.now ≤ wakeAt) (hdue : wakeAt ≤ c.firedAt + C.timeoutMs)
    (hothers : ∀ k q d, (k, q) ≠ (j, p) → s.call k q = some d → d.Awake) :
    (run (step C) s (s.answerAll ++ [.tick (wakeAt - s.now), .job j (.wake p)])).requests j p = s.requests j p + 1 := by
  let s₁ := run (step C) s s.answerAll
  have hidle : ¬ c.InFlight := by
    rintro ⟨n', startedAt, h⟩
    simp [hloop] at h
  have hcall₁ : s₁.call j p = some c := by
    rw [call_answerAll, hcall, Option.map_some, Call.heard_of_not_inFlight hidle]
  obtain ⟨htick, hkept⟩ : (s₁.step C (.tick (wakeAt - s.now))).now = s₁.now + (wakeAt - s.now)
      ∧ ∀ k q, (s₁.step C (.tick (wakeAt - s.now))).call k q = s₁.call k q := by
    apply step_tick
    intro k q d hd
    have hnow₁ : s₁.now = s.now := now_answerAll s
    by_cases hplace : (k, q) = (j, p)
    · obtain ⟨rfl, rfl⟩ := Prod.mk.inj hplace
      obtain rfl := Option.some.inj (hcall₁.symm.trans hd)
      exact Call.onTime_of_not_inFlight hidle fun _ => by omega
    · -- the loop of the other call has returned
      have hmap : (s.call k q).map Call.heard = some d := (call_answerAll s k q).symm.trans hd
      obtain ⟨d₀, hd₀, rfl⟩ := Option.map_eq_some_iff.mp hmap
      have hreturned : d₀.heard.loop = .returned := by
        unfold Call.heard
        cases hd₀loop : d₀.loop with
        | requesting n startedAt => rfl
        | returned => exact hd₀loop
        | backingOff n' wakeAt' => exact absurd hd₀loop ((hothers k q d₀ hplace hd₀).awake n' wakeAt')
      have hinv₁ : s₁.Inv C := hinv.run _
      obtain ⟨job, hjob, hc⟩ := exists_job hd
      refine Call.onTime_of_not_inFlight (Call.heard_not_inFlight d₀) fun hpending => ?_
      exact absurd hpending (((hinv₁ k job hjob).call q _ hc).returned hreturned)
  have hnow₁ : s₁.now = s.now := now_answerAll s
  rw [run_append]
  show ((s₁.step C (.tick (wakeAt - s.now))).step C (.job j (.wake p))).requests j p = _
  rw [requests_wake ((hkept j p).trans hcall₁) hloop (by omega)]
  simp [requests, hkept, hcall₁, hcall]

theorem isClean_answerAll (s : System O) : ∀ a ∈ s.answerAll, a.isClean C.timeoutMs = true := by
  intro a ha
  obtain ⟨⟨j, p⟩, -, rfl⟩ := List.mem_map.mp ha
  simp [Action.isClean, Answer.isClean, Except.isOk, Except.toBool]

/-- The last attempt of a call, or one whose retry comes before the breaker's timeout, has consequences. -/
theorem exists_trip {n startedAt random : Nat} (hcalm : s.Calm C) (hcall : s.call j .google = some c)
    (hloop : c.loop = .requesting n startedAt) (code : RpcCode) (text : String)
    (hdue : n = C.retry.maxRetries ∨ s.now + backoffDelay n C.retry.maxDelayMs random ≤ c.firedAt + C.timeoutMs) :
    (s.step C (.googleError j code text random)).failures .google ≠ 0
      ∨ ∃ more, (∀ a ∈ more, a.isClean C.timeoutMs = true)
        ∧ (run (step C) (s.step C (.googleError j code text random)) more).requests j .google ≠ s.requests j .google := by
  obtain ⟨job, hjob, hc⟩ := exists_job hcall
  have hpending : c.fire = .pending := (hcalm.awake j job hjob .google c hc).waits ⟨n, startedAt, hloop⟩
  by_cases hlast : n = C.retry.maxRetries
  · subst hlast
    rw [failure_of_last hcall hpending hloop code text random]
    exact .inl (Nat.succ_ne_zero _)
  · right
    let s₁ := s.step C (.googleError j code text random)
    have hslept := sleeps_of_earlier hcall hloop hlast code text random
    have hnow : s₁.now = s.now := by
      show (s.step C (.job j _)).now = _
      rw [step_job hjob, hear_now]
    have hothers : ∀ k q d, (k, q) ≠ (j, .google) → s₁.call k q = some d → d.Awake := by
      intro k q d hplace hd
      have hbefore := (call_answer_of_ne hplace).symm.trans hd
      obtain ⟨other, hother, hd'⟩ := exists_job hbefore
      exact hcalm.awake k other hother q d hd'
    have hretry := exists_retry (hcalm.inv.step _) hslept rfl (hnow.le.trans (Nat.le_add_right ..))
      (hdue.resolve_left hlast) hothers
    let sleep := s.now + backoffDelay n C.retry.maxDelayMs random - s₁.now
    refine ⟨s₁.answerAll ++ [.tick sleep, .job j (.wake .google)], ?_, fun hsame => ?_⟩
    · simp only [List.mem_append, List.mem_cons, List.not_mem_nil, or_false]
      rintro a (ha | rfl | rfl)
      · exact isClean_answerAll s₁ a ha
      · rfl
      · rfl
    · rw [hretry] at hsame
      simp [requests, hslept, hcall] at hsame

/-- **Client mistakes do not trip a breaker** as long as none of them is Google's
to answer; and one that Google answers does more than it may, unless its retry
would come after the breaker's timeout. -/
theorem untripped (actions : List Action) (hclean : ∀ a ∈ actions, a.isClean C.timeoutMs = true)
    (hgoogle : ∀ t ∈ trace (step C) (init : System O) actions, t.pre.NoGoogleError t.act) :
    Untripped O C actions
      ∧ ∀ j c n startedAt code text random, (after C actions : System O).call j .google = some c →
        c.loop = .requesting n startedAt → (Answer.google (.failed code text)).isClientError = true →
        (n = C.retry.maxRetries
          ∨ (after C actions : System O).now + backoffDelay n C.retry.maxDelayMs random ≤ c.firedAt + C.timeoutMs) →
        ∃ more, (∀ a ∈ more, a.isClean C.timeoutMs = true)
          ∧ ¬ Untripped O C (actions ++ .googleError j code text random :: more) := by
  have hmild : ∀ as, as <+: actions → ∀ t ∈ trace (step C) (init : System O) as, IsMild C t := by
    intro as has t ht
    have ht' := mem_trace_of_isPrefix (step C) has ht
    exact ⟨hclean _ (act_mem_of_mem_trace _ ht'), hgoogle t ht'⟩
  have hcalm : ∀ as, as <+: actions → (after C as : System O).Calm C :=
    fun as has => calm_run calm_init as (hmild as has)
  constructor
  · refine ⟨fun as has => (hcalm as has).quiet, fun as has => (hcalm as has).closed, ?_⟩
    intro as j a random more has hclient c hcall hflight
    have hbefore := (List.prefix_append as _).trans has
    have hrest : ∀ t ∈ trace (step C) (after C as : System O) (.job j (.answer a random) :: more), IsMild C t := by
      intro t ht
      apply hmild _ has
      rw [trace_append]
      exact List.mem_append_right _ ht
    obtain ⟨c', hc', hrequests⟩ := requests_run (hcalm as hbefore) _ hrest hcall
    unfold after at hc' hcall ⊢
    rw [run_append]
    simp only [requests, hc', hcall]
    exact hrequests
  · intro j c n startedAt code text random hcall hloop hclient hdue
    obtain hfailed | ⟨more, hmore, hagain⟩ := exists_trip (hcalm actions List.prefix_rfl) hcall hloop code text hdue
    · refine ⟨[], by simp, fun h => hfailed ?_⟩
      have hquiet := h.quiet _ List.prefix_rfl .google
      unfold after at hquiet
      rwa [run_concat] at hquiet
    · refine ⟨more, hmore, fun h => hagain ?_⟩
      have hlast := h.last actions j _ random more List.prefix_rfl hclient c hcall ⟨n, startedAt, hloop⟩
      unfold after at hlast
      rwa [run_append] at hlast

end System

/-! A voice that does not exist. -/

def specFor (p : TTSProvider) : JobSpec := ⟨"hello", ⟨"no-such-voice", "en-US", "Voice"⟩, p, false, ""⟩

/-- ElevenLabs is asked, and then Google, twice. -/
def elevenlabsMistakes : List Action :=
  [.enqueue (specFor .elevenlabs), .job 0 .miss, .tick 100,
    .job 0 (.answer (.elevenlabs (.response 404 "voice_not_found" (.error ""))) 0), .job 0 .fallBack,
    .enqueue (specFor .elevenlabs), .job 1 .miss, .job 0 (.answer (audioFrom .google) 0), .job 0 .saved, .tick 100,
    .job 1 (.answer (.elevenlabs (.response 400 "voice_not_found" (.error ""))) 0), .job 1 .fallBack]

theorem untripped_elevenlabs : System.Untripped (.early 5) .default elevenlabsMistakes := by
  refine (System.untripped elevenlabsMistakes (by decide) fun t ht j code text random hact => ?_).1
  have hmem := act_mem_of_mem_trace _ ht
  rw [hact] at hmem
  simp [elevenlabsMistakes, Action.googleError, audioFrom] at hmem

/-- A job asks Google, with no time between the attempts. -/
def googleMistake (j : Nat) : List Action :=
  let invalid := Action.googleError j .invalidArgument "3 INVALID_ARGUMENT: This request contains an invalid voice" 0
  [.enqueue (specFor .google), .job j .miss, invalid, .job j (.wake .google), invalid, .job j (.wake .google), invalid,
    .job j (.wake .google), invalid]

def fiveMistakes : List Action := (List.range 5).flatMap googleMistake

/-- One such job makes the breaker hear of a failure, and five of them open it. -/
theorem google_mistakes_trip :
    (∀ a ∈ fiveMistakes, a.isClean CallConfig.default.timeoutMs = true)
      ∧ ¬ System.Untripped (.early 5) .default (googleMistake 0)
      ∧ (System.after .default (googleMistake 0) : System (.early 5)).failures .google = 1
      ∧ Opossum.closed (.early 5) ((System.after .default fiveMistakes : System (.early 5)).breakers .google) = false := by
  refine ⟨by decide, fun h => ?_, by decide, by decide⟩
  have hquiet := h.quiet _ List.prefix_rfl .google
  revert hquiet
  decide

end PredictIQ.Tts.ProviderCalls
