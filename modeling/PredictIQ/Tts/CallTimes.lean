/-
  PredictIQ.Tts.CallTimes: time can always pass.

  A clock that stops at deadlines stops for good where one cannot be met.  Here
  every request can be answered, and every breaker's timer can fire, so from
  each state of the service some run goes on past any time; and it leaves the
  calls alone that no job waits for.
-/
import PredictIQ.Tts.ProviderCalls

namespace PredictIQ.Tts.ProviderCalls

open Foundation

/-! ## §1. Answering and expiring. -/

/-- A good answer, with no audio in it. -/
def audioFrom : TTSProvider → Answer
  | .elevenlabs => .elevenlabs (.response 200 "" (.ok []))
  | .google => .google (.response (.ok []))

@[simp] theorem audioFrom_provider (p : TTSProvider) : (audioFrom p).provider = p := by cases p <;> rfl

@[simp] theorem audioFrom_result (timeoutMs : Nat) (p : TTSProvider) : (audioFrom p).result timeoutMs = .ok [] := by
  cases p <;> rfl

namespace Call

/-- A request of the call is in flight. -/
def InFlight (c : Call) : Prop := ∃ n startedAt, c.loop = .requesting n startedAt

/-- What becomes of a call when its request, if there is one, is answered with audio. -/
def heard (c : Call) : Call :=
  match c.loop with
  | .requesting .. => { c with loop := .returned, fire := c.fire.settle (.ok []) }
  | _ => c

/-- What becomes of a call when its breaker's timer, if it is due, fires. -/
def expired (timeoutMs now : Nat) (c : Call) : Call :=
  if c.fire = .pending ∧ c.firedAt + timeoutMs ≤ now then { c with fire := .rejected } else c

variable {c : Call} {timeoutMs now : Nat}

theorem heard_of_not_inFlight (h : ¬ c.InFlight) : c.heard = c := by
  unfold heard
  split
  · next n startedAt hloop => exact absurd ⟨n, startedAt, hloop⟩ h
  · rfl

theorem heard_not_inFlight (c : Call) : ¬ c.heard.InFlight := by
  rintro ⟨n, startedAt, h⟩
  unfold heard at h
  split at h
  · cases h
  · next hloop => exact hloop n startedAt h

theorem heard_heard (c : Call) : c.heard.heard = c.heard := heard_of_not_inFlight c.heard_not_inFlight

theorem expired_of_not_pending (h : c.fire ≠ .pending) : c.expired timeoutMs now = c := if_neg fun hdue => h hdue.1

theorem expired_loop (timeoutMs now : Nat) (c : Call) : (c.expired timeoutMs now).loop = c.loop := by
  unfold expired
  split <;> rfl

theorem expired_expired (timeoutMs now : Nat) (c : Call) :
    (c.expired timeoutMs now).expired timeoutMs now = c.expired timeoutMs now := by
  by_cases hdue : c.fire = .pending ∧ c.firedAt + timeoutMs ≤ now
  · simp [expired, hdue]
  · simp only [expired, if_neg hdue]

/-- Only a request in flight and a pending promise have deadlines. -/
theorem onTime_of_not_inFlight {t : Nat} (h : ¬ c.InFlight) (hpending : c.fire = .pending → t ≤ c.firedAt + timeoutMs) :
    c.onTime timeoutMs t = true := by
  unfold onTime
  cases hloop : c.loop with
  | requesting n startedAt => exact absurd ⟨n, startedAt, hloop⟩ h
  | backingOff n wakeAt | returned =>
      by_cases hfire : c.fire = .pending
      · simpa [hfire] using hpending hfire
      · simp [hfire]

/-- When what is in flight has been answered and what is due has expired, time can go on. -/
theorem onTime_expired_heard (timeoutMs now : Nat) (c : Call) :
    (c.heard.expired timeoutMs now).onTime timeoutMs (now + 1) = true := by
  apply onTime_of_not_inFlight
  · rintro ⟨n, startedAt, h⟩
    rw [expired_loop] at h
    exact c.heard_not_inFlight ⟨n, startedAt, h⟩
  · intro hpending
    unfold expired at hpending ⊢
    by_cases hdue : c.heard.fire = .pending ∧ c.heard.firedAt + timeoutMs ≤ now
    · rw [if_pos hdue] at hpending
      cases hpending
    · rw [if_neg hdue] at hpending ⊢
      have hlater : ¬ c.heard.firedAt + timeoutMs ≤ now := fun h => hdue ⟨hpending, h⟩
      omega

end Call

namespace Job

variable {C : CallConfig}

theorem answer_calls (admits : TTSProvider → Bool) (now : Nat) (job : Job) (p : TTSProvider) :
    (job.step C admits now (.answer (audioFrom p) 0)).1.calls
      = Function.update job.calls p ((job.calls p).map Call.heard) := by
  simp only [step, audioFrom_provider, audioFrom_result, withRetry]
  cases hcall : job.calls p with
  | none => exact (Function.update_eq_self_iff.mpr hcall.symm).symm
  | some c =>
      dsimp only
      cases hloop : c.loop with
      | requesting n startedAt =>
          dsimp only
          rw [finish_calls]
          simp [setCall, Call.heard, hloop]
      | backingOff n wakeAt | returned =>
          have hsame : c.heard = c := by simp [Call.heard, hloop]
          rw [Option.map_some, hsame, ← hcall]
          exact (Function.update_eq_self p job.calls).symm

theorem timeout_calls (admits : TTSProvider → Bool) (now : Nat) (job : Job) (p : TTSProvider) :
    (job.step C admits now (.timeout p)).1.calls
      = Function.update job.calls p ((job.calls p).map (Call.expired C.timeoutMs now)) := by
  simp only [step]
  cases hcall : job.calls p with
  | none => exact (Function.update_eq_self_iff.mpr hcall.symm).symm
  | some c =>
      by_cases hdue : c.fire = .pending ∧ c.firedAt + C.timeoutMs ≤ now
      · simp [hdue, reject_calls, setCall, Call.expired]
      · have hsame : c.expired C.timeoutMs now = c := if_neg hdue
        dsimp only
        rw [if_neg hdue, Option.map_some, hsame, ← hcall]
        exact (Function.update_eq_self p job.calls).symm

end Job

/-! ## §2. All calls in turn. -/

namespace System

variable {O : Opossum} {C : CallConfig} {s : System O} {j : Nat} {p : TTSProvider} {c : Call}

/-- The places of the calls. -/
def places (s : System O) : List (Nat × TTSProvider) :=
  (List.range s.jobs.length).flatMap fun j => [(j, .elevenlabs), (j, .google)]

theorem mem_places (hcall : s.call j p = some c) : (j, p) ∈ s.places := by
  obtain ⟨job, hjob, -⟩ := exists_job hcall
  refine List.mem_flatMap.mpr ⟨j, List.mem_range.mpr (getElem?_lt hjob), ?_⟩
  cases p <;> simp

/-- One event for every place in turn. -/
def sweep (event : TTSProvider → Event) (places : List (Nat × TTSProvider)) : List Action :=
  places.map fun x => .job x.1 (event x.2)

/-- What one event does to the calls of its place, a sweep does to all of its places. -/
theorem run_sweep {event : TTSProvider → Event} {f : Nat → Call → Call}
    (hevent : ∀ admits now (job : Job) p, (job.step C admits now (event p)).1.calls
      = Function.update job.calls p ((job.calls p).map (f now)))
    (hidem : ∀ now c, f now (f now c) = f now c) (places : List (Nat × TTSProvider)) (s : System O) :
    (run (step C) s (sweep event places)).now = s.now
      ∧ ∀ k q, (run (step C) s (sweep event places)).call k q
        = if (k, q) ∈ places then (s.call k q).map (f s.now) else s.call k q := by
  induction places generalizing s with
  | nil => exact ⟨rfl, fun k q => rfl⟩
  | cons x places ih =>
      obtain ⟨j, p⟩ := x
      -- the first place, and then the others
      have hnow : (s.step C (.job j (event p))).now = s.now := by
        simp only [step]
        split <;> simp
      have hfirst : ∀ k q, (s.step C (.job j (event p))).call k q
          = if (k, q) = (j, p) then (s.call k q).map (f s.now) else s.call k q := by
        intro k q
        cases hjob : s.jobs[j]? with
        | none =>
            have hnone : ∀ q, s.call j q = none := fun q => by simp [call, hjob]
            simp only [step, hjob]
            split
            · next h =>
                obtain ⟨rfl, rfl⟩ := Prod.mk.inj h
                simp [hnone]
            · rfl
        | some job =>
            rw [step_job hjob]
            simp only [call, hear_jobs, List.getElem?_set, getElem?_lt hjob]
            by_cases hk : j = k
            · subst hk
              simp only [hjob, if_true, Option.bind_some, hevent, Function.update_apply, Prod.mk.injEq, true_and]
              split
              · next hq => rw [hq]
              · rfl
            · simp [hk, Ne.symm hk]
      obtain ⟨ihnow, ihcall⟩ := ih (s.step C (.job j (event p)))
      refine ⟨ihnow.trans hnow, fun k q => ?_⟩
      show (run (step C) (s.step C (.job j (event p))) (sweep event places)).call k q = _
      rw [ihcall, hnow, hfirst]
      by_cases hhead : (k, q) = (j, p)
      · have hmem : (k, q) ∈ (j, p) :: places := by simp [hhead]
        simp only [if_pos hhead, if_pos hmem, Option.map_map]
        have hcomp : f s.now ∘ f s.now = f s.now := funext (hidem s.now)
        simp [hcomp]
      · simp [hhead]

/-- Every request in flight is answered. -/
def answerAll (s : System O) : List Action := sweep (fun p => .answer (audioFrom p) 0) s.places

/-- Every timer of a breaker that is due fires. -/
def expireAll (s : System O) : List Action := sweep .timeout s.places

theorem sweep_places {event : TTSProvider → Event} {f : Nat → Call → Call}
    (hevent : ∀ admits now (job : Job) p, (job.step C admits now (event p)).1.calls
      = Function.update job.calls p ((job.calls p).map (f now)))
    (hidem : ∀ now c, f now (f now c) = f now c) (s : System O) (k : Nat) (q : TTSProvider) :
    (run (step C) s (sweep event s.places)).call k q = (s.call k q).map (f s.now) := by
  rw [(run_sweep hevent hidem s.places s).2]
  split
  · rfl
  · next hplace =>
      cases hcall : s.call k q with
      | none => rfl
      | some c => exact absurd (mem_places hcall) hplace

theorem call_answerAll (s : System O) (k : Nat) (q : TTSProvider) :
    (run (step C) s s.answerAll).call k q = (s.call k q).map Call.heard :=
  sweep_places Job.answer_calls (fun _ => Call.heard_heard) s k q

theorem call_expireAll (s : System O) (k : Nat) (q : TTSProvider) :
    (run (step C) s s.expireAll).call k q = (s.call k q).map (Call.expired C.timeoutMs s.now) :=
  sweep_places Job.timeout_calls (Call.expired_expired C.timeoutMs) s k q

theorem now_answerAll (s : System O) : (run (step C) s s.answerAll).now = s.now :=
  (run_sweep Job.answer_calls (fun _ => Call.heard_heard) s.places s).1

theorem now_expireAll (s : System O) : (run (step C) s s.expireAll).now = s.now :=
  (run_sweep Job.timeout_calls (Call.expired_expired C.timeoutMs) s.places s).1

/-! ## §3. The clock. -/

theorem onTime_iff {timeoutMs t : Nat} :
    s.jobs.all (·.onTime timeoutMs t) = true ↔ ∀ k q c, s.call k q = some c → c.onTime timeoutMs t = true := by
  simp only [List.all_eq_true, Job.onTime]
  constructor
  · intro h k q c hcall
    obtain ⟨job, hjob, hc⟩ := exists_job hcall
    have := h job (List.mem_of_getElem? hjob) q (by cases q <;> simp)
    simpa [hc] using this
  · intro h job hmem q _
    obtain ⟨k, hjob⟩ := List.getElem?_of_mem hmem
    cases hc : job.calls q with
    | none => rfl
    | some c => exact h k q c ((call_eq hjob q).trans hc)

/-- Time passes when it passes no deadline. -/
theorem step_tick {ms : Nat} (h : ∀ k q c, s.call k q = some c → c.onTime C.timeoutMs (s.now + ms) = true) :
    (s.step C (.tick ms)).now = s.now + ms ∧ ∀ k q, (s.step C (.tick ms)).call k q = s.call k q := by
  simp only [step, if_pos (onTime_iff.mpr h)]
  exact ⟨trivial, fun k q => rfl⟩

/-- A millisecond can pass, and leaves a call that its job does not wait for to its sleep. -/
theorem exists_later (C : CallConfig) (hcall : s.call j p = some c) (hloop : ¬ c.InFlight)
    (hfire : c.fire ≠ .pending) :
    ∃ more, (run (step C) s more).now = s.now + 1 ∧ (run (step C) s more).call j p = some c := by
  let s₁ := run (step C) s s.answerAll
  let s₂ := run (step C) s₁ s₁.expireAll
  have hcalls : ∀ k q, s₂.call k q = ((s.call k q).map Call.heard).map (Call.expired C.timeoutMs s.now) := by
    intro k q
    rw [call_expireAll, call_answerAll, now_answerAll]
  have hnow : s₂.now = s.now := (now_expireAll s₁).trans (now_answerAll s)
  obtain ⟨htick, hkept⟩ : (s₂.step C (.tick 1)).now = s₂.now + 1
      ∧ ∀ k q, (s₂.step C (.tick 1)).call k q = s₂.call k q := by
    apply step_tick
    intro k q d hd
    rw [hcalls, Option.map_map] at hd
    obtain ⟨d₀, -, rfl⟩ := Option.map_eq_some_iff.mp hd
    rw [hnow]
    exact d₀.onTime_expired_heard C.timeoutMs s.now
  refine ⟨s.answerAll ++ s₁.expireAll ++ [.tick 1], ?_⟩
  rw [run_concat, run_append]
  refine ⟨htick.trans (by rw [hnow]), (hkept j p).trans ?_⟩
  rw [hcalls, hcall, Option.map_some, Option.map_some, Call.heard_of_not_inFlight hloop,
    Call.expired_of_not_pending hfire]

theorem exists_later_add (C : CallConfig) (k : Nat) (hcall : s.call j p = some c) (hloop : ¬ c.InFlight)
    (hfire : c.fire ≠ .pending) :
    ∃ more, (run (step C) s more).now = s.now + k ∧ (run (step C) s more).call j p = some c := by
  induction k with
  | zero => exact ⟨[], rfl, hcall⟩
  | succ k ih =>
      obtain ⟨more, hnow, hcall'⟩ := ih
      obtain ⟨last, hnow', hlast⟩ := exists_later C hcall' hloop hfire
      refine ⟨more ++ last, ?_⟩
      rw [run_append, hnow', hnow]
      exact ⟨rfl, hlast⟩

/-- A sleep that is over is followed by a request. -/
theorem requests_wake {n wakeAt : Nat} (hcall : s.call j p = some c) (hloop : c.loop = .backingOff n wakeAt)
    (hdue : wakeAt ≤ s.now) : (s.step C (.job j (.wake p))).requests j p = s.requests j p + 1 := by
  obtain ⟨job, hjob, hc⟩ := exists_job hcall
  have hwoken : (job.step C s.admits s.now (.wake p)).1
      = job.setCall p { c with loop := .requesting (n + 1) s.now, requests := c.requests + 1 } := by
    simp only [Job.step, hc, hloop, if_pos hdue]
  unfold requests
  rw [call_job hjob, hwoken, Job.setCall_self, hcall]
  rfl

/-- A loop that sleeps on after its call has been rejected sends another request. -/
theorem exists_wake (C : CallConfig) {n wakeAt : Nat} (hcall : s.call j p = some c)
    (hloop : c.loop = .backingOff n wakeAt) (hfire : c.fire ≠ .pending) :
    ∃ more, (run (step C) s more).requests j p = s.requests j p + 1 := by
  have hidle : ¬ c.InFlight := by
    rintro ⟨n', startedAt, h⟩
    simp [hloop] at h
  obtain ⟨more, hnow, hlater⟩ := exists_later_add C (wakeAt - s.now) hcall hidle hfire
  refine ⟨more ++ [.job j (.wake p)], ?_⟩
  rw [run_concat, requests_wake hlater hloop (by omega)]
  simp [requests, hlater, hcall]

end System

end PredictIQ.Tts.ProviderCalls
