/-
  PredictIQ.Contract.BreakerSteps: the circuit breaker under a successful call.

  `BreakerStep` says once what a call that returned `Ok` can leave in the
  breaker's storage.  The error counter is not among the things it can raise:
  `trackError` runs on paths that end in an error, and the host drops what
  such a call had written.
-/
import PredictIQ.Contract.Lifecycle

namespace PredictIQ.Contract

open Foundation Tx

/-! ## §1. The calls behind `require_closed`. -/

/-- `cast_vote` and `file_dispute`: the interface runs `require_closed` first. -/
inductive GuardedCall : Call → Prop
  | castVote (voter : Address) (marketId outcome : Nat) (weight : Int) :
      GuardedCall (.castVote voter marketId outcome weight)
  | fileDispute (disciplinarian : Address) (marketId : Nat) :
      GuardedCall (.fileDispute disciplinarian marketId)

/-- How a successful call may change the breaker. -/
inductive BreakerStep (env : Env) (w : World) : Call → BreakerStore → Prop
  | same (c : Call) : BreakerStep env w c w.breaker
  | initialized (admin : Address) (baseFee : Int) :
      BreakerStep env w (.initializeContract admin baseFee)
        { w.breaker with persistentState := some .closed }
  | set (state : CircuitBreakerState) (byAdmin : ByAdmin env w) :
      BreakerStep env w (.setCircuitBreaker state) (w.breaker.setState w.timestamp state)
  | threshold (n : Int) (byAdmin : ByAdmin env w) :
      BreakerStep env w (.setCircuitBreakerThreshold n)
        { w.breaker with circuitBreakerThreshold := some n }
  | paused (allowed : ByGuardianOrAdmin env w) :
      BreakerStep env w .pause (w.breaker.setState w.timestamp .paused)
  | unpaused (allowed : ByGuardianOrAdmin env w) :
      BreakerStep env w .unpause (w.breaker.setState w.timestamp .closed)
  | reset (byAdmin : ByAdmin env w) :
      BreakerStep env w .resetMonitoring
        { w.breaker with errorCount := some 0, lastObservation := some 0 }
  | emergency (voter : Address) (now : PausesNow env w voter) :
      BreakerStep env w (.emergencyPause voter) (w.breaker.setState w.timestamp .paused)
  | guarded (c : Call) (v : World) (hc : GuardedCall c) (pass : Guarded w (.ok ()) v) :
      BreakerStep env w c v.breaker

/-! ## §2. Inversion. -/

section Inversion

variable {X : Externs} {env : Env} {w w' : World}

theorem AnnouncesMove.breaker_eq {id : Nat} {f : LifecycleCall} {evs : List Event}
    (h : AnnouncesMove X w id f evs w') : w'.breaker = w.breaker := by
  obtain ⟨_, _, _, _, _, rfl⟩ := h
  rfl

/-- **What a successful call leaves in the breaker.** -/
theorem Outcome.breaker {c : Call} (h : Outcome X env w c w') :
    BreakerStep env w c w'.breaker := by
  cases h with
  | initialized admin baseFee => exact .initialized admin baseFee
  | created _ p dw id _ hc effect =>
      obtain ⟨_, _, _, hw⟩ := effect.frame
      rw [hw]
      exact .same _
  | bet b m fee _ effect =>
      obtain ⟨_, hw⟩ := effect.frame
      rw [hw]
      exact .same _
  | voted voter id outcome weight v u _ m govToken vote pass effect =>
      obtain ⟨_, _, _, _, rfl⟩ := effect.frame
      exact .guarded _ v (.castVote voter id outcome weight) pass
  | disputed disciplinarian id evs v _ pass moves =>
      rw [moves.breaker_eq]
      exact .guarded _ v (.fileDispute disciplinarian id) pass
  | moved _ id f evs _ hc moves =>
      rw [moves.breaker_eq]
      exact .same _
  | breakerSet state byAdmin => exact .set state byAdmin
  | thresholdSet n byAdmin => exact .threshold n byAdmin
  | paused allowed => exact .paused allowed
  | unpaused allowed => exact .unpaused allowed
  | monitoringReset byAdmin => exact .reset byAdmin
  | emergencyPaused voter now => exact .emergency voter now
  | _ => exact .same _

theorem Succeeds.breaker {c : Call} (h : Succeeds X env c w w') :
    BreakerStep env w c w'.breaker := h.outcome.breaker

/-- A step of the contract changes the breaker by a call that allows it, or
not at all. -/
theorem step_breaker (X : Externs) (w : World) (a : Action) :
    (step X w a).breaker = w.breaker ∨ ∃ env c, a = .call env c
      ∧ Succeeds X env c w (step X w a) ∧ BreakerStep env w c (step X w a).breaker := by
  cases a with
  | call env c =>
      rcases step_call_cases X env c w with h | h
      · rw [h]
        exact Or.inl rfl
      · exact Or.inr ⟨env, c, rfl, h, h.breaker⟩
  | advance seconds ledgers => exact Or.inl rfl
  | external balances => exact Or.inl rfl

end Inversion

end PredictIQ.Contract
