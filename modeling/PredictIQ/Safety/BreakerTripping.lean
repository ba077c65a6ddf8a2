/-
  PredictIQ.Safety.BreakerTripping: repeated failures and the circuit breaker.

  `trackError` counts failed transfers and stale oracles, and opens the
  breaker at the eleventh.  It is called on paths that end in an error, and
  the host drops the writes of a call that returns one: the counter stays at
  0, and no number of failures closes the contract to anything.
-/
import PredictIQ.Contract.BreakerSteps

namespace PredictIQ.Contract

open Foundation Tx

variable {X : Externs}

/-! ## §1. Failures the monitor is told of. -/

/-- The body stops in `w` with one of these codes. -/
def stopsWith {α : Type} (x : Body α) (codes : List ErrorCode) (env : Env) (w : World) : Bool :=
  match (x env w).1 with
  | .error (.error code) => codes.contains code
  | _ => false

/-- The codes `validate_oracle_staleness` fails with. -/
def stalenessCodes : List ErrorCode := [.stalePrice, .oracleFailure]

/-- The call fails inside `sac::safe_transfer`, or inside
`oracles::validate_oracle_staleness`. -/
def failsTracked (X : Externs) (env : Env) (w : World) : Call → Bool
  | .placeBet b => stopsWith (exec X (.placeBet b)) [.transferFailed] env w
  | .attemptOracleResolution id =>
      match w.markets.market.lookup id with
      | some m =>
          m.status = .active && m.resolutionDeadline ≤ w.timestamp
            && stopsWith (validateOracleStaleness id m.oracleConfig) stalenessCodes env w
      | none => false
  | .validateOracleStaleness id =>
      stopsWith (exec X (.validateOracleStaleness id)) stalenessCodes env w
  | _ => false

/-- How many calls of a history failed that way. -/
def trackedFailures (X : Externs) (history : List (Transition World Action)) : Nat :=
  history.countP fun t =>
    match t.act with
    | .call env c => failsTracked X env t.pre c
    | _ => false

theorem stopsWith_iff {α : Type} {x : Body α} {codes : List ErrorCode} {env : Env} {w : World} :
    stopsWith x codes env w = true ↔ ∃ code ∈ codes, ∃ v, x env w = (.error (.error code), v) := by
  unfold stopsWith
  rcases x env w with ⟨e | a, v⟩
  · cases e with
    | error code => simp
    | trap => simp
  · simp

/-- What fails inside the staleness check fails the resolution attempt. -/
theorem attempt_stops {env : Env} {w v : World} {id : Nat} {m : Market} {e : Abort}
    (hm : w.markets.market.lookup id = some m) (hs : m.status = .active)
    (hdue : m.resolutionDeadline ≤ w.timestamp)
    (h : validateOracleStaleness id m.oracleConfig env w = (.error e, v)) :
    attemptOracleResolution id env w = (.error e, v) := by
  unfold attemptOracleResolution
  have hstatus : failIf (m.status ≠ .active) .marketNotActive env w = (.ok (), w) :=
    failIf_ok.mpr ⟨not_not.mpr hs, rfl⟩
  have hdeadline : failIf (w.timestamp < m.resolutionDeadline) .resolutionNotReady env w
      = (.ok (), w) := failIf_ok.mpr ⟨not_lt.mpr hdue, rfl⟩
  rw [bind_of_ok (loadMarket_ok.mpr ⟨hm, rfl⟩), bind_of_ok hstatus, reads_bind,
    bind_of_ok hdeadline, bind_of_error h]

/-- **A tracked failure is an error return, and leaves nothing behind.** -/
theorem step_of_failsTracked {env : Env} {w : World} {c : Call}
    (h : failsTracked X env w c = true) : step X w (.call env c) = w := by
  have herr : ∃ e v, exec X c env w = (.error e, v) := by
    unfold failsTracked at h
    split at h
    · obtain ⟨code, _, v, hx⟩ := stopsWith_iff.mp h
      exact ⟨_, v, hx⟩
    · split at h
      · rename_i id m hm
        simp only [Bool.and_eq_true, decide_eq_true_eq] at h
        obtain ⟨⟨hs, hdue⟩, hstop⟩ := h
        obtain ⟨code, _, v, hx⟩ := stopsWith_iff.mp hstop
        exact ⟨_, v, bind_of_error (attempt_stops hm hs hdue hx)⟩
      · cases h
    · obtain ⟨code, _, v, hx⟩ := stopsWith_iff.mp h
      exact ⟨_, v, hx⟩
    · cases h
  obtain ⟨e, v, hx⟩ := herr
  refine commit_state_of_error (e := e) ?_
  unfold commit
  rw [hx]

/-- **The error counter never leaves 0.** -/
theorem Reachable.errorCount_eq_zero {w : World} (h : Reachable X w) :
    w.breaker.errorCount.getD 0 = 0 := by
  obtain ⟨b, t, s, as, rfl⟩ := h
  refine run_invariant_of (step X) (fun v => v.breaker.errorCount.getD 0 = 0) (fun _ => True) rfl
    ?_ as fun _ _ => trivial
  intro v a hv _
  rcases step_breaker X v a with hsame | ⟨env, c, _, _, hstep⟩
  · rw [hsame]
    exact hv
  · generalize (step X v a).breaker = br at hstep ⊢
    cases hstep with
    | set state => cases state <;> exact hv
    | guarded _ _ _ pass => cases pass <;> exact hv
    | reset => rfl
    | _ => exact hv

/-! ## §2. What closes and opens the breaker. -/

/-- A call of `set_circuit_breaker`, `pause`, `unpause` or `reset_monitoring`. -/
def Action.setsBreaker : Action → Bool
  | .call _ (.setCircuitBreaker _) => true
  | .call _ .pause => true
  | .call _ .unpause => true
  | .call _ .resetMonitoring => true
  | _ => false

/-- An emergency vote that completes its two thirds. -/
def PausesByVote (w : World) (a : Action) : Prop :=
  ∃ env voter, a = .call env (.emergencyPause voter) ∧ PausesNow env w voter

theorem PausesByVote.paused {w : World} {a : Action} (h : PausesByVote w a) :
    (step X w a).breaker.getState = .paused := by
  obtain ⟨env, voter, rfl, hnow⟩ := h
  have hsucc : Succeeds X env (.emergencyPause voter) w _ :=
    ⟨.unit, done_eq_ok.mpr ⟨hnow.run, rfl⟩⟩
  rw [step_of_succeeds hsucc]
  exact BreakerStore.getState_setState _ _ _

/-- Outside of those calls the breaker leaves Closed by an emergency vote
alone, and does not go back to it. -/
theorem not_closed_step_iff {w : World} {a : Action} (ha : a.setsBreaker = false) :
    (step X w a).breaker.getState ≠ .closed ↔
      w.breaker.getState ≠ .closed ∨ PausesByVote w a := by
  constructor
  · intro hopen
    rcases step_breaker X w a with hsame | ⟨env, c, rfl, _, hstep⟩
    · rw [hsame] at hopen
      exact Or.inl hopen
    · generalize (step X w (.call env c)).breaker = br at hopen hstep
      cases hstep with
      | emergency voter now => exact Or.inr ⟨env, voter, rfl, now⟩
      | set => cases ha
      | paused => cases ha
      | unpaused => cases ha
      | reset => cases ha
      | guarded _ _ _ pass =>
          cases pass with
          | closed => exact Or.inl hopen
          | recovers state => exact Or.inl (by rw [state]; decide)
          | probes state => exact Or.inl (by rw [state]; decide)
      | _ => exact Or.inl hopen
  · intro h
    rcases h with hopen | hvote
    · rcases step_breaker X w a with hsame | ⟨env, c, rfl, _, hstep⟩
      · rw [hsame]
        exact hopen
      · generalize (step X w (.call env c)).breaker = br at hstep ⊢
        cases hstep with
        | emergency => simp
        | set => cases ha
        | paused => cases ha
        | unpaused => cases ha
        | reset => cases ha
        | guarded _ _ _ pass =>
            cases pass with
            | closed state => exact absurd state hopen
            | recovers => simp [BreakerStore.getState]
            | probes => exact hopen
        | _ => exact hopen
    · rw [hvote.paused]
      decide

/-! ## §3. Failures do not trip the breaker. -/

/-- A run keeps away from Closed exactly where it starts away from it, or an
emergency vote takes it there. -/
theorem not_closed_run_iff (w : World) (as : List Action)
    (quiet : ∀ a ∈ as, a.setsBreaker = false) :
    (run (step X) w as).breaker.getState ≠ .closed ↔
      w.breaker.getState ≠ .closed ∨ ∃ t ∈ trace (step X) w as, PausesByVote t.pre t.act := by
  induction as generalizing w with
  | nil => simp [run]
  | cons a as ih =>
      have hhead := not_closed_step_iff (X := X) (w := w) (quiet a List.mem_cons_self)
      have htail := ih (step X w a) fun b hb => quiet b (List.mem_cons_of_mem a hb)
      show (run (step X) (step X w a) as).breaker.getState ≠ .closed ↔ _
      rw [htail, hhead]
      simp [trace, or_assoc]

/-- More than ten tracked failures in `as` leave the breaker other than Closed. -/
def TripsOnFailures (X : Externs) (w : World) (as : List Action) : Prop :=
  10 < trackedFailures X (trace (step X) w as) →
    (run (step X) w as).breaker.getState ≠ .closed

/-- **When failures find the breaker tripped.**  `w` is the state the last
`reset_monitoring` left, and no call in `as` sets the breaker: with more than
ten failures in `as`, the breaker is other than Closed only if it was so in
`w`, or an emergency vote paused the contract. -/
theorem failures_trip_iff (w : World) (as : List Action)
    (quiet : ∀ a ∈ as, a.setsBreaker = false) :
    TripsOnFailures X w as ↔
      (10 < trackedFailures X (trace (step X) w as) →
        w.breaker.getState ≠ .closed ∨ ∃ t ∈ trace (step X) w as, PausesByVote t.pre t.act) := by
  unfold TripsOnFailures
  rw [not_closed_run_iff w as quiet]

/-- Eleven bets of more than the bettor holds. -/
def sampleFailures : List Action :=
  List.replicate 11 (.call everybody (.placeBet (sampleBet ⟨3⟩ ⟨10⟩ 1 0 2000000)))

theorem failures_trip_sample : TripsOnFailures sampleExterns
    (sampleRun (sampleOpening 0 100 ++ [.call everybody (.setCircuitBreaker .opened)]))
    sampleFailures :=
  (failures_trip_iff _ sampleFailures (by decide)).mpr fun _ => Or.inl (by decide +kernel)

/-- Eleven transfers fail one after the other, and the breaker is Closed. -/
theorem sampleFailures_stay_closed :
    trackedFailures sampleExterns
        (trace (step sampleExterns) (sampleRun (sampleOpening 0 100)) sampleFailures) = 11
      ∧ (∀ a ∈ sampleFailures, a.setsBreaker = false)
      ∧ ¬TripsOnFailures sampleExterns (sampleRun (sampleOpening 0 100)) sampleFailures := by
  have hcount : trackedFailures sampleExterns
      (trace (step sampleExterns) (sampleRun (sampleOpening 0 100)) sampleFailures) = 11 := by
    decide +kernel
  refine ⟨hcount, by decide, ?_⟩
  intro htrips
  exact htrips (by rw [hcount]; decide) (by decide +kernel)

end PredictIQ.Contract
