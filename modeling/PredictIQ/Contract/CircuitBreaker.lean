/-
  PredictIQ.Contract.CircuitBreaker: `circuit_breaker.rs` and `monitoring.rs`.

  The breaker state lives in instance storage.  `trackError` writes it
  directly, without the bookkeeping of `setStateInternal`: it leaves
  `openedAt` as it was.
-/
import PredictIQ.Contract.Admin

namespace PredictIQ.Contract

open Foundation Tx

/-! ## §1. The breaker. -/

/-- `COOLDOWN_SECONDS`: 6 hours. -/
def cooldownSeconds : Nat := 6 * 3600

/-- `HALF_OPEN_MAX_OPS`. -/
def halfOpenMaxOps : Nat := 5

/-- `DEFAULT_CIRCUIT_BREAKER_THRESHOLD`. -/
def defaultCircuitBreakerThreshold : Int := 1000000000

/-- The bookkeeping of `_set_state_internal` for a new state at time `now`. -/
def BreakerStore.setState (s : BreakerStore) (now : Nat) : CircuitBreakerState → BreakerStore
  | .opened => { s with openedAt := some now, circuitBreakerState := some .opened }
  | .halfOpen => { s with halfOpenOps := some 0, circuitBreakerState := some .halfOpen }
  | .closed => { s with circuitBreakerState := some .closed }
  | .paused => { s with circuitBreakerState := some .paused }

def setStateInternal (state : CircuitBreakerState) : Body Unit := do
  update fun w => { w with breaker := w.breaker.setState w.timestamp state }
  publish (.cbState currentContractAddress state)

def setState (state : CircuitBreakerState) : Body Unit := do
  requireAdmin
  setStateInternal state

def forcePause : Body Unit := setStateInternal .paused

def BreakerStore.getState (s : BreakerStore) : CircuitBreakerState :=
  s.circuitBreakerState.getD .closed

def getState : Body CircuitBreakerState := reads (·.breaker.getState)

/-- Open becomes HalfOpen once the cool-down has passed. -/
def maybeRecover : Body Unit := do
  let state ← getState
  whenever (state = .opened) do
    let openedAt ← reads (·.breaker.openedAt.getD 0)
    let reopenAt ← orTrap (addU64 openedAt cooldownSeconds)
    let now ← reads (·.timestamp)
    whenever (reopenAt ≤ now) (setStateInternal .halfOpen)

def requireClosed : Body Unit := do
  maybeRecover
  match ← getState with
  | .opened => abort (.error .contractPaused)
  | .paused => abort (.error .contractPaused)
  | .closed => pure ()
  | .halfOpen => do
      let ops ← reads (·.breaker.halfOpenOps.getD 0)
      if halfOpenMaxOps ≤ ops then do
        -- this write is lost with the error that follows it
        setStateInternal .opened
        abort (.error .contractPaused)
      else
        update fun w => { w with breaker.halfOpenOps := some (ops + 1) }

/-- Guardian account if one is set, else the admin. -/
def requireGuardianOrAdmin : Body Unit := do
  match ← getGuardian with
  | some guardian => requireAuth guardian
  | none => requireAdmin

def pause : Body Unit := do
  requireGuardianOrAdmin
  setStateInternal .paused

def unpause : Body Unit := do
  requireGuardianOrAdmin
  setStateInternal .closed

def requireNotPausedForHighRisk : Body Unit := do
  let state ← getState
  failIf (state = .paused) .contractPaused

def setThreshold (threshold : Int) : Body Unit := do
  requireAdmin
  failIf (threshold ≤ 0) .invalidAmount
  let oldThreshold ← reads (·.breaker.circuitBreakerThreshold.getD defaultCircuitBreakerThreshold)
  update fun w => { w with breaker.circuitBreakerThreshold := some threshold }
  publish (.cbThrSet oldThreshold threshold)

/-! ## §2. Monitoring. -/

def trackError : Body Unit := do
  let count ← orTrap (addU32 (← reads (·.breaker.errorCount.getD 0)) 1)
  update fun w => { w with breaker.errorCount := some count }
  update fun w => { w with breaker.lastObservation := some w.timestamp }
  -- opened past the bookkeeping of `setStateInternal`: `openedAt` is left as it was
  whenever (10 < count) do
    update fun w => { w with breaker.circuitBreakerState := some .opened }
    publish (.cbAuto count)

def resetMonitoring : Body Unit := do
  let previousErrorCount ← reads (·.breaker.errorCount.getD 0)
  let previousLastObservation ← reads (·.breaker.lastObservation.getD 0)
  update fun w => { w with breaker.errorCount := some 0, breaker.lastObservation := some 0 }
  let resetter ← adminOrSelf
  publish (.monReset resetter previousErrorCount previousLastObservation)

@[simp] theorem BreakerStore.getState_setState (s : BreakerStore) (now : Nat)
    (state : CircuitBreakerState) : (s.setState now state).getState = state := by
  cases state <;> rfl

/-! ## §3. The guard, case by case. -/

/-- When an open breaker may half-open again: `opened_at + COOLDOWN_SECONDS`. -/
def BreakerStore.reopenAt (s : BreakerStore) : Nat := s.openedAt.getD 0 + cooldownSeconds

/-- The guarded operations spent since the breaker half-opened. -/
def BreakerStore.probesUsed (s : BreakerStore) : Nat := s.halfOpenOps.getD 0

/-- `require_closed` lets a call through at time `now`. -/
def BreakerStore.Passes (s : BreakerStore) (now : Nat) : Prop :=
  match s.getState with
  | .closed => True
  | .opened => s.reopenAt < 2 ^ 64 ∧ s.reopenAt ≤ now
  | .halfOpen => s.probesUsed < halfOpenMaxOps
  | .paused => False

/-- The two ways of `maybe_recover`, and its trap. -/
inductive Recovered (w : World) : Except Abort Unit → World → Prop
  | stays (h : w.breaker.getState = .opened →
      w.breaker.reopenAt < 2 ^ 64 ∧ w.timestamp < w.breaker.reopenAt) : Recovered w (.ok ()) w
  | overflows (state : w.breaker.getState = .opened) (sum : 2 ^ 64 ≤ w.breaker.reopenAt) :
      Recovered w (.error .trap) w
  | halfOpens (state : w.breaker.getState = .opened) (sum : w.breaker.reopenAt < 2 ^ 64)
      (cooled : w.breaker.reopenAt ≤ w.timestamp) :
      Recovered w (.ok ()) { w with
        breaker := w.breaker.setState w.timestamp .halfOpen
        events := w.events ++ [.cbState currentContractAddress .halfOpen] }

theorem BreakerStore.reopenAt_fits {s : BreakerStore} (h : s.reopenAt < 2 ^ 64) :
    addU64 (s.openedAt.getD 0) cooldownSeconds = some s.reopenAt := by
  unfold BreakerStore.reopenAt at h ⊢
  exact addU64_eq_some.mpr ⟨h, rfl⟩

theorem BreakerStore.reopenAt_overflows {s : BreakerStore} (h : 2 ^ 64 ≤ s.reopenAt) :
    addU64 (s.openedAt.getD 0) cooldownSeconds = none := by
  unfold BreakerStore.reopenAt at h
  exact addU64_eq_none.mpr h

theorem maybeRecover_of_opened (env : Env) {w : World} (hs : w.breaker.getState = .opened) :
    maybeRecover env w = (orTrap (addU64 (w.breaker.openedAt.getD 0) cooldownSeconds)
      >>= fun reopenAt => reads (·.timestamp)
      >>= fun now => whenever (reopenAt ≤ now) (setStateInternal .halfOpen)) env w := by
  unfold maybeRecover getState
  rw [reads_bind, whenever_of_pos hs, reads_bind]

theorem maybeRecover_of_not_opened (env : Env) {w : World} (hs : w.breaker.getState ≠ .opened) :
    maybeRecover env w = (.ok (), w) := by
  unfold maybeRecover getState
  rw [reads_bind, whenever_of_neg hs]
  rfl

theorem maybeRecover_recovered (env : Env) (w : World) :
    Recovered w (maybeRecover env w).1 (maybeRecover env w).2 := by
  by_cases hs : w.breaker.getState = .opened
  · rw [maybeRecover_of_opened env hs]
    by_cases hsum : w.breaker.reopenAt < 2 ^ 64
    · -- the sum fits: what is left is to compare it with the clock
      rw [BreakerStore.reopenAt_fits hsum, bind_of_ok (orTrap_ok.mpr ⟨rfl, rfl⟩), reads_bind]
      by_cases hnow : w.breaker.reopenAt ≤ w.timestamp
      · rw [whenever_of_pos hnow]
        exact .halfOpens hs hsum hnow
      · rw [whenever_of_neg hnow]
        exact .stays fun _ => ⟨hsum, not_le.mp hnow⟩
    · have hover : 2 ^ 64 ≤ w.breaker.reopenAt := not_lt.mp hsum
      rw [BreakerStore.reopenAt_overflows hover]
      exact .overflows hs hover
  · rw [maybeRecover_of_not_opened env hs]
    exact .stays fun hs' => absurd hs' hs

/-- The ways through `require_closed`, with what each returns and writes. -/
inductive Guarded (w : World) : Except Abort Unit → World → Prop
  | closed (state : w.breaker.getState = .closed) : Guarded w (.ok ()) w
  | paused (state : w.breaker.getState = .paused) : Guarded w (.error (.error .contractPaused)) w
  | overflows (state : w.breaker.getState = .opened) (sum : 2 ^ 64 ≤ w.breaker.reopenAt) :
      Guarded w (.error .trap) w
  | cooling (state : w.breaker.getState = .opened) (sum : w.breaker.reopenAt < 2 ^ 64)
      (early : w.timestamp < w.breaker.reopenAt) :
      Guarded w (.error (.error .contractPaused)) w
  | recovers (state : w.breaker.getState = .opened) (sum : w.breaker.reopenAt < 2 ^ 64)
      (cooled : w.breaker.reopenAt ≤ w.timestamp) :
      Guarded w (.ok ()) { w with
        breaker := { w.breaker with
          circuitBreakerState := some .halfOpen, halfOpenOps := some 1 }
        events := w.events ++ [.cbState currentContractAddress .halfOpen] }
  | probes (state : w.breaker.getState = .halfOpen) (left : w.breaker.probesUsed < halfOpenMaxOps) :
      Guarded w (.ok ()) { w with breaker.halfOpenOps := some (w.breaker.probesUsed + 1) }
  | retrips (state : w.breaker.getState = .halfOpen)
      (used : halfOpenMaxOps ≤ w.breaker.probesUsed) :
      Guarded w (.error (.error .contractPaused)) { w with
        breaker := w.breaker.setState w.timestamp .opened
        events := w.events ++ [.cbState currentContractAddress .opened] }

/-- The HalfOpen branch of `require_closed`. -/
def probe : Body Unit := do
  let ops ← reads (·.breaker.halfOpenOps.getD 0)
  if halfOpenMaxOps ≤ ops then do
    setStateInternal .opened
    abort (.error .contractPaused)
  else
    update fun w => { w with breaker.halfOpenOps := some (ops + 1) }

/-- The part of `require_closed` after the recovery. -/
def admitByState : CircuitBreakerState → Body Unit
  | .opened => abort (.error .contractPaused)
  | .paused => abort (.error .contractPaused)
  | .closed => pure ()
  | .halfOpen => probe

theorem requireClosed_eq : requireClosed = maybeRecover >>= fun _ => getState >>= admitByState := by
  unfold requireClosed
  congr

theorem probe_eq (env : Env) (w : World) : probe env w =
    if halfOpenMaxOps ≤ w.breaker.probesUsed then
      (.error (.error .contractPaused), { w with
        breaker := w.breaker.setState w.timestamp .opened
        events := w.events ++ [.cbState currentContractAddress .opened] })
    else (.ok (), { w with breaker.halfOpenOps := some (w.breaker.probesUsed + 1) }) := by
  unfold probe
  rw [reads_bind]
  show (if halfOpenMaxOps ≤ w.breaker.probesUsed then _ else _ : Body Unit) env w = _
  by_cases hops : halfOpenMaxOps ≤ w.breaker.probesUsed
  · rw [if_pos hops, if_pos hops]
    rfl
  · rw [if_neg hops, if_neg hops]
    rfl

theorem requireClosed_guarded (env : Env) (w : World) :
    Guarded w (requireClosed env w).1 (requireClosed env w).2 := by
  have hrec := maybeRecover_recovered env w
  rw [requireClosed_eq]
  generalize hx : maybeRecover env w = x at hrec
  obtain ⟨res, v⟩ := x
  cases hrec with
  | overflows state sum =>
      rw [bind_of_error hx]
      exact .overflows state sum
  | halfOpens state sum cooled =>
      -- a breaker that just half-opened has its first probe taken
      rw [bind_of_ok hx]
      exact .recovers state sum cooled
  | stays h =>
      rw [bind_of_ok hx]
      show Guarded v (admitByState v.breaker.getState env v).1
        (admitByState v.breaker.getState env v).2
      cases hs : v.breaker.getState with
      | closed => exact .closed hs
      | paused => exact .paused hs
      | opened => exact .cooling hs (h hs).1 (h hs).2
      | halfOpen =>
          show Guarded v (probe env v).1 (probe env v).2
          rw [probe_eq]
          split
          · exact .retrips hs (by assumption)
          · exact .probes hs (not_le.mp (by assumption))

/-- A guard that passes publishes no market's event. -/
theorem Guarded.publishes {w v : World} {u : Unit} (h : Guarded w (.ok u) v) :
    Publishes w [] v := by
  cases h with
  | closed state => exact .of_eq rfl
  | recovers state sum cooled => exact .of_aside rfl rfl
  | probes state left => exact .of_eq rfl

theorem Guarded.passes {w v : World} {u : Unit} (h : Guarded w (.ok u) v) :
    w.breaker.Passes w.timestamp := by
  unfold BreakerStore.Passes
  cases h with
  | closed state => rw [state]; trivial
  | recovers state sum cooled => rw [state]; exact ⟨sum, cooled⟩
  | probes state left => rw [state]; exact left

theorem Guarded.refuses {w v : World} {e : Abort} (h : Guarded w (.error e) v) :
    ¬w.breaker.Passes w.timestamp := by
  unfold BreakerStore.Passes
  cases h with
  | paused state => rw [state]; exact id
  | overflows state sum => rw [state]; exact fun h => absurd h.1 (not_lt.mpr sum)
  | cooling state sum early => rw [state]; exact fun h => absurd h.2 (not_le.mpr early)
  | retrips state used => rw [state]; exact not_lt.mpr used

/-- `require_closed` returns `Ok` exactly when the breaker passes the call. -/
theorem requireClosed_passes_iff {env : Env} {w : World} :
    (∃ v, requireClosed env w = (.ok (), v)) ↔ w.breaker.Passes w.timestamp := by
  have hg := requireClosed_guarded env w
  rcases hx : requireClosed env w with ⟨e | _, v⟩ <;> rw [hx] at hg
  · constructor
    · intro h
      obtain ⟨v', hv⟩ := h
      cases hv
    · exact fun h => absurd h hg.refuses
  · exact ⟨fun _ => hg.passes, fun _ => ⟨v, rfl⟩⟩

/-- The errors counted since the last reset. -/
def BreakerStore.errors (s : BreakerStore) : Nat := s.errorCount.getD 0

/-- One more error opens the breaker. -/
def BreakerStore.Trips (s : BreakerStore) : Prop := 10 < s.errors + 1 ∧ s.errors + 1 < 2 ^ 32

instance (s : BreakerStore) : Decidable s.Trips := inferInstanceAs (Decidable (_ ∧ _))

/-- The breaker with one more error noted at time `now`. -/
def BreakerStore.noteError (s : BreakerStore) (now : Nat) : BreakerStore :=
  { s with errorCount := some (s.errors + 1), lastObservation := some now }

/-- The ways of `track_error`. -/
inductive Tracked (w : World) : Except Abort Unit → World → Prop
  | overflows (sum : 2 ^ 32 ≤ w.breaker.errors + 1) : Tracked w (.error .trap) w
  | counted (few : w.breaker.errors + 1 ≤ 10) :
      Tracked w (.ok ()) { w with breaker := w.breaker.noteError w.timestamp }
  | opened (trips : w.breaker.Trips) :
      Tracked w (.ok ()) { w with
        breaker := { w.breaker.noteError w.timestamp with circuitBreakerState := some .opened }
        events := w.events ++ [.cbAuto (w.breaker.errors + 1)] }

theorem trackError_tracked (env : Env) (w : World) :
    Tracked w (trackError env w).1 (trackError env w).2 := by
  have hread : trackError env w = (orTrap (addU32 w.breaker.errors 1) >>= fun count => do
      update fun w => { w with breaker.errorCount := some count }
      update fun w => { w with breaker.lastObservation := some w.timestamp }
      whenever (10 < count) do
        update fun w => { w with breaker.circuitBreakerState := some .opened }
        publish (.cbAuto count)) env w := rfl
  rw [hread]
  by_cases hsum : w.breaker.errors + 1 < 2 ^ 32
  · have hadd : orTrap (addU32 w.breaker.errors 1) env w = (.ok (w.breaker.errors + 1), w) :=
      orTrap_ok.mpr ⟨addU32_eq_some.mpr ⟨hsum, rfl⟩, rfl⟩
    rw [bind_of_ok hadd, update_bind, update_bind]
    by_cases hmany : 10 < w.breaker.errors + 1
    · rw [whenever_of_pos hmany]
      exact .opened ⟨hmany, hsum⟩
    · rw [whenever_of_neg hmany]
      exact .counted (not_lt.mp hmany)
  · have hadd : orTrap (addU32 w.breaker.errors 1) env w = (.error .trap, w) := by
      rw [addU32_eq_none.mpr (not_lt.mp hsum)]
      rfl
    rw [bind_of_error hadd]
    exact .overflows (not_lt.mp hsum)

/-! ## §4. What each leaves behind.

    None of these functions writes outside the breaker's own storage and the
    event log. -/

/-- Two worlds that differ at most in the breaker's storage and the events. -/
def SameButBreaker (w w' : World) : Prop :=
  ∃ b evs, w' = { w with breaker := b, events := evs }

theorem SameButBreaker.refl (w : World) : SameButBreaker w w := ⟨w.breaker, w.events, rfl⟩

section Rules

variable {env : Env} {w w' : World} {u : Unit}

@[simp] theorem getState_ok {state : CircuitBreakerState} :
    getState env w = (.ok state, w') ↔ w.breaker.getState = state ∧ w = w' := reads_eq_ok

@[simp] theorem setStateInternal_ok {state : CircuitBreakerState} :
    setStateInternal state env w = (.ok u, w') ↔
      w' = { w with breaker := w.breaker.setState w.timestamp state
                    events := w.events ++ [.cbState currentContractAddress state] } := by
  simp [setStateInternal]

theorem setState_ok {state : CircuitBreakerState} :
    setState state env w = (.ok u, w') ↔
      ByAdmin env w ∧ w' = { w with
        breaker := w.breaker.setState w.timestamp state
        events := w.events ++ [.cbState currentContractAddress state] } := by
  simp [setState, and_assoc]

theorem requireClosed_ok (h : requireClosed env w = (.ok u, w')) : Guarded w (.ok u) w' := by
  have hg := requireClosed_guarded env w
  rwa [h] at hg

theorem Guarded.frame {v : World} (h : Guarded w (.ok u) v) : SameButBreaker w v := by
  cases h with
  | closed => exact .refl _
  | recovers => exact ⟨_, _, rfl⟩
  | probes => exact ⟨_, _, rfl⟩

/-- The call carries the guardian account's authorisation, or the admin's
where no account is set. -/
def ByGuardianOrAdmin (env : Env) (w : World) : Prop :=
  match w.admin.guardianAccount with
  | some guardian => env.authorized guardian = true
  | none => ByAdmin env w

@[simp] theorem requireGuardianOrAdmin_ok :
    requireGuardianOrAdmin env w = (.ok u, w') ↔ ByGuardianOrAdmin env w ∧ w = w' := by
  simp only [requireGuardianOrAdmin, getGuardian, bind_eq_ok, reads_eq_ok, and_assoc,
    exists_and_left, exists_eq_left', ByGuardianOrAdmin]
  cases w.admin.guardianAccount with
  | some g => exact requireAuth_ok
  | none => exact requireAdmin_ok

theorem requireGuardianOrAdmin_state (env : Env) (w : World) :
    (requireGuardianOrAdmin env w).2 = w := by
  unfold requireGuardianOrAdmin getGuardian
  rw [reads_bind]
  cases w.admin.guardianAccount with
  | none => exact requireAdmin_state env w
  | some g => exact requireAuth_state g env w

theorem pause_ok : pause env w = (.ok u, w') ↔
    ByGuardianOrAdmin env w ∧ w' = { w with
      breaker := w.breaker.setState w.timestamp .paused
      events := w.events ++ [.cbState currentContractAddress .paused] } := by
  simp [pause, and_assoc]

theorem unpause_ok : unpause env w = (.ok u, w') ↔
    ByGuardianOrAdmin env w ∧ w' = { w with
      breaker := w.breaker.setState w.timestamp .closed
      events := w.events ++ [.cbState currentContractAddress .closed] } := by
  simp [unpause, and_assoc]

@[simp] theorem requireNotPausedForHighRisk_ok :
    requireNotPausedForHighRisk env w = (.ok u, w')
      ↔ w.breaker.getState ≠ .paused ∧ w = w' := by
  simp [requireNotPausedForHighRisk, and_comm]

theorem requireNotPausedForHighRisk_of_paused (hs : w.breaker.getState = .paused) :
    requireNotPausedForHighRisk env w = (.error (.error .contractPaused), w) := by
  unfold requireNotPausedForHighRisk getState
  rw [reads_bind, failIf_of_pos hs]

theorem setThreshold_ok {threshold : Int} :
    setThreshold threshold env w = (.ok u, w') ↔
      ByAdmin env w ∧ 0 < threshold ∧ w' = { w with
        breaker.circuitBreakerThreshold := some threshold
        events := w.events ++ [.cbThrSet
          (w.breaker.circuitBreakerThreshold.getD defaultCircuitBreakerThreshold) threshold] } := by
  simp [setThreshold, and_assoc]

theorem resetMonitoring_ok : resetMonitoring env w = (.ok u, w') ↔ w' = { w with
    breaker.errorCount := some 0
    breaker.lastObservation := some 0
    events := w.events ++ [.monReset (w.admin.admin.getD currentContractAddress)
      (w.breaker.errorCount.getD 0) (w.breaker.lastObservation.getD 0)] } := by
  simp only [resetMonitoring, bind_eq_ok, reads_eq_ok, update_eq_ok, adminOrSelf_ok,
    publish_ok, and_assoc, exists_and_left, exists_eq_left', exists_eq_left, exists_const]

end Rules

end PredictIQ.Contract
