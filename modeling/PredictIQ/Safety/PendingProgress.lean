/-
  PredictIQ.Safety.PendingProgress: is there always a way out of
  PendingResolution?

  `file_dispute` and the undisputed branch of `finalize_resolution` compare
  the clock with the same sum, the one with `<`, the other with `≥`.  The sum
  is a checked `u64` addition of a window nobody bounds from above, and a
  dispute adds the window to the resolution deadline as well.  Where a sum
  does not fit, both ways or the only open one trap.
-/
import PredictIQ.Safety.ResolutionWindows

namespace PredictIQ.Contract

open Foundation Tx

variable {X : Externs}

/-! ## §1. The property. -/

/-- The call would return `Ok`. -/
def Accepted (X : Externs) (env : Env) (c : Call) (w : World) : Prop := ∃ w', Succeeds X env c w w'

/-- The call would trap. -/
def Traps (X : Externs) (env : Env) (c : Call) (w : World) : Prop :=
  ∃ w', exec X c env w = (.error .trap, w')

/-- Exactly one of dispute and finalisation of market `k` is accepted, and
neither traps. -/
structure OneWayOut (X : Externs) (env : Env) (disciplinarian : Address) (k : Nat) (w : World) :
    Prop where
  one : Accepted X env (.fileDispute disciplinarian k) w
    ↔ ¬Accepted X env (.finalizeResolution k) w
  dispute : ¬Traps X env (.fileDispute disciplinarian k) w
  finalize : ¬Traps X env (.finalizeResolution k) w

/-- The end of the window of `m`, pending since `t`, fits `u64`; so does, as
long as the window is open, the deadline a dispute would set. -/
def WindowFits (w : World) (k : Nat) (m : Market) (t : Nat) : Prop :=
  t + disputeWindowOf w k < 2 ^ 64
    ∧ (t + disputeWindowOf w k ≤ w.timestamp
      ∨ m.resolutionDeadline + disputeWindowOf w k < 2 ^ 64)

/-! ## §2. What pending records hold. -/

/-- A pending market has its time and its answer on record. -/
def PendingAnswered (w : World) : Prop :=
  ∀ k m, w.markets.market.lookup k = some m → m.status = .pendingResolution →
    ∃ t outcome, m.pendingResolutionTimestamp = some t ∧ m.winningOutcome = some outcome

theorem Effect.pendingAnswered {env : Env} {w w' : World} {c : Call} (hreg : Registered w)
    (hI : PendingAnswered w) (h : Effect X env w c w') : PendingAnswered w' := by
  intro k m' hm' hs'
  have hchange := h.marketChange hreg k
  rw [hm'] at hchange
  generalize hpre : w.markets.market.lookup k = o at hchange
  cases hchange with
  | same => exact hI k m' hpre hs'
  | created => cases hs'
  | bet b m fee counts => exact hI k m hpre hs'
  | released token m => exact hI k m hpre hs'
  | moved _ _ m _ hc move =>
      -- the oracle's answer is the only way to become pending
      cases move with
      | answer outcome => exact ⟨w.timestamp, outcome, rfl, rfl⟩
      | confirm => cases hs'
      | decide => cases hs'
      | dispute => cases hs'
      | resolve => cases hs'
      | cancel => cases hs'
      | voteDown => cases hs'

theorem Reachable.pendingAnswered {w : World} (h : Reachable X w) : PendingAnswered w := by
  obtain ⟨b, t, s, as, rfl⟩ := h
  refine registered_run_invariant (X := X) PendingAnswered (fun _ => True) (.genesis b t s) ?_ ?_
    (fun _ _ _ h => h) (fun _ _ h => h) as fun _ _ => trivial
  · intro k m hm
    cases hm
  · intro v env c v' hreg hI _ hsucc
    exact hsucc.effect.pendingAnswered hreg hI

/-! ## §3. How the two functions end. -/

section Results

variable {env : Env} {w : World} {k : Nat} {m : Market} {t : Nat}

/-- An addition traps past 64 bits. -/
theorem orTrap_addU64_bind {α : Type} {x y : Nat} (next : Nat → Body α) :
    ((orTrap (addU64 x y) >>= next) env w).1
      = if 2 ^ 64 ≤ x + y then .error .trap else (next (x + y) env w).1 := by
  by_cases hend : 2 ^ 64 ≤ x + y
  · rw [if_pos hend, addU64_eq_none.mpr hend]
    rfl
  · rw [if_neg hend, bind_of_ok (orTrap_ok.mpr ⟨addU64_eq_some.mpr ⟨by omega, rfl⟩, rfl⟩)]

theorem failIf_bind {α : Type} {c : Prop} [Decidable c] {code : ErrorCode} (next : Unit → Body α) :
    ((failIf c code >>= next) env w).1 = if c then .error (.error code) else (next () env w).1 := by
  by_cases hc : c
  · rw [if_pos hc, bind_of_error (failIf_of_pos hc)]
  · rw [if_neg hc, bind_of_ok (failIf_of_neg hc)]

/-- `file_dispute` of a pending market by somebody who signs. -/
theorem fileDispute_result {disciplinarian : Address} (hauth : env.authorized disciplinarian = true)
    (hm : w.markets.market.lookup k = some m) (hs : m.status = .pendingResolution)
    (ht : m.pendingResolutionTimestamp = some t) :
    (fileDispute disciplinarian k env w).1 =
      if 2 ^ 64 ≤ t + disputeWindowOf w k then .error .trap
      else if t + disputeWindowOf w k ≤ w.timestamp then .error (.error .disputeWindowClosed)
      else if 2 ^ 64 ≤ m.resolutionDeadline + disputeWindowOf w k then .error .trap
      else .ok () := by
  unfold fileDispute
  rw [bind_of_ok (requireAuth_of_authorized hauth), bind_of_ok (loadMarket_ok.mpr ⟨hm, rfl⟩),
    bind_of_ok (failIf_of_neg (not_not.mpr hs)), bind_of_ok (orErr_ok.mpr ⟨ht, rfl⟩),
    bind_of_ok (getMarketDisputeWindow_ok.mpr ⟨rfl, rfl⟩)]
  change ((orTrap (addU64 t (disputeWindowOf w k)) >>= _) env w).1 = _
  rw [orTrap_addU64_bind]
  refine if_congr Iff.rfl rfl ?_
  rw [reads_bind, failIf_bind]
  refine if_congr Iff.rfl rfl ?_
  change ((orTrap (addU64 m.resolutionDeadline (disputeWindowOf w k)) >>= _) env w).1 = _
  rw [orTrap_addU64_bind]
  rfl

/-- `finalize_resolution` of a pending market with an answer. -/
theorem finalizeResolution_result {outcome : Nat} (hm : w.markets.market.lookup k = some m)
    (hs : m.status = .pendingResolution) (ht : m.pendingResolutionTimestamp = some t)
    (ho : m.winningOutcome = some outcome) :
    (finalizeResolution X k env w).1 =
      if 2 ^ 64 ≤ t + disputeWindowOf w k then .error .trap
      else if w.timestamp < t + disputeWindowOf w k then .error (.error .disputeWindowStillOpen)
      else .ok () := by
  unfold finalizeResolution
  rw [bind_of_ok (loadMarket_ok.mpr ⟨hm, rfl⟩)]
  simp only [hs]
  unfold finalizeUndisputed
  rw [bind_of_ok (orErr_ok.mpr ⟨ht, rfl⟩), bind_of_ok (getMarketDisputeWindow_ok.mpr ⟨rfl, rfl⟩)]
  change ((orTrap (addU64 t (disputeWindowOf w k)) >>= _) env w).1 = _
  rw [orTrap_addU64_bind]
  refine if_congr Iff.rfl rfl ?_
  rw [reads_bind, failIf_bind]
  refine if_congr Iff.rfl rfl ?_
  rw [bind_of_ok (orErr_ok.mpr ⟨ho, rfl⟩)]
  rfl

end Results

/-! ## §4. The two entrypoints. -/

theorem accepted_iff {env : Env} {c : Call} {w : World} :
    Accepted X env c w ↔ ∃ r, (exec X c env w).1 = .ok r := by
  constructor
  · intro h
    obtain ⟨w', r, hr⟩ := h
    exact ⟨r, congrArg Prod.fst hr⟩
  · intro h
    obtain ⟨r, hr⟩ := h
    exact ⟨(exec X c env w).2, r, Prod.ext hr rfl⟩

theorem traps_iff {env : Env} {c : Call} {w : World} :
    Traps X env c w ↔ (exec X c env w).1 = .error .trap := by
  constructor
  · intro h
    obtain ⟨w', hw'⟩ := h
    exact congrArg Prod.fst hw'
  · intro h
    exact ⟨(exec X c env w).2, Prod.ext h rfl⟩

/-- An entrypoint that returns nothing ends as its body does. -/
theorem done_result {x : Body Unit} {env : Env} {w : World} {o : Except Abort Unit}
    (h : (x env w).1 = o) : (done x env w).1 = o.map fun _ => Ret.unit := by
  subst h
  rcases hx : x env w with ⟨e | _, v⟩
  · rw [done_eq_error.mpr hx]
    rfl
  · rw [done_eq_ok.mpr ⟨hx, rfl⟩]
    rfl

theorem requireClosed_of_closed {env : Env} {w : World} (h : w.breaker.getState = .closed) :
    requireClosed env w = (.ok (), w) := by
  have hg := requireClosed_guarded env w
  generalize requireClosed env w = x at hg
  obtain ⟨o, v⟩ := x
  cases hg with
  | closed => rfl
  | paused state => rw [h] at state; cases state
  | overflows state => rw [h] at state; cases state
  | cooling state => rw [h] at state; cases state
  | recovers state => rw [h] at state; cases state
  | probes state => rw [h] at state; cases state
  | retrips state => rw [h] at state; cases state

/-- One record in PendingResolution: one way out exactly where the sums fit. -/
theorem oneWayOut_iff {env : Env} {disciplinarian : Address} {w : World} {k : Nat} {m : Market}
    {t outcome : Nat} (hclosed : w.breaker.getState = .closed)
    (hauth : env.authorized disciplinarian = true) (hm : w.markets.market.lookup k = some m)
    (hs : m.status = .pendingResolution) (ht : m.pendingResolutionTimestamp = some t)
    (ho : m.winningOutcome = some outcome) :
    OneWayOut X env disciplinarian k w ↔ WindowFits w k m t := by
  have hguard : (requireClosed >>= fun _ => fileDispute disciplinarian k) env w
      = fileDispute disciplinarian k env w := bind_of_ok (requireClosed_of_closed hclosed)
  have hdispute := done_result (x := requireClosed >>= fun _ => fileDispute disciplinarian k)
    ((congrArg Prod.fst hguard).trans (fileDispute_result hauth hm hs ht))
  have hfinal : (exec X (.finalizeResolution k) env w).1 = _ :=
    done_result (finalizeResolution_result hm hs ht ho)
  change (exec X (.fileDispute disciplinarian k) env w).1 = _ at hdispute
  have hiff : OneWayOut X env disciplinarian k w ↔
      ((∃ r, (exec X (.fileDispute disciplinarian k) env w).1 = .ok r)
        ↔ ¬∃ r, (exec X (.finalizeResolution k) env w).1 = .ok r)
      ∧ (exec X (.fileDispute disciplinarian k) env w).1 ≠ .error .trap
      ∧ (exec X (.finalizeResolution k) env w).1 ≠ .error .trap := by
    rw [← accepted_iff, ← accepted_iff, ne_eq, ne_eq, ← traps_iff, ← traps_iff]
    exact ⟨fun h => ⟨h.one, h.dispute, h.finalize⟩, fun h => ⟨h.1, h.2.1, h.2.2⟩⟩
  rw [hiff, hdispute, hfinal]
  unfold WindowFits
  by_cases hend : 2 ^ 64 ≤ t + disputeWindowOf w k
  · -- both compute the end of the window first
    simp only [if_pos hend, Except.map]
    constructor
    · intro h
      exact absurd rfl h.2.1
    · intro h
      omega
  · by_cases hnow : t + disputeWindowOf w k ≤ w.timestamp
    · -- after the window: no dispute, and finalisation goes through
      simp only [if_neg hend, if_pos hnow, if_neg (not_lt.mpr hnow), Except.map]
      exact ⟨fun _ => ⟨by omega, Or.inl hnow⟩, fun _ => by simp⟩
    · by_cases hdeadline : 2 ^ 64 ≤ m.resolutionDeadline + disputeWindowOf w k
      · simp only [if_neg hend, if_neg hnow, if_pos hdeadline, if_pos (not_le.mp hnow), Except.map]
        constructor
        · intro h
          exact absurd rfl h.2.1
        · intro h
          omega
      · -- in the window: a dispute goes through, and finalisation has to wait
        simp only [if_neg hend, if_neg hnow, if_neg hdeadline, if_pos (not_le.mp hnow), Except.map]
        exact ⟨fun _ => ⟨by omega, Or.inr (by omega)⟩, fun _ => by simp⟩

/-! ## §5. A way out. -/

/-- **A pending market is never stuck** exactly as long as its sums fit `u64`. -/
theorem one_way_out_iff (X : Externs) (w : World) (hw : Reachable X w) (env : Env)
    (disciplinarian : Address) (k : Nat) (m : Market) (hclosed : w.breaker.getState = .closed)
    (hauth : env.authorized disciplinarian = true) (hm : w.markets.market.lookup k = some m)
    (hs : m.status = .pendingResolution) :
    ∃ t, m.pendingResolutionTimestamp = some t
      ∧ (OneWayOut X env disciplinarian k w ↔ WindowFits w k m t) := by
  obtain ⟨t, outcome, ht, ho⟩ := hw.pendingAnswered k m hm hs
  exact ⟨t, ht, oneWayOut_iff hclosed hauth hm hs ht ho⟩

/-- The status, the times and the window of market 1. -/
def pendingView (w : World) : Option (MarketStatus × Option Nat × Nat × Nat) :=
  (w.markets.market.lookup 1).map fun m =>
    (m.status, m.pendingResolutionTimestamp, m.resolutionDeadline, disputeWindowOf w 1)

/-- The sample market, just answered, with the default window. -/
theorem one_way_out_sample :
    OneWayOut sampleExterns everybody ⟨5⟩ 1 (sampleRun sampleAnswered) := by
  have hview : pendingView (sampleRun sampleAnswered)
      = some (.pendingResolution, some 200000, 200000, 259200) := by decide +kernel
  obtain ⟨m, hm, hfields⟩ := Option.map_eq_some_iff.mp hview
  simp only [Prod.mk.injEq] at hfields
  obtain ⟨hs, hpending, hdeadline, hwindow⟩ := hfields
  obtain ⟨t, ht, hiff⟩ := one_way_out_iff sampleExterns (sampleRun sampleAnswered)
    (sampleRun_reachable sampleAnswered) everybody ⟨5⟩ 1 m (by decide +kernel) (by decide) hm hs
  obtain rfl : t = 200000 := Option.some.inj (ht.symm.trans hpending)
  refine hiff.mpr ?_
  unfold WindowFits
  rw [hdeadline, hwindow]
  exact ⟨by decide, Or.inr (by decide)⟩

/-- The widest bounds there are, and a market with the widest window. -/
def widestWindow : List Action :=
  [.call everybody (.initializeContract ⟨1⟩ 0),
    .call everybody (.setDisputeWindowBounds 1 (2 ^ 64 - 1)),
    .call everybody (.createMarketWithDisputeWindow (sampleMarket ⟨2⟩ ⟨10⟩) (some (2 ^ 64 - 1))),
    .advance 200000 0,
    .call everybody (.setOracleResult 1 0 0),
    .call everybody (.attemptOracleResolution 1)]

/-- The market with the widest window is stuck. -/
theorem widest_window_stuck :
    ¬∀ w, Reachable sampleExterns w → ∀ (env : Env) (disciplinarian : Address) (k : Nat)
      (m : Market), w.breaker.getState = .closed → env.authorized disciplinarian = true →
      w.markets.market.lookup k = some m → m.status = .pendingResolution →
      OneWayOut sampleExterns env disciplinarian k w := by
  intro h
  have hview : pendingView (sampleRun widestWindow)
      = some (.pendingResolution, some 200000, 200000, 2 ^ 64 - 1) := by decide +kernel
  obtain ⟨m, hm, hfields⟩ := Option.map_eq_some_iff.mp hview
  simp only [Prod.mk.injEq] at hfields
  obtain ⟨hs, ht, _, hwindow⟩ := hfields
  have hstuck := h (sampleRun widestWindow) (sampleRun_reachable widestWindow) everybody ⟨5⟩ 1 m
    (by decide +kernel) (by decide) hm hs
  obtain ⟨_, outcome, _, ho⟩ :=
    (sampleRun_reachable widestWindow).pendingAnswered 1 m hm hs
  have hfits := (oneWayOut_iff (by decide +kernel) (by decide) hm hs ht ho).mp hstuck
  unfold WindowFits at hfits
  rw [hwindow] at hfits
  exact absurd hfits.1 (by decide)

end PredictIQ.Contract
