/-
  PredictIQ.Safety.BreakerGuards: which operations an open breaker stops.

  Two guards read the breaker.  `requireClosed` stands before `cast_vote` and
  `file_dispute`; market creation and betting look for Paused only, and go
  through while the breaker is Open.
-/
import PredictIQ.Contract.BreakerSteps

namespace PredictIQ.Contract

open Foundation Tx

variable {X : Externs}

/-! ## §1. User operations. -/

/-- The five user operations, with the account whose signature each asks for. -/
inductive UserOperation : Address → Call → Prop
  | createMarket (p : MarketParams) : UserOperation p.creator (.createMarket p)
  | createMarketWithDisputeWindow (p : MarketParams) (dw : Option Nat) :
      UserOperation p.creator (.createMarketWithDisputeWindow p dw)
  | placeBet (b : BetParams) : UserOperation b.bettor (.placeBet b)
  | castVote (voter : Address) (marketId outcome : Nat) (weight : Int) :
      UserOperation voter (.castVote voter marketId outcome weight)
  | fileDispute (disciplinarian : Address) (marketId : Nat) :
      UserOperation disciplinarian (.fileDispute disciplinarian marketId)

/-- Paused, or Open with the cool-down still running. -/
def Blocked (w : World) : Prop :=
  w.breaker.getState = .paused
    ∨ (w.breaker.getState = .opened ∧ w.timestamp < w.breaker.reopenAt)

/-- The call returns `ContractPaused` and changes nothing. -/
def StoppedByBreaker (X : Externs) (env : Env) (c : Call) (w : World) : Prop :=
  (exec X c env w).1 = .error (.error .contractPaused) ∧ step X w (.call env c) = w

theorem stoppedByBreaker_iff {env : Env} {c : Call} {w : World} :
    StoppedByBreaker X env c w ↔ ∃ v, exec X c env w = (.error (.error .contractPaused), v) := by
  constructor
  · intro h
    exact ⟨_, Prod.ext h.1 rfl⟩
  · intro h
    obtain ⟨v, hv⟩ := h
    refine ⟨by rw [hv], commit_state_of_error (e := .error .contractPaused) ?_⟩
    unfold commit
    rw [hv]

/-! ## §2. Nothing else returns `ContractPaused`.

    Past the guard, neither creation nor betting stops with the breaker's code. -/

theorem loadMarket_avoids {code : ErrorCode} (h : .marketNotFound ≠ code) (id : Nat) :
    Avoids (.error code) (loadMarket id) :=
  .bind (.reads _) fun _ => orErr_avoids h

theorem validateParentMarket_avoids (id idx : Nat) :
    Avoids (.error .contractPaused) (validateParentMarket id idx) := by
  unfold validateParentMarket
  refine .bind (loadMarket_avoids (by decide) id) fun m => ?_
  refine .bind (failIf_avoids (by decide)) fun _ => ?_
  refine .bind (orErr_avoids (by decide)) fun o => ?_
  refine .bind (failIf_avoids (by decide)) fun _ => ?_
  exact failIf_avoids (by decide)

theorem checkNewMarket_avoids (p : MarketParams) :
    Avoids (.error .contractPaused) (checkNewMarket p) := by
  unfold checkNewMarket
  refine .bind (.reads _) fun now => ?_
  refine .bind (failIf_avoids (by decide)) fun _ => ?_
  refine .bind (failIf_avoids (by decide)) fun _ => ?_
  refine .bind (failIf_avoids (by decide)) fun _ => ?_
  refine .bind (failIf_avoids (by decide)) fun _ => .whenever ?_
  refine .bind (validateParentMarket_avoids p.parentId p.parentOutcomeIdx) fun _ => ?_
  refine .bind (loadMarket_avoids (by decide) p.parentId) fun parent => ?_
  exact failIf_avoids (by decide)

theorem checkCreator_avoids (p : MarketParams) :
    Avoids (.error .contractPaused) (checkCreator p) := by
  unfold checkCreator
  refine .bind (.reads _) fun reputation => ?_
  refine .bind (failIf_avoids (by decide)) fun _ => ?_
  refine .bind (.reads _) fun deposit => .bind (.reads _) fun fee => ?_
  refine .bind (.reads _) fun balance => .bind (orTrap_avoids _) fun total => ?_
  refine .bind (failIf_avoids (by decide)) fun _ => ?_
  exact .pure _

theorem storeMarket_avoids (p : MarketParams) (deposit : Int) (dw : Option Nat) :
    Avoids (.error .contractPaused) (storeMarket p deposit dw) := by
  have hwindow : Avoids (.error .contractPaused) (resolveMarketDisputeWindow dw) := by
    unfold resolveMarketDisputeWindow validateDisputeWindow
    refine .bind (.reads _) fun window => .bind (.bind (.reads _) fun bounds => ?_) fun _ => .pure _
    exact failIf_avoids (by decide)
  unfold storeMarket
  refine .bind (.reads _) fun count => .bind (orTrap_avoids _) fun id => ?_
  refine .bind hwindow fun window => .bind (.update _) fun _ => .bind (.update _) fun _ => ?_
  exact .pure _

/-- A signed call that has the high-risk guard in front, and comes to no such
abort behind it. -/
theorem signed_stops_iff {α : Type} {env : Env} {w : World} {a : Address} {x : Body α}
    (hauth : env.authorized a = true) (hx : Avoids (.error .contractPaused) x) :
    (∃ v, (requireAuth a >>= fun _ => requireNotPausedForHighRisk >>= fun _ => x) env w
        = (.error (.error .contractPaused), v))
      ↔ w.breaker.getState = .paused := by
  have hsigned : requireAuth a env w = (.ok (), w) := requireAuth_ok.mpr ⟨hauth, rfl⟩
  rw [bind_of_ok hsigned]
  by_cases hs : w.breaker.getState = .paused
  · rw [bind_of_error (requireNotPausedForHighRisk_of_paused hs)]
    exact iff_of_true ⟨w, rfl⟩ hs
  · have hguard : requireNotPausedForHighRisk env w = (.ok (), w) :=
      requireNotPausedForHighRisk_ok.mpr ⟨hs, rfl⟩
    rw [bind_of_ok hguard]
    refine iff_of_false ?_ hs
    rintro ⟨v, hv⟩
    exact hx env w v hv

theorem createMarketWithDisputeWindow_stops_iff {env : Env} {w : World} {p : MarketParams}
    (dw : Option Nat) (hauth : env.authorized p.creator = true) :
    (∃ v, createMarketWithDisputeWindow p dw env w = (.error (.error .contractPaused), v))
      ↔ w.breaker.getState = .paused := by
  refine signed_stops_iff hauth (.bind (checkNewMarket_avoids p) fun _ => ?_)
  refine .bind (checkCreator_avoids p) fun checked => ?_
  refine .bind (.whenever ?_) fun _ => .bind (.whenever ?_) fun _ => ?_
  · -- the creation fee
    refine .bind (.reads _) fun treasury => .bind (tokenTransfer_avoids _ _ _ _) fun _ => ?_
    exact .update _
  · -- the deposit
    exact tokenTransfer_avoids _ _ _ _
  · exact storeMarket_avoids p _ dw

theorem safeTransfer_avoids (token payer payee : Address) (amount : Int) :
    Avoids (.error .contractPaused) (safeTransfer token payer payee amount) := by
  have hfail : Avoids (.error .contractPaused)
      (do publish (.xferFail payer payee token amount)
          trackError
          abort (.error .transferFailed) : Body Unit) := by
    unfold trackError
    refine .bind (.update _) fun _ => .bind (.bind (.reads _) fun count => ?_) fun _ => ?_
    · refine .bind (orTrap_avoids _) fun _ => .bind (.update _) fun _ => ?_
      exact .bind (.update _) fun _ => .whenever (.bind (.update _) fun _ => .update _)
    · exact .abort (by decide)
  intro env w v h
  unfold safeTransfer at h
  split at h
  · cases h
  · exact hfail env w v h

theorem checkBet_avoids (m : Market) (b : BetParams) :
    Avoids (.error .contractPaused) (checkBet m b) := by
  unfold checkBet
  refine .bind (failIf_avoids (by decide)) fun _ => ?_
  refine .bind (.whenever (validateParentMarket_avoids _ _)) fun _ => .bind (.reads _) fun now => ?_
  refine .bind (failIf_avoids (by decide)) fun _ => ?_
  refine .bind (failIf_avoids (by decide)) fun _ => ?_
  refine .bind (failIf_avoids (by decide)) fun _ => ?_
  exact failIf_avoids (by decide)

theorem collectFee_avoids (token : Address) (fee : Int) :
    Avoids (.error .contractPaused) (collectFee token fee) := by
  unfold collectFee
  refine .bind (.reads _) fun total => .bind (orErr_avoids (by decide)) fun newTotal => ?_
  refine .bind (.update _) fun _ => .bind (.reads _) fun overall => ?_
  refine .bind (orErr_avoids (by decide)) fun newOverall => .bind (.update _) fun _ => ?_
  exact .update _

theorem creditBet_avoids (m : Market) (b : BetParams) (net fee : Int) :
    Avoids (.error .contractPaused) (creditBet m b net fee) := by
  unfold creditBet
  refine .bind (.reads _) fun existing => .bind (orErr_avoids (by decide)) fun amount => ?_
  refine .bind (orErr_avoids (by decide)) fun feePaid => ?_
  refine .bind (orErr_avoids (by decide)) fun totalStaked => ?_
  refine .bind (orErr_avoids (by decide)) fun stake => .bind (orTrap_avoids _) fun counted => ?_
  exact .bind (.update _) fun _ => .update _

theorem creditReferrer_avoids (b : BetParams) (fee : Int) :
    Avoids (.error .contractPaused) (creditReferrer b fee) := by
  unfold creditReferrer
  cases b.referrer with
  | none => exact .pure ()
  | some r =>
      refine .bind (.whenever ?_) fun _ => .update _
      unfold addReferralReward
      refine .bind (orErr_avoids (by decide)) fun reward => .bind (.reads _) fun balance => ?_
      refine .bind (orErr_avoids (by decide)) fun newBalance => .bind (.update _) fun _ => ?_
      exact .update _

theorem checkTokenNotFrozen_avoids (token user : Address) :
    Avoids (.error .contractPaused) (checkTokenNotFrozen token user) := by
  unfold checkTokenNotFrozen
  refine .bind .context fun env => ?_
  split
  · exact .bind (.update _) fun _ => .abort (by decide)
  · exact .pure ()

theorem placeBet_stops_iff {env : Env} {w : World} {b : BetParams}
    (hauth : env.authorized b.bettor = true) :
    (∃ v, placeBet b env w = (.error (.error .contractPaused), v))
      ↔ w.breaker.getState = .paused := by
  refine signed_stops_iff hauth (.bind (failIf_avoids (by decide)) fun _ => ?_)
  refine .bind (failIf_avoids (by decide)) fun _ => ?_
  refine .bind (loadMarket_avoids (by decide) _) fun m => ?_
  refine .bind (checkBet_avoids m b) fun _ => ?_
  refine .bind (checkTokenNotFrozen_avoids _ _) fun _ => ?_
  refine .bind (safeTransfer_avoids _ _ _ _) fun _ => ?_
  -- the stake is in; the fee, the records and the referral follow
  refine .bind (.bind (.reads _) fun base => orErr_avoids (by decide)) fun fee => ?_
  refine .bind (orTrap_avoids _) fun net => ?_
  refine .bind (.whenever (collectFee_avoids _ _)) fun _ => ?_
  refine .bind (creditBet_avoids m b net fee) fun _ => ?_
  exact .bind (creditReferrer_avoids b fee) fun _ => .update _

/-! ## §3. What an open breaker stops. -/

/-- The guard of the interface turns a blocked call away, with the breaker's
code unless the end of the cool-down is past the range of the clock. -/
theorem requireClosed_blocked (env : Env) {w : World} (hblocked : Blocked w) :
    (∃ v, requireClosed env w = (.error (.error .contractPaused), v))
        ↔ w.breaker.getState = .paused ∨ w.breaker.reopenAt < 2 ^ 64 := by
  have hg := requireClosed_guarded env w
  unfold Blocked at hblocked
  rcases hx : requireClosed env w with ⟨e | _, v⟩ <;> rw [hx] at hg
  · cases hg with
    | paused state => exact iff_of_true ⟨_, rfl⟩ (Or.inl state)
    | cooling state sum early => exact iff_of_true ⟨_, rfl⟩ (Or.inr sum)
    | overflows state sum =>
        refine iff_of_false ?_ ?_
        · intro h
          obtain ⟨v', hv'⟩ := h
          cases hv'
        · rw [state]
          exact not_or.mpr ⟨by decide, not_lt.mpr sum⟩
    | retrips state used =>
        rw [state] at hblocked
        simp at hblocked
  · cases hg with
    | closed state =>
        rw [state] at hblocked
        simp at hblocked
    | recovers state sum cooled =>
        rw [state] at hblocked
        simp [not_lt.mpr cooled] at hblocked
    | probes state left =>
        rw [state] at hblocked
        simp at hblocked

/-- A body behind `require_closed` stops as the guard does. -/
theorem guarded_stops_iff {env : Env} {w : World} {x : Body Unit} (hblocked : Blocked w) :
    (∃ v, done (requireClosed >>= fun _ => x) env w = (.error (.error .contractPaused), v))
      ↔ w.breaker.getState = .paused ∨ w.breaker.reopenAt < 2 ^ 64 := by
  rw [← requireClosed_blocked env hblocked]
  rcases hx : requireClosed env w with ⟨e | _, v⟩
  · have hstop : (requireClosed >>= fun _ => x) env w = (.error e, v) := bind_of_error hx
    simp only [done_eq_error, hstop]
  · -- a blocked guard does not pass
    exfalso
    have hpass := requireClosed_passes_iff.mp ⟨v, hx⟩
    unfold BreakerStore.Passes at hpass
    rcases hblocked with hs | ⟨hs, hearly⟩
    · rw [hs] at hpass
      exact hpass
    · rw [hs] at hpass
      exact absurd hpass.2 (not_le.mpr hearly)

/-- **What a blocked breaker stops.**  While the breaker is Paused, or Open in
its cool-down, an authorised user operation is turned away exactly where the
breaker is Paused, or the operation is one of the two behind `require_closed`. -/
theorem open_breaker_stops_iff {w : World} {env : Env} {caller : Address} {c : Call}
    (hblocked : Blocked w) (hop : UserOperation caller c) (hauth : env.authorized caller = true) :
    StoppedByBreaker X env c w ↔ w.breaker.getState = .paused
      ∨ (GuardedCall c ∧ w.breaker.reopenAt < 2 ^ 64) := by
  rw [stoppedByBreaker_iff]
  have hunguarded : ∀ c' : Call, ¬GuardedCall c' → ((w.breaker.getState = .paused
      ∨ (GuardedCall c' ∧ w.breaker.reopenAt < 2 ^ 64)) ↔ w.breaker.getState = .paused) := by
    intro c' hc'
    simp [hc']
  cases hop with
  | createMarket p =>
      rw [hunguarded (.createMarket p) nofun,
        ← createMarketWithDisputeWindow_stops_iff none hauth]
      exact exists_congr fun v => returning_eq_error
  | createMarketWithDisputeWindow p dw =>
      rw [hunguarded (.createMarketWithDisputeWindow p dw) nofun,
        ← createMarketWithDisputeWindow_stops_iff dw hauth]
      exact exists_congr fun v => returning_eq_error
  | placeBet b =>
      rw [hunguarded (.placeBet b) nofun, ← placeBet_stops_iff hauth]
      exact exists_congr fun v => done_eq_error
  | castVote _ id outcome weight =>
      have hc : GuardedCall (.castVote caller id outcome weight) := .castVote ..
      rw [and_iff_right hc]
      exact guarded_stops_iff hblocked
  | fileDispute _ id =>
      have hc : GuardedCall (.fileDispute caller id) := .fileDispute ..
      rw [and_iff_right hc]
      exact guarded_stops_iff hblocked

/-- A world whose breaker the admin has just opened, at time 0. -/
def sampleOpened : World :=
  sampleRun [.call everybody (.initializeContract ⟨1⟩ 0),
    .call everybody (.setCircuitBreaker .opened)]

theorem open_breaker_stops_sample :
    StoppedByBreaker sampleExterns everybody (.fileDispute ⟨4⟩ 1) sampleOpened :=
  (open_breaker_stops_iff (Or.inr ⟨by decide +kernel, by decide +kernel⟩) (.fileDispute ⟨4⟩ 1)
    (by decide)).mpr (Or.inr ⟨.fileDispute ⟨4⟩ 1, by decide +kernel⟩)

/-- In the cool-down of an open breaker a market is created. -/
theorem sampleOpened_creates :
    Reachable sampleExterns sampleOpened ∧ Blocked sampleOpened
      ∧ everybody.authorized (sampleMarket ⟨2⟩ ⟨10⟩).creator = true
      ∧ ¬StoppedByBreaker sampleExterns everybody (.createMarket (sampleMarket ⟨2⟩ ⟨10⟩))
          sampleOpened := by
  refine ⟨sampleRun_reachable _, Or.inr ⟨by decide +kernel, by decide +kernel⟩, by decide, ?_⟩
  intro hstop
  have hmade : (exec sampleExterns (.createMarket (sampleMarket ⟨2⟩ ⟨10⟩)) everybody sampleOpened).1
      = .ok (.marketId 1) := by
    decide +kernel
  rw [hstop.1] at hmade
  cases hmade

end PredictIQ.Contract
