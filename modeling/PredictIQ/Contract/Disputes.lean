/-
  PredictIQ.Contract.Disputes: `disputes.rs` and `cancellation.rs`, and the
  lifecycle of a market as one relation.

  Seven functions in four modules rewrite a market's status.  Each loads the
  record, checks guards of its own and writes a changed copy; `LifecycleMove`
  lists the copies they may write, so that a property of the lifecycle is one
  case analysis.
-/
import PredictIQ.Contract.Resolution

namespace PredictIQ.Contract

open Foundation Tx

/-! ## §1. The functions. -/

def fileDispute (disciplinarian : Address) (marketId : Nat) : Body Unit := do
  requireAuth disciplinarian
  let market ← loadMarket marketId
  failIf (market.status ≠ .pendingResolution) .marketNotPendingResolution
  let pendingTs ← orErr market.pendingResolutionTimestamp .resolutionNotReady
  let disputeWindow ← getMarketDisputeWindow marketId
  let windowEnd ← orTrap (addU64 pendingTs disputeWindow)
  let now ← reads (·.timestamp)
  failIf (windowEnd ≤ now) .disputeWindowClosed
  let newDeadline ← orTrap (addU64 market.resolutionDeadline disputeWindow)
  -- `dispute_snapshot_ledger` is left as it is
  updateMarket { market with
    status := .disputed
    disputeTimestamp := some now
    resolutionDeadline := newDeadline }
  publish (.dispFile marketId disciplinarian newDeadline)

def resolveMarket (marketId winningOutcome : Nat) : Body Unit := do
  let market ← loadMarket marketId
  failIf (market.status = .resolved ∨ market.status = .cancelled) .cannotChangeOutcome
  failIf (market.options.length ≤ winningOutcome) .invalidOutcome
  let now ← reads (·.timestamp)
  -- reported in the event only
  let totalPayout :=
    if 0 < (market.outcomeStakes.lookup winningOutcome).getD 0 then market.totalStaked else 0
  updateMarket { market with
    status := .resolved
    winningOutcome := some winningOutcome
    resolvedAt := some now }
  let admin ← adminOrSelf
  publish (.resolvFx marketId admin winningOutcome totalPayout)

/-- `FAILED_MARKET_THRESHOLD_BPS`: 75%. -/
def failedMarketThresholdBps : Int := 7500

def cancelMarketAdmin (marketId : Nat) : Body Unit := do
  requireAdmin
  let market ← loadMarket marketId
  failIf (market.status = .resolved ∨ market.status = .cancelled) .cannotChangeOutcome
  updateMarket { market with status := .cancelled }
  let admin ← orTrap (← getAdmin)
  publish (.mktCncl marketId admin)

/-- `total_votes += get_tally(..)` over the outcomes, `none` on overflow. -/
def sumTallies (s : VotingStore) (marketId : Nat) : List Nat → Int → Option Int
  | [], total => some total
  | outcome :: rest, total => do
      let total' ← inI128 (total + s.getTally marketId outcome)
      sumTallies s marketId rest total'

def cancelMarketVote (marketId : Nat) : Body Unit := do
  let market ← loadMarket marketId
  failIf (market.status ≠ .disputed) .marketNotDisputed
  let cancelVotes ← reads (·.voting.getTally marketId cancelOutcomeIndex)
  -- the cancel votes and the votes for every option
  let totalVotes ← orTrap (← reads fun w =>
    sumTallies w.voting marketId (List.range market.options.length) cancelVotes)
  failIf (totalVotes = 0) .insufficientVotingWeight
  let scaled ← orErr (checkedMul cancelVotes 10000) .insufficientVotingWeight
  let cancelPct ← orErr (checkedDiv scaled totalVotes) .insufficientVotingWeight
  failIf (cancelPct < failedMarketThresholdBps) .insufficientVotingWeight
  updateMarket { market with status := .cancelled }
  publish (.mkCnVt marketId currentContractAddress)

/-! ## §2. The lifecycle. -/

/-- The dispute window of a market: its own, or the current default. -/
def disputeWindowOf (w : World) (id : Nat) : Nat :=
  (w.markets.marketDisputeWindow.lookup id).getD w.windows.getDefaultDisputeWindow

/-- The functions that move a market along its lifecycle. -/
inductive LifecycleCall where
  | attemptOracleResolution | finalizeResolution | fileDispute | resolveMarket
  | cancelMarketAdmin | cancelMarketVote
  deriving DecidableEq, Repr

/-- What a call made in `w` may turn market `id`, now `m`, into. -/
inductive LifecycleMove (X : Externs) (w : World) (id : Nat) (m : Market) :
    LifecycleCall → Market → Prop
  /-- `attempt_oracle_resolution`. -/
  | answer (outcome : Nat) (active : m.status = .active)
      (due : m.resolutionDeadline ≤ w.timestamp)
      (fresh : NoneStale w id (effectiveMaxStaleness m.oracleConfig)
        (List.range (m.oracleConfig.minResponses.getD 1)))
      (answered : w.oracles.result.lookup (id, 0) = some outcome) :
      LifecycleMove X w id m .attemptOracleResolution { m with
        status := .pendingResolution
        winningOutcome := some outcome
        pendingResolutionTimestamp := some w.timestamp }
  /-- `finalize_resolution`, undisputed. -/
  | confirm (t outcome : Nat) (pending : m.status = .pendingResolution)
      (since : m.pendingResolutionTimestamp = some t)
      (elapsed : t + disputeWindowOf w id ≤ w.timestamp)
      (decided : m.winningOutcome = some outcome) :
      LifecycleMove X w id m .finalizeResolution
        { m with status := .resolved, resolvedAt := some w.timestamp }
  /-- `finalize_resolution`, after a vote. -/
  | decide (t outcome : Nat) (disputed : m.status = .disputed)
      (since : m.disputeTimestamp = some t)
      (elapsed : t + votingPeriodSeconds ≤ w.timestamp)
      (votes : VotesDecide (X.getMarketVotes w.voting m.id) outcome) :
      LifecycleMove X w id m .finalizeResolution { m with
        status := .resolved
        winningOutcome := some outcome
        resolvedAt := some w.timestamp }
  /-- `file_dispute`. -/
  | dispute (t : Nat) (pending : m.status = .pendingResolution)
      (since : m.pendingResolutionTimestamp = some t)
      (inTime : w.timestamp < t + disputeWindowOf w id) :
      LifecycleMove X w id m .fileDispute { m with
        status := .disputed
        disputeTimestamp := some w.timestamp
        resolutionDeadline := m.resolutionDeadline + disputeWindowOf w id }
  /-- `resolve_market`. -/
  | resolve (outcome : Nat)
      (running : m.status ≠ .resolved ∧ m.status ≠ .cancelled)
      (valid : outcome < m.options.length) :
      LifecycleMove X w id m .resolveMarket { m with
        status := .resolved
        winningOutcome := some outcome
        resolvedAt := some w.timestamp }
  /-- `cancel_market_admin`. -/
  | cancel (running : m.status ≠ .resolved ∧ m.status ≠ .cancelled) :
      LifecycleMove X w id m .cancelMarketAdmin { m with status := .cancelled }
  /-- `cancel_market_vote`. -/
  | voteDown (disputed : m.status = .disputed) :
      LifecycleMove X w id m .cancelMarketVote { m with status := .cancelled }

/-- A call of `f` moved market `id` along its lifecycle and did nothing else. -/
def MovesMarket (X : Externs) (w : World) (id : Nat) (f : LifecycleCall) (w' : World) : Prop :=
  ∃ m m' evs, w.markets.market.lookup id = some m ∧ LifecycleMove X w id m f m'
    ∧ w' = { w with markets := w.markets.updateMarket m', events := evs }

/-- What the move of market `id` to `m'` publishes. -/
inductive MoveAnnounced (id : Nat) (m' : Market) : LifecycleCall → List Event → Prop
  | answer (outcome t : Nat) (decided : m'.winningOutcome = some outcome) :
      MoveAnnounced id m' .attemptOracleResolution
        [.mktState id "Active" "PendingResolution" t, .orclRes id currentContractAddress outcome]
  | confirm (outcome t : Nat) (decided : m'.winningOutcome = some outcome) :
      MoveAnnounced id m' .finalizeResolution
        [.mktState id "PendingResolution" "Resolved" t, .mktFinal id currentContractAddress outcome]
  | decide (outcome t : Nat) (decided : m'.winningOutcome = some outcome) :
      MoveAnnounced id m' .finalizeResolution
        [.mktState id "Disputed" "Resolved" t, .dispRes id currentContractAddress outcome]
  | dispute (disciplinarian : Address) (newDeadline : Nat) :
      MoveAnnounced id m' .fileDispute [.dispFile id disciplinarian newDeadline]
  | resolve (outcome : Nat) (resolver : Address) (payout : Int)
      (decided : m'.winningOutcome = some outcome) :
      MoveAnnounced id m' .resolveMarket [.resolvFx id resolver outcome payout]
  | cancel (admin : Address) : MoveAnnounced id m' .cancelMarketAdmin [.mktCncl id admin]
  | voteDown : MoveAnnounced id m' .cancelMarketVote [.mkCnVt id currentContractAddress]

/-- A call of `f` moved market `id`, published `evs` and did nothing else. -/
def AnnouncesMove (X : Externs) (w : World) (id : Nat) (f : LifecycleCall) (evs : List Event)
    (w' : World) : Prop :=
  ∃ m m', w.markets.market.lookup id = some m ∧ LifecycleMove X w id m f m'
    ∧ MoveAnnounced id m' f evs
    ∧ w' = { w with markets := w.markets.updateMarket m', events := w.events ++ evs }

section Rules

variable {X : Externs} {env : Env} {w w' : World} {u : Unit} {id : Nat}

theorem AnnouncesMove.moves {f : LifecycleCall} {evs : List Event}
    (h : AnnouncesMove X w id f evs w') : MovesMarket X w id f w' := by
  obtain ⟨m, m', hm, hmove, _, hw'⟩ := h
  exact ⟨m, m', _, hm, hmove, hw'⟩

theorem attemptOracleResolution_announces (h : attemptOracleResolution id env w = (.ok u, w')) :
    ∃ evs, AnnouncesMove X w id .attemptOracleResolution evs w' := by
  obtain ⟨m, outcome, hm, hs, hdue, hfresh, ho, rfl⟩ := attemptOracleResolution_ok h
  refine ⟨_, m, _, hm, .answer outcome hs hdue hfresh ho, .answer outcome w.timestamp rfl, ?_⟩
  rw [List.append_assoc]
  rfl

theorem finalizeResolution_announces (h : finalizeResolution X id env w = (.ok u, w')) :
    ∃ evs, AnnouncesMove X w id .finalizeResolution evs w' := by
  obtain ⟨m, hm, ⟨hs, h⟩ | ⟨hs, h⟩⟩ := finalizeResolution_ok h
  · obtain ⟨t, outcome, ht, ho, hend, rfl⟩ := finalizeUndisputed_ok h
    refine ⟨_, m, _, hm, .confirm t outcome hs ht hend ho, .confirm outcome w.timestamp ho, ?_⟩
    rw [List.append_assoc]
    rfl
  · obtain ⟨t, outcome, ht, hend, hvotes, rfl⟩ := finalizeVoted_ok h
    refine ⟨_, m, _, hm, .decide t outcome hs ht hend hvotes, .decide outcome w.timestamp rfl, ?_⟩
    rw [List.append_assoc]
    rfl

theorem fileDispute_announces {disciplinarian : Address}
    (h : fileDispute disciplinarian id env w = (.ok u, w')) :
    ∃ evs, AnnouncesMove X w id .fileDispute evs w' := by
  simp only [fileDispute, bind_eq_ok, requireAuth_ok, loadMarket_ok, failIf_ok, orErr_ok,
    getMarketDisputeWindow_ok, orTrap_ok, addU64_eq_some, reads_eq_ok, updateMarket_ok,
    publish_ok, and_assoc, exists_and_left, exists_eq_left', exists_eq_left, exists_const, ne_eq,
    not_not, not_le] at h
  obtain ⟨_, m, hm, hs, t, ht, _, htime, _, hw'⟩ := h
  exact ⟨_, m, _, hm, .dispute t hs ht htime, .dispute disciplinarian _, hw'⟩

theorem resolveMarket_announces {outcome : Nat}
    (h : resolveMarket id outcome env w = (.ok u, w')) :
    ∃ evs, AnnouncesMove X w id .resolveMarket evs w' := by
  simp only [resolveMarket, bind_eq_ok, loadMarket_ok, failIf_ok, reads_eq_ok, updateMarket_ok,
    adminOrSelf_ok, publish_ok, and_assoc, exists_and_left, exists_eq_left', exists_eq_left,
    exists_const, not_le] at h
  obtain ⟨m, hm, hs, ho, hw'⟩ := h
  exact ⟨_, m, _, hm, .resolve outcome (not_or.mp hs) ho, .resolve outcome _ _ rfl, hw'⟩

theorem cancelMarketAdmin_announces (h : cancelMarketAdmin id env w = (.ok u, w')) :
    ∃ evs, AnnouncesMove X w id .cancelMarketAdmin evs w' := by
  simp only [cancelMarketAdmin, bind_eq_ok, requireAdmin_ok, loadMarket_ok, failIf_ok,
    updateMarket_ok, getAdmin, reads_eq_ok, orTrap_ok, publish_ok, and_assoc, exists_and_left,
    exists_eq_left', exists_eq_left, exists_const] at h
  obtain ⟨_, m, hm, hs, admin, _, hw'⟩ := h
  exact ⟨_, m, _, hm, .cancel (not_or.mp hs), .cancel admin, hw'⟩

theorem cancelMarketVote_announces (h : cancelMarketVote id env w = (.ok u, w')) :
    ∃ evs, AnnouncesMove X w id .cancelMarketVote evs w' := by
  simp only [cancelMarketVote, bind_eq_ok, loadMarket_ok, failIf_ok, reads_eq_ok, orTrap_ok,
    orErr_ok, updateMarket_ok, publish_ok, and_assoc, exists_and_left, exists_eq_left',
    exists_eq_left, exists_const, ne_eq, not_not] at h
  obtain ⟨m, hm, hs, total, _, _, scaled, _, pct, _, _, hw'⟩ := h
  exact ⟨_, m, _, hm, .voteDown hs, .voteDown, hw'⟩

end Rules

end PredictIQ.Contract
