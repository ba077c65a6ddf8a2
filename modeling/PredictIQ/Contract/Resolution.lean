/-
  PredictIQ.Contract.Resolution: the resolution steps of `resolution.rs`.

  `attemptOracleResolution` takes the stored answer of oracle 0 as it is;
  `finalizeResolution` confirms it after the dispute window, or replaces it by
  the outcome the votes decided.  `voting::get_market_votes`, which the count
  reads, has no body in the source and is a parameter.
-/
import PredictIQ.Contract.Voting

namespace PredictIQ.Contract

open Foundation Tx

/-! ## §1. Counting the votes. -/

/-- `VOTING_PERIOD_SECONDS`: 72 hours. -/
def votingPeriodSeconds : Nat := 259200

/-- `MAJORITY_THRESHOLD_BPS`: 60%. -/
def majorityThresholdBps : Int := 6000

/-- Add a vote to the first tally of its outcome, or open a tally for it. -/
def addToTallies (vote : Vote) : List (Nat × Int) → Option (List (Nat × Int))
  | [] => some [(vote.outcome, vote.weight)]
  | (outcome, weight) :: rest =>
      if outcome = vote.outcome then
        (checkedAdd weight vote.weight).map fun newWeight => (outcome, newWeight) :: rest
      else (addToTallies vote rest).map fun rest' => (outcome, weight) :: rest'

/-- The counting loop: total weight and tallies, `none` on overflow. -/
def aggregateVotes : List Vote → Int → List (Nat × Int) → Option (Int × List (Nat × Int))
  | [], total, tallies => some (total, tallies)
  | vote :: votes, total, tallies => do
      let total' ← checkedAdd total vote.weight
      let tallies' ← addToTallies vote tallies
      aggregateVotes votes total' tallies'

/-- The outcome of the first largest positive tally, and its weight. -/
def leadingOutcome (tallies : List (Nat × Int)) : Nat × Int :=
  tallies.foldl (fun best tally => if best.2 < tally.2 then tally else best) (0, 0)

def calculateVotingOutcome (votes : List Vote) : Body Nat := do
  let (totalVotes, tallies) ← orErr (aggregateVotes votes 0 []) .arithmeticOverflow
  failIf (totalVotes = 0) .noVotesCast
  let (winningOutcome, maxVotes) := leadingOutcome tallies
  let scaled ← orErr (checkedMul maxVotes 10000) .arithmeticOverflow
  let majorityPct ← orErr (checkedDiv scaled totalVotes) .arithmeticOverflow
  failIf (majorityPct < majorityThresholdBps) .noMajority
  pure winningOutcome

/-! ## §2. The two steps. -/

def attemptOracleResolution (marketId : Nat) : Body Unit := do
  let market ← loadMarket marketId
  failIf (market.status ≠ .active) .marketNotActive
  let now ← reads (·.timestamp)
  failIf (now < market.resolutionDeadline) .resolutionNotReady
  validateOracleStaleness marketId market.oracleConfig
  -- the answer is not compared with the options
  let oracleOutcome ← orErr (← getOracleResult marketId 0) .oracleFailure
  updateMarket { market with
    status := .pendingResolution
    winningOutcome := some oracleOutcome
    pendingResolutionTimestamp := some now }
  publish (.mktState marketId "Active" "PendingResolution" now)
  publish (.orclRes marketId currentContractAddress oracleOutcome)

/-- The `PendingResolution` branch of `finalize_resolution`. -/
def finalizeUndisputed (marketId : Nat) (market : Market) : Body Unit := do
  let pendingTs ← orErr market.pendingResolutionTimestamp .resolutionNotReady
  let disputeWindow ← getMarketDisputeWindow marketId
  let windowEnd ← orTrap (addU64 pendingTs disputeWindow)
  let now ← reads (·.timestamp)
  failIf (now < windowEnd) .disputeWindowStillOpen
  -- the outcome the oracle step recorded stands
  let winningOutcome ← orErr market.winningOutcome .resolutionNotReady
  updateMarket { market with status := .resolved, resolvedAt := some now }
  publish (.mktState marketId "PendingResolution" "Resolved" now)
  publish (.mktFinal marketId currentContractAddress winningOutcome)

/-- The `Disputed` branch of `finalize_resolution`. -/
def finalizeVoted (X : Externs) (marketId : Nat) (market : Market) : Body Unit := do
  let disputeTs ← orErr market.disputeTimestamp .marketNotDisputed
  let votingEnd ← orTrap (addU64 disputeTs votingPeriodSeconds)
  let now ← reads (·.timestamp)
  failIf (now < votingEnd) .timelockActive
  let votes ← reads fun w => X.getMarketVotes w.voting market.id
  let winningOutcome ← calculateVotingOutcome votes
  updateMarket { market with
    status := .resolved
    winningOutcome := some winningOutcome
    resolvedAt := some now }
  publish (.mktState marketId "Disputed" "Resolved" now)
  publish (.dispRes marketId currentContractAddress winningOutcome)

def finalizeResolution (X : Externs) (marketId : Nat) : Body Unit := do
  let market ← loadMarket marketId
  match market.status with
  | .pendingResolution => finalizeUndisputed marketId market
  | .disputed => finalizeVoted X marketId market
  | .resolved => abort (.error .cannotChangeOutcome)
  | .active => abort (.error .resolutionNotReady)
  | .cancelled => abort (.error .resolutionNotReady)

/-! ## §3. Rules. -/

section Rules

variable {env : Env} {w w' : World} {u : Unit}

/-- The votes decide on `outcome`. -/
def VotesDecide (votes : List Vote) (outcome : Nat) : Prop :=
  ∃ total tallies, aggregateVotes votes 0 [] = some (total, tallies) ∧ total ≠ 0
    ∧ outcome = (leadingOutcome tallies).1

theorem calculateVotingOutcome_ok {votes : List Vote} {o : Nat}
    (h : calculateVotingOutcome votes env w = (.ok o, w')) : VotesDecide votes o ∧ w = w' := by
  simp only [calculateVotingOutcome, bind_eq_ok, orErr_ok, failIf_ok, pure_eq_ok, and_assoc,
    exists_and_left, exists_eq_left', exists_const] at h
  obtain ⟨⟨total, tallies⟩, hagg, htotal, _, _, _, _, _, ho, hw'⟩ := h
  exact ⟨⟨total, tallies, hagg, htotal, ho.symm⟩, hw'⟩

/-- There is nothing to decide without votes. -/
theorem not_votesDecide_nil (o : Nat) : ¬VotesDecide [] o := by
  intro h
  obtain ⟨total, tallies, hagg, htotal, _⟩ := h
  -- an empty count ends where it began
  obtain ⟨rfl, rfl⟩ : (0 : Int) = total ∧ [] = tallies := by simpa [aggregateVotes] using hagg
  exact htotal rfl

/-- What a successful `attempt_oracle_resolution` found and wrote. -/
theorem attemptOracleResolution_ok {id : Nat}
    (h : attemptOracleResolution id env w = (.ok u, w')) :
    ∃ m outcome, w.markets.market.lookup id = some m ∧ m.status = .active
      ∧ m.resolutionDeadline ≤ w.timestamp
      ∧ NoneStale w id (effectiveMaxStaleness m.oracleConfig)
          (List.range (m.oracleConfig.minResponses.getD 1))
      ∧ w.oracles.result.lookup (id, 0) = some outcome
      ∧ w' = { w with
          markets := w.markets.updateMarket { m with
            status := .pendingResolution
            winningOutcome := some outcome
            pendingResolutionTimestamp := some w.timestamp }
          events := w.events ++ [.mktState id "Active" "PendingResolution" w.timestamp]
            ++ [.orclRes id currentContractAddress outcome] } := by
  simp only [attemptOracleResolution, bind_eq_ok, loadMarket_ok, failIf_ok, reads_eq_ok,
    getOracleResult_ok, orErr_ok, updateMarket_ok, publish_ok, and_assoc, exists_and_left,
    exists_eq_left', exists_eq_left, exists_const, ne_eq, not_not, not_lt] at h
  obtain ⟨m, hm, hs, hnow, _, _, hstale, outcome, ho, hw'⟩ := h
  obtain ⟨hfresh, _, rfl⟩ := validateOracleStaleness_ok hstale
  exact ⟨m, outcome, hm, hs, hnow, hfresh, ho, hw'⟩

theorem finalizeUndisputed_ok {id : Nat} {m : Market}
    (h : finalizeUndisputed id m env w = (.ok u, w')) :
    ∃ t outcome, m.pendingResolutionTimestamp = some t ∧ m.winningOutcome = some outcome
      ∧ t + (w.markets.marketDisputeWindow.lookup id).getD w.windows.getDefaultDisputeWindow
          ≤ w.timestamp
      ∧ w' = { w with
          markets := w.markets.updateMarket
            { m with status := .resolved, resolvedAt := some w.timestamp }
          events := w.events ++ [.mktState id "PendingResolution" "Resolved" w.timestamp]
            ++ [.mktFinal id currentContractAddress outcome] } := by
  simp only [finalizeUndisputed, bind_eq_ok, orErr_ok, getMarketDisputeWindow_ok, orTrap_ok,
    addU64_eq_some, reads_eq_ok, failIf_ok, updateMarket_ok, publish_ok, and_assoc,
    exists_and_left, exists_eq_left', exists_eq_left, exists_const, not_lt] at h
  obtain ⟨t, ht, _, htime, outcome, ho, hw'⟩ := h
  exact ⟨t, outcome, ht, ho, htime, hw'⟩

theorem finalizeVoted_ok {X : Externs} {id : Nat} {m : Market}
    (h : finalizeVoted X id m env w = (.ok u, w')) :
    ∃ t outcome, m.disputeTimestamp = some t ∧ t + votingPeriodSeconds ≤ w.timestamp
      ∧ VotesDecide (X.getMarketVotes w.voting m.id) outcome
      ∧ w' = { w with
          markets := w.markets.updateMarket { m with
            status := .resolved
            winningOutcome := some outcome
            resolvedAt := some w.timestamp }
          events := w.events ++ [.mktState id "Disputed" "Resolved" w.timestamp]
            ++ [.dispRes id currentContractAddress outcome] } := by
  simp only [finalizeVoted, bind_eq_ok, orErr_ok, orTrap_ok, addU64_eq_some, reads_eq_ok,
    failIf_ok, updateMarket_ok, publish_ok, and_assoc, exists_and_left, exists_eq_left',
    exists_eq_left, exists_const, not_lt] at h
  obtain ⟨t, ht, _, htime, outcome, v, hcount, hw'⟩ := h
  obtain ⟨hdecide, rfl⟩ := calculateVotingOutcome_ok hcount
  exact ⟨t, outcome, ht, htime, hdecide, hw'⟩

/-- Only pending and disputed markets can be finalised. -/
theorem finalizeResolution_ok {X : Externs} {id : Nat}
    (h : finalizeResolution X id env w = (.ok u, w')) :
    ∃ m, w.markets.market.lookup id = some m ∧
      ((m.status = .pendingResolution ∧ finalizeUndisputed id m env w = (.ok u, w'))
        ∨ (m.status = .disputed ∧ finalizeVoted X id m env w = (.ok u, w'))) := by
  simp only [finalizeResolution, bind_eq_ok, loadMarket_ok] at h
  obtain ⟨m, _, ⟨hm, rfl⟩, h⟩ := h
  refine ⟨m, hm, ?_⟩
  cases hs : m.status with
  | pendingResolution =>
      simp only [hs] at h
      exact Or.inl ⟨rfl, h⟩
  | disputed =>
      simp only [hs] at h
      exact Or.inr ⟨rfl, h⟩
  | resolved => simp [hs] at h
  | active => simp [hs] at h
  | cancelled => simp [hs] at h

end Rules

end PredictIQ.Contract
