/-
  PredictIQ.Contract.Voting: `voting.rs`, and the pruning of a market
  (`prune_market` of `markets.rs`, `archive_market` of `event_archive.rs`),
  which clears the voting state with it.

  A vote weighs what the governance token reports for the voter at the
  ledger of the dispute.  For tokens without `balance_at` the voter names a
  weight and the contract takes that many tokens into custody.
-/
import PredictIQ.Contract.Oracles

namespace PredictIQ.Contract

open Foundation Tx

/-! ## §1. Voting. -/

/-- `NORMALIZED_DECIMALS`. -/
def normalizedDecimals : Nat := 18

/-- `i128::saturating_mul`. -/
def saturatingMul (a b : Int) : Int := max (-2 ^ 127) (min (2 ^ 127 - 1) (a * b))

/-- A weight scaled to 18 decimals; `none` is the overflow trap of
`10i128.pow(..)`. -/
def normalizeWeight (actualWeight : Int) (tokenDecimals : Nat) : Option Int :=
  if tokenDecimals < normalizedDecimals then
    some (saturatingMul actualWeight (10 ^ (normalizedDecimals - tokenDecimals)))
  else if normalizedDecimals < tokenDecimals then
    (inI128 (10 ^ (tokenDecimals - normalizedDecimals))).map fun scale => actualWeight.tdiv scale
  else some actualWeight

/-- `get_token_decimals`: 7 for tokens that do not answer. -/
def getTokenDecimals (token : Address) : Body Nat := do
  let env ← context
  pure ((env.decimals token).getD 7)

def VotingStore.getTally (s : VotingStore) (marketId outcome : Nat) : Int :=
  (s.voteTally.lookup (marketId, outcome)).getD 0

/-- `LockedBalance(market_id, voter)`, 0 when absent. -/
def VotingStore.getLocked (s : VotingStore) (marketId : Nat) (voter : Address) : Int :=
  (s.lockedBalance.lookup (marketId, voter)).getD 0

/-- Add `weight` to the tally of an outcome, trapping on overflow. -/
def addToTally (marketId outcome : Nat) (weight : Int) : Body Unit := do
  let tally ← orTrap (inI128 ((← reads (·.voting.getTally marketId outcome)) + weight))
  update fun w => { w with voting.voteTally := w.voting.voteTally.insert (marketId, outcome) tally }

/-- A revised vote first takes the old weight out of its tally. -/
def retractVote (marketId : Nat) : Option Vote → Body Unit
  | some old => addToTally marketId old.outcome (-old.weight)
  | none => pure ()

/-- The fallback of `cast_vote`: take `weight` tokens into custody. -/
def lockVotingTokens (govToken voter : Address) (market : Market) (marketId : Nat) (weight : Int) :
    Body Unit := do
  let currentBalance ← tokenBalance govToken voter
  failIf (currentBalance < weight) .insufficientVotingWeight
  -- the contract's own signature, which no outside caller carries
  requireAuth currentContractAddress
  tokenTransfer govToken voter currentContractAddress weight
  let existing ← reads fun w => (w.voting.lockedBalance.lookup (marketId, voter)).getD 0
  let lockedBalance ← orTrap (inI128 (existing + weight))
  let locked : LockedTokens :=
    { voter := voter, marketId := marketId, amount := weight, unlockTime := market.resolutionDeadline }
  update fun w => { w with
    voting.lockedBalance := w.voting.lockedBalance.insert (marketId, voter) lockedBalance
    voting.lockedTokens := w.voting.lockedTokens.insert (marketId, voter) locked }

/-- The voter's weight: the balance at the snapshot, or what is locked now. -/
def voteWeight (govToken voter : Address) (market : Market) (marketId snapshotLedger : Nat)
    (weight : Int) : Body Int := do
  let env ← context
  match env.balanceAt govToken voter snapshotLedger with
  | some balance => pure balance
  | none => do
      lockVotingTokens govToken voter market marketId weight
      pure weight

/-- Store the vote and, for a first vote, register the voter. -/
def recordVote (vote : Vote) (isFirst : Bool) : Body Unit := do
  update fun w => { w with voting.vote := w.voting.vote.insert (vote.marketId, vote.voter) vote }
  whenever (isFirst = true) do
    let voters ← reads fun w => (w.voting.disputeVoters.lookup vote.marketId).getD []
    update fun w => { w with
      voting.disputeVoters := w.voting.disputeVoters.insert vote.marketId (voters ++ [vote.voter]) }
  addToTally vote.marketId vote.outcome vote.weight

def castVote (voter : Address) (marketId outcome : Nat) (weight : Int) : Body Unit := do
  requireAuth voter
  let market ← loadMarket marketId
  failIf (market.status ≠ .disputed) .marketNotDisputed
  failIf (outcome ≠ cancelOutcomeIndex ∧ market.options.length ≤ outcome) .invalidOutcome
  let oldVote ← reads (·.voting.vote.lookup (marketId, voter))
  retractVote marketId oldVote
  -- no function of the contract sets this field
  let snapshotLedger ← orErr market.disputeSnapshotLedger .marketNotDisputed
  let govToken ← orErr (← reads (·.admin.governanceToken)) .governanceTokenNotSet
  let actualWeight ← voteWeight govToken voter market marketId snapshotLedger weight
  failIf (actualWeight = 0) .insufficientVotingWeight
  let tokenDecimals ← getTokenDecimals govToken
  let normalizedWeight ← orTrap (normalizeWeight actualWeight tokenDecimals)
  failIf (normalizedWeight = 0) .insufficientVotingWeight
  recordVote { marketId := marketId, voter := voter, outcome := outcome, weight := normalizedWeight }
    oldVote.isNone
  publish (.voteCast marketId voter outcome normalizedWeight)

/-- `unlock_tokens`: no entrypoint calls it. -/
def unlockTokens (voter : Address) (marketId : Nat) : Body Unit := do
  requireAuth voter
  let market ← loadMarket marketId
  failIf (market.status ≠ .resolved ∧ market.status ≠ .cancelled) .marketNotResolved
  let locked ← orErr (← reads (·.voting.lockedTokens.lookup (marketId, voter))) .betNotFound
  let now ← reads (·.timestamp)
  failIf (now < locked.unlockTime) .timelockActive
  let amount ← reads (·.voting.getLocked marketId voter)
  failIf (amount ≤ 0) .betNotFound
  -- the governance token of now, not the one that was locked
  let govToken ← orErr (← reads (·.admin.governanceToken)) .governanceTokenNotSet
  requireAuth currentContractAddress
  tokenTransfer govToken currentContractAddress voter amount
  update fun w => { w with
    voting.lockedTokens := w.voting.lockedTokens.erase (marketId, voter)
    voting.lockedBalance := w.voting.lockedBalance.erase (marketId, voter) }

/-! ## §2. Pruning. -/

/-- `prune_market_voting_state`: what goes is found through the voter
registry.  The tally of the cancel sentinel is no option and stays. -/
def VotingStore.prune (s : VotingStore) (marketId numOutcomes : Nat) : VotingStore :=
  let keys := ((s.disputeVoters.lookup marketId).getD []).map fun v => (marketId, v)
  { vote := Store.eraseAll s.vote keys
    lockedTokens := Store.eraseAll s.lockedTokens keys
    lockedBalance := Store.eraseAll s.lockedBalance keys
    disputeVoters := s.disputeVoters.erase marketId
    voteTally := Store.eraseAll s.voteTally ((List.range numOutcomes).map fun o => (marketId, o)) }

def archiveMarket (marketId : Nat) : Body Unit := do
  let count ← orTrap (addU64 (← reads (·.archive.archivedMarketCount.getD 0)) 1)
  update fun w => { w with
    archive.archivedMarket := w.archive.archivedMarket.insert count marketId
    archive.archivedMarketCount := some count }

/-- The market store without market `id`. -/
def MarketStore.removeMarket (s : MarketStore) (id : Nat) : MarketStore :=
  { s with
    statusIndex := s.statusIndex.erase (id, .resolved)
    market := s.market.erase id
    marketDisputeWindow := s.marketDisputeWindow.erase id }

def pruneMarket (marketId : Nat) : Body Unit := do
  let market ← loadMarket marketId
  failIf (market.status ≠ .resolved) .marketNotActive
  let resolvedAt ← orErr market.resolvedAt .marketNotActive
  let currentTime ← reads (·.timestamp)
  let graceEnd ← orTrap (addU64 resolvedAt pruneGracePeriod)
  failIf (currentTime < graceEnd) .marketNotActive
  -- the deposit, the locks and the bets of the market are not looked at
  archiveMarket marketId
  update fun w => { w with voting := w.voting.prune marketId market.options.length }
  update fun w => { w with markets := w.markets.removeMarket marketId }
  publish (.mktPrune marketId currentTime)

/-! ## §3. The parts of a vote. -/

/-- The tally of one outcome, moved by `weight`. -/
def VotingStore.addTally (s : VotingStore) (marketId outcome : Nat) (weight : Int) : VotingStore :=
  { s with
    voteTally := s.voteTally.insert (marketId, outcome) (s.getTally marketId outcome + weight) }

/-- The old vote's weight taken out of its tally. -/
def VotingStore.retract (s : VotingStore) (marketId : Nat) : Option Vote → VotingStore
  | some old => s.addTally marketId old.outcome (-old.weight)
  | none => s

/-- `weight` more tokens of the voter locked until `unlockTime`. -/
def VotingStore.lock (s : VotingStore) (marketId : Nat) (voter : Address) (weight : Int)
    (unlockTime : Nat) : VotingStore :=
  { s with
    lockedBalance := s.lockedBalance.insert (marketId, voter)
      (s.getLocked marketId voter + weight)
    lockedTokens := s.lockedTokens.insert (marketId, voter)
      { voter := voter, marketId := marketId, amount := weight, unlockTime := unlockTime } }

/-- `DisputeVoters(market_id)`, empty when absent. -/
def VotingStore.getVoters (s : VotingStore) (marketId : Nat) : List Address :=
  (s.disputeVoters.lookup marketId).getD []

/-- The vote stored, its voter registered if this is a first vote, and its
weight added to its tally. -/
def VotingStore.record (s : VotingStore) (vote : Vote) (isFirst : Bool) : VotingStore :=
  { s with
    vote := s.vote.insert (vote.marketId, vote.voter) vote
    disputeVoters :=
      if isFirst = true then
        s.disputeVoters.insert vote.marketId (s.getVoters vote.marketId ++ [vote.voter])
      else s.disputeVoters }.addTally vote.marketId vote.outcome vote.weight

/-! ## §4. What each leaves behind. -/

section Rules

variable {env : Env} {w w' : World} {u : Unit}

/-- Two worlds that differ at most in the voting state, payments and events. -/
def SameButVoting (w w' : World) : Prop :=
  ∃ vo b ts evs, w' = { w with voting := vo, balances := b, transfers := ts, events := evs }

@[simp] theorem getTokenDecimals_ok {token : Address} {n : Nat} :
    getTokenDecimals token env w = (.ok n, w') ↔ (env.decimals token).getD 7 = n ∧ w = w' := by
  simp [getTokenDecimals, and_comm]

theorem addToTally_ok {marketId outcome : Nat} {weight : Int}
    (h : addToTally marketId outcome weight env w = (.ok u, w')) :
    w' = { w with voting := w.voting.addTally marketId outcome weight } := by
  simp only [addToTally, bind_eq_ok, reads_eq_ok, orTrap_ok, update_eq_ok, inI128_eq_some,
    and_assoc, exists_and_left, exists_eq_left', exists_eq_left] at h
  exact h.2.2

theorem retractVote_ok {marketId : Nat} {old : Option Vote}
    (h : retractVote marketId old env w = (.ok u, w')) :
    w' = { w with voting := w.voting.retract marketId old } := by
  cases old with
  | some old => exact addToTally_ok h
  | none =>
      obtain ⟨_, rfl⟩ := pure_eq_ok.mp h
      rfl

/-- What a lock takes and leaves. -/
theorem lockVotingTokens_ok {govToken voter : Address} {m : Market} {id : Nat} {weight : Int}
    (h : lockVotingTokens govToken voter m id weight env w = (.ok u, w')) :
    env.authorized currentContractAddress = true
      ∧ Transferable env w ⟨govToken, voter, currentContractAddress, weight⟩
      ∧ w' = { w.pay ⟨govToken, voter, currentContractAddress, weight⟩ with
          voting := w.voting.lock id voter weight m.resolutionDeadline } := by
  simp only [lockVotingTokens, bind_eq_ok, tokenBalance_ok, failIf_ok, requireAuth_ok,
    tokenTransfer_ok, reads_eq_ok, orTrap_ok, update_eq_ok, inI128_eq_some, and_assoc,
    exists_and_left, exists_eq_left', exists_eq_left, exists_const] at h
  obtain ⟨_, hauth, htr, _, _, hw'⟩ := h
  exact ⟨hauth, htr, hw'⟩

/-- How a vote comes by its weight. -/
inductive VoteWeighed (env : Env) (w : World) (govToken voter : Address) (m : Market)
    (id ledger : Nat) (weight : Int) : Int → World → Prop
  /-- The balance at the snapshot. -/
  | snapshot (balance : Int) (answer : env.balanceAt govToken voter ledger = some balance) :
      VoteWeighed env w govToken voter m id ledger weight balance w
  /-- `weight` tokens, taken into custody. -/
  | locked (noAnswer : env.balanceAt govToken voter ledger = none)
      (auth : env.authorized currentContractAddress = true)
      (funded : Transferable env w ⟨govToken, voter, currentContractAddress, weight⟩) :
      VoteWeighed env w govToken voter m id ledger weight weight
        { w.pay ⟨govToken, voter, currentContractAddress, weight⟩ with
          voting := w.voting.lock id voter weight m.resolutionDeadline }

theorem voteWeight_ok {govToken voter : Address} {m : Market} {id ledger : Nat}
    {weight actual : Int}
    (h : voteWeight govToken voter m id ledger weight env w = (.ok actual, w')) :
    VoteWeighed env w govToken voter m id ledger weight actual w' := by
  simp only [voteWeight, bind_eq_ok, context_eq_ok, and_assoc, exists_and_left,
    exists_eq_left'] at h
  cases hb : env.balanceAt govToken voter ledger with
  | some balance =>
      simp only [hb, pure_eq_ok] at h
      obtain ⟨rfl, rfl⟩ := h
      exact .snapshot balance hb
  | none =>
      simp only [hb, bind_eq_ok, pure_eq_ok] at h
      obtain ⟨_, _, hlock, rfl, rfl⟩ := h
      obtain ⟨hauth, htr, rfl⟩ := lockVotingTokens_ok hlock
      exact .locked hb hauth htr

theorem recordVote_ok {vote : Vote} {isFirst : Bool}
    (h : recordVote vote isFirst env w = (.ok u, w')) :
    w' = { w with voting := w.voting.record vote isFirst } := by
  simp only [recordVote, bind_eq_ok, update_eq_ok, exists_eq_left, exists_const] at h
  obtain ⟨_, v, hreg, htally⟩ := h
  rw [addToTally_ok htally]
  -- the registry is written for a first vote only
  rcases whenever_eq_ok.mp hreg with ⟨hfirst, hset⟩ | ⟨hfirst, rfl⟩
  · simp only [bind_eq_ok, reads_eq_ok, update_eq_ok, and_assoc, exists_and_left,
      exists_eq_left'] at hset
    subst hfirst
    subst hset
    rfl
  · rw [Bool.not_eq_true] at hfirst
    subst hfirst
    rfl

/-- What a successful `cast_vote` on market `m` does: the old vote is retracted,
the weight found (in `v`), and `vote` recorded. -/
structure CastVoteEffect (env : Env) (w : World) (voter : Address) (id outcome : Nat)
    (weight : Int) (m : Market) (govToken : Address) (v : World) (vote : Vote) (w' : World) :
    Prop where
  auth : env.authorized voter = true
  lookup : w.markets.market.lookup id = some m
  disputed : m.status = .disputed
  valid : outcome = cancelOutcomeIndex ∨ outcome < m.options.length
  token : w.admin.governanceToken = some govToken
  weighed : ∃ ledger actual, m.disputeSnapshotLedger = some ledger
    ∧ VoteWeighed env
        { w with voting := w.voting.retract id (w.voting.vote.lookup (id, voter)) }
        govToken voter m id ledger weight actual v
    ∧ normalizeWeight actual ((env.decimals govToken).getD 7) = some vote.weight
  vote_eq : vote.marketId = id ∧ vote.voter = voter ∧ vote.outcome = outcome
  weight_ne_zero : vote.weight ≠ 0
  post : w' = { v with
    voting := v.voting.record vote (w.voting.vote.lookup (id, voter)).isNone
    events := w.events ++ [.voteCast id voter outcome vote.weight] }

theorem castVote_effect {voter : Address} {id outcome : Nat} {weight : Int}
    (h : castVote voter id outcome weight env w = (.ok u, w')) :
    ∃ m govToken v vote, CastVoteEffect env w voter id outcome weight m govToken v vote w' := by
  simp only [castVote, bind_eq_ok, requireAuth_ok, loadMarket_ok, failIf_ok, reads_eq_ok,
    orErr_ok, orTrap_ok, getTokenDecimals_ok, publish_ok, and_assoc, exists_and_left,
    exists_eq_left', exists_const] at h
  obtain ⟨hauth, m, hm, hs, hvalid, _, v₁, hold, ledger, hl, govToken, htok, actual, v₂, hweight, _,
    normalized, hnorm, hne, _, v₃, hrec, rfl⟩ := h
  obtain rfl := retractVote_ok hold
  have hweighed := voteWeight_ok hweight
  obtain rfl := recordVote_ok hrec
  -- neither way of weighing publishes an event
  have hevents : v₂.events = w.events := by
    cases hweighed <;> rfl
  refine ⟨m, govToken, v₂, ⟨id, voter, outcome, normalized⟩, hauth, hm, not_not.mp hs, ?_, htok,
    ⟨ledger, actual, hl, hweighed, hnorm⟩, ⟨rfl, rfl, rfl⟩, hne, ?_⟩
  · by_contra hinvalid
    exact hvalid ⟨fun h => hinvalid (Or.inl h), not_lt.mp fun h => hinvalid (Or.inr h)⟩
  · show { v₂ with voting := _, events := v₂.events ++ _ } = _
    rw [hevents]

/-- A vote is taken only on a market that carries a snapshot. -/
theorem CastVoteEffect.snapshot {voter : Address} {id outcome : Nat} {weight : Int} {m : Market}
    {govToken : Address} {v : World} {vote : Vote}
    (h : CastVoteEffect env w voter id outcome weight m govToken v vote w') :
    ∃ ledger, m.disputeSnapshotLedger = some ledger := by
  obtain ⟨ledger, _, hledger, _⟩ := h.weighed
  exact ⟨ledger, hledger⟩

/-- A vote moves nothing but the voting state and the locked tokens. -/
theorem CastVoteEffect.frame {voter : Address} {id outcome : Nat} {weight : Int} {m : Market}
    {govToken : Address} {v : World} {vote : Vote}
    (h : CastVoteEffect env w voter id outcome weight m govToken v vote w') :
    SameButVoting w w' := by
  obtain ⟨ledger, actual, _, hweighed, _⟩ := h.weighed
  rw [h.post]
  -- a snapshot vote moves no tokens, a locked one those of the voter
  cases hweighed <;> exact ⟨_, _, _, _, rfl⟩

/-- An unlock pays the whole locked balance, in the governance token of now, and
removes the lock. -/
theorem unlockTokens_ok {voter : Address} {id : Nat}
    (h : unlockTokens voter id env w = (.ok u, w')) :
    ∃ m govToken, w.markets.market.lookup id = some m
      ∧ (m.status = .resolved ∨ m.status = .cancelled)
      ∧ 0 < w.voting.getLocked id voter ∧ w.admin.governanceToken = some govToken
      ∧ Transferable env w ⟨govToken, currentContractAddress, voter, w.voting.getLocked id voter⟩
      ∧ w' = { w.pay ⟨govToken, currentContractAddress, voter, w.voting.getLocked id voter⟩ with
          voting.lockedTokens := w.voting.lockedTokens.erase (id, voter)
          voting.lockedBalance := w.voting.lockedBalance.erase (id, voter) } := by
  simp only [unlockTokens, bind_eq_ok, requireAuth_ok, loadMarket_ok, failIf_ok, reads_eq_ok,
    orErr_ok, tokenTransfer_ok, update_eq_ok, and_assoc, exists_and_left, exists_eq_left',
    exists_eq_left, exists_const, not_le] at h
  obtain ⟨_, m, hm, hs, locked, _, _, hpos, govToken, htok, _, htr, hw'⟩ := h
  refine ⟨m, govToken, hm, ?_, hpos, htok, htr, hw'⟩
  by_contra hrunning
  exact hs ⟨fun h => hrunning (Or.inl h), fun h => hrunning (Or.inr h)⟩

theorem archiveMarket_ok {id : Nat} (h : archiveMarket id env w = (.ok u, w')) :
    ∃ ar, w' = { w with archive := ar } := by
  simp only [archiveMarket, bind_eq_ok, reads_eq_ok, orTrap_ok, update_eq_ok, and_assoc,
    exists_and_left, exists_eq_left'] at h
  obtain ⟨count, _, hw'⟩ := h
  exact ⟨_, hw'⟩

/-- Pruning removes a market that was resolved at least the grace period ago,
and its voting state; it looks at nothing else. -/
theorem pruneMarket_ok {id : Nat} (h : pruneMarket id env w = (.ok u, w')) :
    ∃ m t ar, w.markets.market.lookup id = some m ∧ m.status = .resolved
      ∧ m.resolvedAt = some t ∧ t + pruneGracePeriod ≤ w.timestamp
      ∧ w' = { w with
          archive := ar
          voting := w.voting.prune id m.options.length
          markets := w.markets.removeMarket id
          events := w.events ++ [.mktPrune id w.timestamp] } := by
  simp only [pruneMarket, bind_eq_ok, loadMarket_ok, failIf_ok, orErr_ok, reads_eq_ok, orTrap_ok,
    addU64_eq_some, update_eq_ok, publish_ok, and_assoc, exists_and_left, exists_eq_left',
    exists_eq_left, exists_const, not_lt] at h
  obtain ⟨m, hm, hs, t, ht, _, htime, _, v, harch, hw'⟩ := h
  obtain ⟨ar, rfl⟩ := archiveMarket_ok harch
  exact ⟨m, t, ar, hm, not_not.mp hs, ht, htime, hw'⟩

/-- The archive with one more id behind the last one. -/
def ArchiveStore.record (s : ArchiveStore) (marketId : Nat) : ArchiveStore where
  archivedMarketCount := some (s.archivedMarketCount.getD 0 + 1)
  archivedMarket := s.archivedMarket.insert (s.archivedMarketCount.getD 0 + 1) marketId

/-- Pruning records the id. -/
theorem pruneMarket_archive {id : Nat} (h : pruneMarket id env w = (.ok u, w')) :
    w'.archive = w.archive.record id := by
  simp only [pruneMarket, archiveMarket, bind_eq_ok, loadMarket_ok, failIf_ok, orErr_ok,
    reads_eq_ok, orTrap_ok, addU64_eq_some, update_eq_ok, publish_ok, and_assoc, exists_and_left,
    exists_eq_left', exists_eq_left, exists_const] at h
  obtain ⟨_, _, _, _, _, _, _, _, rfl⟩ := h
  rfl

/-- Pruning an empty voting state leaves it empty. -/
theorem VotingStore.prune_empty (id numOutcomes : Nat) :
    ({} : VotingStore).prune id numOutcomes = {} := by
  simp only [VotingStore.prune, Store.eraseAll_empty]
  rfl

end Rules

end PredictIQ.Contract
