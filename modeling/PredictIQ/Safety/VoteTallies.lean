/-
  PredictIQ.Safety.VoteTallies: the tallies of a dispute are its recorded votes.

  A revision takes the old weight out of its tally before the new weight is
  known, and may then add to the same tally.  What carries the argument is
  that a tally moves by exactly what the sum over the recorded votes moves by:
  `retract` takes out what the record held, `record` adds what it holds now.
-/
import PredictIQ.Contract.Lifecycle

namespace PredictIQ.Contract

open Foundation

variable {X : Externs}

/-! ## §1. The tables of one market. -/

/-- The weight of the recorded votes of market `k` for outcome `o`. -/
def weightFor (s : VotingStore) (k o : Nat) : Int :=
  Store.total (fun key vote => if key.1 = k ∧ vote.outcome = o then vote.weight else 0) s.vote

/-- Tallies are sums of recorded votes, and the registry lists each voter once. -/
structure TalliesExact (s : VotingStore) (k : Nat) : Prop where
  tally : ∀ o, s.getTally k o = weightFor s k o
  listed : ∀ a, a ∈ s.getVoters k ↔ s.vote.lookup (k, a) ≠ none
  once : (s.getVoters k).Nodup

/-- The three tables are all that matters. -/
theorem TalliesExact.of_tables {s s' : VotingStore} {k : Nat} (h : TalliesExact s k)
    (hvote : s'.vote = s.vote) (htally : s'.voteTally = s.voteTally)
    (hvoters : s'.disputeVoters = s.disputeVoters) : TalliesExact s' k := by
  obtain ⟨htal, hlist, honce⟩ := h
  refine ⟨?_, ?_, ?_⟩
  · unfold VotingStore.getTally weightFor at htal ⊢
    rw [htally, hvote]
    exact htal
  · unfold VotingStore.getVoters at hlist ⊢
    rw [hvoters, hvote]
    exact hlist
  · unfold VotingStore.getVoters at honce ⊢
    rw [hvoters]
    exact honce

/-! ## §2. One vote. -/

theorem getTally_addTally (s : VotingStore) (id o k o' : Nat) (weight : Int) :
    (s.addTally id o weight).getTally k o'
      = s.getTally k o' + if k = id ∧ o' = o then weight else 0 := by
  unfold VotingStore.addTally VotingStore.getTally
  rw [Store.lookup_insert_eq]
  by_cases hkey : k = id ∧ o' = o
  · obtain ⟨rfl, rfl⟩ := hkey
    simp
  · simp [hkey]

/-- Retracting takes out of a tally what the old vote had put there. -/
theorem getTally_retract (s : VotingStore) (id k o : Nat) (old : Option Vote) :
    (s.retract id old).getTally k o
      = s.getTally k o - old.elim 0 fun v => if id = k ∧ v.outcome = o then v.weight else 0 := by
  cases old with
  | none =>
      show s.getTally k o = s.getTally k o - 0
      omega
  | some v =>
      show (s.addTally id v.outcome (-v.weight)).getTally k o
        = s.getTally k o - if id = k ∧ v.outcome = o then v.weight else 0
      rw [getTally_addTally]
      by_cases hkey : id = k ∧ v.outcome = o
      · rw [if_pos ⟨hkey.1.symm, hkey.2.symm⟩, if_pos hkey]
        omega
      · rw [if_neg fun h => hkey ⟨h.1.symm, h.2.symm⟩, if_neg hkey]
        omega

theorem getTally_record (s : VotingStore) (vote : Vote) (isFirst : Bool) (k o : Nat) :
    (s.record vote isFirst).getTally k o
      = s.getTally k o + if k = vote.marketId ∧ o = vote.outcome then vote.weight else 0 :=
  getTally_addTally _ _ _ _ _ _

theorem getVoters_record (s : VotingStore) (vote : Vote) (isFirst : Bool) (k : Nat) :
    (s.record vote isFirst).getVoters k
      = s.getVoters k ++ if isFirst = true ∧ k = vote.marketId then [vote.voter] else [] := by
  show ((if isFirst = true then
      s.disputeVoters.insert vote.marketId (s.getVoters vote.marketId ++ [vote.voter])
    else s.disputeVoters).lookup k).getD [] = _
  cases isFirst with
  | false => simp [VotingStore.getVoters]
  | true =>
      rw [if_pos rfl, Store.lookup_insert_eq]
      by_cases hk : k = vote.marketId
      · subst hk
        simp
      · simp [hk, VotingStore.getVoters]

/-- Recording a vote over the retracted old one keeps every market's tables exact. -/
theorem TalliesExact.revise {s : VotingStore} {k : Nat} (vote : Vote) (h : TalliesExact s k) :
    TalliesExact ((s.retract vote.marketId (s.vote.lookup (vote.marketId, vote.voter))).record vote
      (s.vote.lookup (vote.marketId, vote.voter)).isNone) k := by
  generalize hold : s.vote.lookup (vote.marketId, vote.voter) = old
  have hvotes : ∀ a, (s.vote.insert (vote.marketId, vote.voter) vote).lookup (k, a) ≠ none
      ↔ (k = vote.marketId ∧ a = vote.voter) ∨ s.vote.lookup (k, a) ≠ none := by
    intro a
    rw [Store.mem_insert_iff, Prod.mk.injEq]
  have hvoters : (s.retract vote.marketId old).getVoters k = s.getVoters k := by
    cases old <;> rfl
  have htable : ((s.retract vote.marketId old).record vote old.isNone).vote
      = s.vote.insert (vote.marketId, vote.voter) vote := by
    cases old <;> rfl
  refine ⟨?_, ?_, ?_⟩
  · intro o
    have htally := h.tally o
    -- the sum over the records moves by the same two amounts
    unfold weightFor at htally ⊢
    rw [getTally_record, getTally_retract, htable, Store.total_insert, hold, htally]
    by_cases hkey : vote.marketId = k ∧ vote.outcome = o
    · rw [if_pos ⟨hkey.1.symm, hkey.2.symm⟩, if_pos hkey]
    · rw [if_neg fun h => hkey ⟨h.1.symm, h.2.symm⟩, if_neg hkey]
  · intro a
    rw [htable, hvotes, getVoters_record, hvoters, List.mem_append, h.listed a]
    by_cases hk : k = vote.marketId
    · subst hk
      -- a voter already on record is listed, a new one is appended
      cases old with
      | none => simp [or_comm]
      | some v =>
          constructor
          · intro hmem
            exact Or.inr (hmem.resolve_right (by simp))
          · intro hmem
            rcases hmem with ⟨_, rfl⟩ | hmem
            · exact Or.inl (by rw [hold]; exact Option.some_ne_none v)
            · exact Or.inl hmem
    · simp [hk]
  · rw [getVoters_record, hvoters]
    split
    · rename_i hfirst
      obtain ⟨hnone, rfl⟩ := hfirst
      rw [Option.isNone_iff_eq_none] at hnone
      subst hnone
      -- a voter without a record is not listed yet
      have hnew : vote.voter ∉ s.getVoters vote.marketId := fun hmem =>
        (h.listed vote.voter).mp hmem hold
      rw [← List.concat_eq_append]
      exact h.once.concat hnew
    · rw [List.append_nil]
      exact h.once

/-- Weighing a vote touches none of the three tables. -/
theorem VoteWeighed.tables {env : Env} {w v : World} {govToken voter : Address} {m : Market}
    {id ledger : Nat} {weight actual : Int}
    (h : VoteWeighed env w govToken voter m id ledger weight actual v) :
    v.voting.vote = w.voting.vote ∧ v.voting.voteTally = w.voting.voteTally
      ∧ v.voting.disputeVoters = w.voting.disputeVoters := by
  cases h <;> exact ⟨rfl, rfl, rfl⟩

theorem CastVoteEffect.talliesExact {env : Env} {w v w' : World} {voter govToken : Address}
    {id outcome k : Nat} {weight : Int} {m : Market} {vote : Vote}
    (h : CastVoteEffect env w voter id outcome weight m govToken v vote w')
    (hI : TalliesExact w.voting k) :
    TalliesExact w'.voting k := by
  obtain ⟨ledger, actual, _, hweighed, _⟩ := h.weighed
  obtain ⟨hvote, htally, hvoters⟩ := hweighed.tables
  obtain ⟨hid, hvoter, _⟩ := h.vote_eq
  subst hid
  subst hvoter
  -- what the weighing leaves is recorded as if it had not happened
  have hrevised := hI.revise vote
  refine hrevised.of_tables ?_ ?_ ?_
  · rw [h.post]
    show v.voting.vote.insert _ _ = _
    rw [hvote]
    rfl
  · rw [h.post]
    show v.voting.voteTally.insert _ ((v.voting.voteTally.lookup _).getD 0 + _) = _
    rw [htally]
    rfl
  · rw [h.post]
    simp only [VotingStore.record, VotingStore.addTally, VotingStore.getVoters, hvoters]

/-! ## §3. Pruning another market. -/

theorem TalliesExact.prune {s : VotingStore} {k id n : Nat} (h : TalliesExact s k) (hne : id ≠ k) :
    TalliesExact (s.prune id n) k := by
  -- every key that goes carries the other id
  have hkeys : ∀ (as : List Address) (a : Address), (k, a) ∉ as.map fun v => (id, v) := by
    intro as a hmem
    obtain ⟨_, _, heq⟩ := List.mem_map.mp hmem
    exact hne (Prod.mk.inj heq).1
  have hvote : ∀ a, (s.prune id n).vote.lookup (k, a) = s.vote.lookup (k, a) := fun a =>
    Store.lookup_eraseAll_of_not_mem (hkeys _ a)
  have hvoters : (s.prune id n).getVoters k = s.getVoters k := by
    show ((s.disputeVoters.erase id).lookup k).getD [] = _
    rw [Store.lookup_erase_eq, if_neg hne.symm]
    rfl
  refine ⟨?_, ?_, ?_⟩
  · intro o
    have htally : (s.prune id n).getTally k o = s.getTally k o := by
      show ((Store.eraseAll s.voteTally _).lookup (k, o)).getD 0 = _
      rw [Store.lookup_eraseAll_of_not_mem]
      · rfl
      · intro hmem
        obtain ⟨_, _, heq⟩ := List.mem_map.mp hmem
        exact hne (Prod.mk.inj heq).1
    rw [htally, h.tally o]
    refine (Store.total_eraseAll ?_).symm
    intro key hkey v
    obtain ⟨_, _, rfl⟩ := List.mem_map.mp hkey
    exact if_neg fun hk => hne hk.1
  · intro a
    rw [hvoters, hvote]
    exact h.listed a
  · rw [hvoters]
    exact h.once

/-! ## §4. Runs. -/

/-- Market `k` is disputed, carries a snapshot, and nobody has voted on it. -/
structure FreshDispute (w : World) (k : Nat) : Prop where
  disputed : ∃ m ledger, w.markets.market.lookup k = some m ∧ m.status = .disputed
    ∧ m.disputeSnapshotLedger = some ledger
  noVotes : ∀ a, w.voting.vote.lookup (k, a) = none
  noTallies : ∀ o, w.voting.getTally k o = 0
  noVoters : w.voting.getVoters k = []

theorem FreshDispute.talliesExact {w : World} {k : Nat} (h : FreshDispute w k) :
    TalliesExact w.voting k := by
  refine ⟨?_, ?_, ?_⟩
  · intro o
    rw [h.noTallies o]
    refine (Store.total_eq_zero ?_).symm
    intro key v hv
    refine if_neg fun hkey => ?_
    -- a recorded vote on this market would be one
    obtain ⟨k', a⟩ := key
    obtain rfl : k' = k := hkey.1
    rw [h.noVotes a] at hv
    cases hv
  · intro a
    rw [h.noVoters, h.noVotes a]
    simp
  · rw [h.noVoters]
    exact List.nodup_nil

/-- **Vote tallies are exactly the recorded votes** after any run from a fresh
dispute: whatever is called and fails on the way, as long as the market is not
pruned, its tallies are the sums of its recorded votes and its registry lists
each voter with a vote once. -/
theorem tallies_are_votes (X : Externs) (w : World) (k : Nat) (as : List Action)
    (h0 : FreshDispute w k) (hC : ∀ env, Action.call env (.pruneMarket k) ∉ as) :
    TalliesExact (run (step X) w as).voting k := by
  refine run_call_invariant (fun v => TalliesExact v.voting k)
    (fun t => ∀ env, t.act ≠ .call env (.pruneMarket k)) h0.talliesExact ?_
    (fun _ _ h => h) (fun _ h => h) as ?_
  · intro v env c v' hI hc hsucc
    rcases hsucc.effect.voting with ⟨voter, id, outcome, weight, rfl⟩ | ⟨id, n, rfl, hv⟩ | hv
    · obtain ⟨br, evs, m, govToken, u, vote, heff⟩ := hsucc.votes
      exact heff.talliesExact hI
    · have hne : id ≠ k := fun hid => hc env (by rw [hid])
      rw [hv]
      exact hI.prune hne
    · rw [hv]
      exact hI
  · intro t ht env hact
    exact hC env (hact ▸ act_mem_of_mem_trace (step X) ht)

/-- A disputed market with a snapshot, and a governance token. -/
def sampleBallot : World :=
  { sampleGenesis with
    admin.admin := some ⟨1⟩
    admin.governanceToken := some ⟨11⟩
    markets := ({} : MarketStore).addMarket
      { (sampleMarket ⟨2⟩ ⟨10⟩).newMarket 1 0 with
        status := .disputed, disputeTimestamp := some 0, disputeSnapshotLedger := some 7 } 3600 }

/-- Calls signed by everybody, the contract included. -/
def signedByAll : Env where
  authorized := fun _ => true

/-- Two voters, one of whom revises, and a vote that fails for its outcome. -/
def sampleVotes : List Action :=
  [.call signedByAll (.castVote ⟨3⟩ 1 0 50), .call signedByAll (.castVote ⟨4⟩ 1 1 70),
    .call signedByAll (.castVote ⟨4⟩ 1 2 70), .call signedByAll (.castVote ⟨3⟩ 1 cancelOutcomeIndex 20)]

theorem tallies_are_votes_sample :
    TalliesExact (run (step sampleExterns) sampleBallot sampleVotes).voting 1 := by
  refine tallies_are_votes sampleExterns sampleBallot 1 sampleVotes ⟨⟨_, _, rfl, rfl, rfl⟩, ?_, ?_, rfl⟩
    ?_
  · intro a
    rfl
  · intro o
    rfl
  · intro env
    simp [sampleVotes]

example : ((run (step sampleExterns) sampleBallot sampleVotes).voting.getTally 1 0,
    (run (step sampleExterns) sampleBallot sampleVotes).voting.getTally 1 1,
    (run (step sampleExterns) sampleBallot sampleVotes).voting.getTally 1 cancelOutcomeIndex)
    = (0, 70 * 10 ^ 11, 20 * 10 ^ 11) := by decide

end PredictIQ.Contract
