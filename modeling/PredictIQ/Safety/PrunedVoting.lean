/-
  PredictIQ.Safety.PrunedVoting: what pruning leaves of a market's votes.

  `prune_market_voting_state` finds the votes and the locks through the voter
  registry, which lists every voter, and the tallies by counting up to the
  number of options.  A tally that a vote for cancellation opened is under no
  option, and stays for good.
-/
import PredictIQ.Safety.FallbackLocks

namespace PredictIQ.Contract

open Foundation Tx

variable {X : Externs}

/-! ## §1. The keys of one market. -/

/-- Nothing is stored for market `k`. -/
structure NoVotingKeys (s : VotingStore) (k : Nat) : Prop where
  vote : ∀ a, s.vote.lookup (k, a) = none
  lockedTokens : ∀ a, s.lockedTokens.lookup (k, a) = none
  lockedBalance : ∀ a, s.lockedBalance.lookup (k, a) = none
  voteTally : ∀ o, s.voteTally.lookup (k, o) = none
  disputeVoters : s.disputeVoters.lookup k = none

/-- Everything stored for market `k` of `n` options is found again: the voters are
in the registry, and the tallies under an option or the cancel sentinel. -/
structure KeysListed (s : VotingStore) (k n : Nat) : Prop where
  vote : ∀ a, s.vote.lookup (k, a) ≠ none → a ∈ s.getVoters k
  lockedTokens : ∀ a, s.lockedTokens.lookup (k, a) ≠ none → a ∈ s.getVoters k
  lockedBalance : ∀ a, s.lockedBalance.lookup (k, a) ≠ none → a ∈ s.getVoters k
  voteTally : ∀ o, s.voteTally.lookup (k, o) ≠ none → o = cancelOutcomeIndex ∨ o < n
  /-- A recorded vote has its tally. -/
  counted : ∀ a old, s.vote.lookup (k, a) = some old → s.voteTally.lookup (k, old.outcome) ≠ none

theorem NoVotingKeys.keysListed {s : VotingStore} {k : Nat} (h : NoVotingKeys s k) (n : Nat) : KeysListed s k n where
  vote a ha := absurd (h.vote a) ha
  lockedTokens a ha := absurd (h.lockedTokens a) ha
  lockedBalance a ha := absurd (h.lockedBalance a) ha
  voteTally o ho := absurd (h.voteTally o) ho
  counted a old hold := by
    rw [h.vote a] at hold
    cases hold

/-- Pruning clears all keys of the market but the cancel tally. -/
theorem KeysListed.prune_iff {s : VotingStore} {k n : Nat} (h : KeysListed s k n) (hn : n ≤ cancelOutcomeIndex) :
    NoVotingKeys (s.prune k n) k ↔ s.voteTally.lookup (k, cancelOutcomeIndex) = none := by
  have hlisted : ∀ {β : Type} (t : Store (Nat × Address) β), (∀ a, t.lookup (k, a) ≠ none → a ∈ s.getVoters k) →
      ∀ a, (Store.eraseAll t ((s.getVoters k).map fun v => (k, v))).lookup (k, a) = none := by
    intro β t ht a
    rw [Store.lookup_eraseAll]
    split
    · rfl
    · rename_i hmem
      by_contra hsome
      exact hmem (List.mem_map.mpr ⟨a, ht a hsome, rfl⟩)
  have htally : ∀ o, (s.prune k n).voteTally.lookup (k, o) = if o < n then none else s.voteTally.lookup (k, o) := by
    intro o
    show (Store.eraseAll s.voteTally ((List.range n).map fun o => (k, o))).lookup (k, o) = _
    rw [Store.lookup_eraseAll]
    simp
  constructor
  · intro hclear
    have hcancel := hclear.voteTally cancelOutcomeIndex
    rwa [htally, if_neg (not_lt.mpr hn)] at hcancel
  · intro hcancel
    refine ⟨?_, ?_, ?_, ?_, ?_⟩
    · exact hlisted s.vote h.vote
    · exact hlisted s.lockedTokens h.lockedTokens
    · exact hlisted s.lockedBalance h.lockedBalance
    · intro o
      rw [htally]
      split
      · rfl
      · rename_i ho
        by_contra hsome
        rcases h.voteTally o hsome with rfl | hlt
        · exact hsome hcancel
        · exact ho hlt
    · show (s.disputeVoters.erase k).lookup k = none
      rw [Store.lookup_erase_eq, if_pos rfl]

theorem KeysListed.of_sameOn {s s' : VotingStore} {k n : Nat} (h : KeysListed s k n) (hsame : SameOn k s s') :
    KeysListed s' k n := by
  have hvoters : s'.getVoters k = s.getVoters k := by
    unfold VotingStore.getVoters
    rw [hsame.disputeVoters]
  refine ⟨?_, ?_, ?_, ?_, ?_⟩
  · intro a
    rw [hsame.vote, hvoters]
    exact h.vote a
  · intro a
    rw [hsame.lockedTokens, hvoters]
    exact h.lockedTokens a
  · intro a
    rw [hsame.lockedBalance, hvoters]
    exact h.lockedBalance a
  · intro o
    rw [hsame.voteTally]
    exact h.voteTally o
  · intro a old
    rw [hsame.vote, hsame.voteTally]
    exact h.counted a old

/-! ## §2. One vote. -/

section Vote

variable {env : Env} {w v w' : World} {voter govToken : Address} {id outcome : Nat} {weight : Int} {m : Market}
  {vote : Vote}

/-- A vote opens the tally of its outcome, and that of a vote it revises. -/
theorem CastVoteEffect.tally_keys (h : CastVoteEffect env w voter id outcome weight m govToken v vote w') (o : Nat) :
    w'.voting.voteTally.lookup (id, o) ≠ none
      ↔ o = outcome ∨ (∃ old, w.voting.vote.lookup (id, voter) = some old ∧ o = old.outcome)
        ∨ w.voting.voteTally.lookup (id, o) ≠ none := by
  obtain ⟨ledger, actual, -, hweighed, -⟩ := h.weighed
  obtain ⟨-, htally, -⟩ := hweighed.tables
  obtain ⟨rfl, rfl, rfl⟩ := h.vote_eq
  rw [h.post]
  show (v.voting.voteTally.insert (vote.marketId, vote.outcome) _).lookup (vote.marketId, o) ≠ none ↔ _
  rw [Store.mem_insert_iff, htally, Prod.mk.injEq]
  cases hold : w.voting.vote.lookup (vote.marketId, vote.voter) with
  | none =>
      show _ ∨ w.voting.voteTally.lookup _ ≠ none ↔ _
      simp
  | some old =>
      show _ ∨ (w.voting.voteTally.insert (vote.marketId, old.outcome) _).lookup _ ≠ none ↔ _
      rw [Store.mem_insert_iff, Prod.mk.injEq]
      simp

/-- A first vote enters its voter in the registry. -/
theorem CastVoteEffect.getVoters_eq (h : CastVoteEffect env w voter id outcome weight m govToken v vote w') :
    w'.voting.getVoters id
      = w.voting.getVoters id ++ if w.voting.vote.lookup (id, voter) = none then [voter] else [] := by
  obtain ⟨ledger, actual, -, hweighed, -⟩ := h.weighed
  obtain ⟨-, -, hvoters⟩ := hweighed.tables
  obtain ⟨rfl, rfl, -⟩ := h.vote_eq
  have hretract : v.voting.getVoters vote.marketId = w.voting.getVoters vote.marketId := by
    unfold VotingStore.getVoters
    rw [hvoters]
    cases w.voting.vote.lookup (vote.marketId, vote.voter) <;> rfl
  rw [h.post]
  show (v.voting.record vote _).getVoters vote.marketId = _
  rw [getVoters_record, hretract]
  simp

theorem CastVoteEffect.keysListed (h : CastVoteEffect env w voter id outcome weight m govToken v vote w')
    (hI : KeysListed w.voting id m.options.length) : KeysListed w'.voting id m.options.length := by
  have hvoters := h.getVoters_eq
  -- the voter is listed after the vote, if not before
  have hlisted : ∀ a, a = voter ∨ a ∈ w.voting.getVoters id → a ∈ w'.voting.getVoters id := by
    intro a ha
    rw [hvoters, List.mem_append]
    rcases ha with rfl | ha
    · by_cases hnew : w.voting.vote.lookup (id, a) = none
      · rw [if_pos hnew]
        exact Or.inr (List.mem_singleton.mpr rfl)
      · exact Or.inl (hI.vote a hnew)
    · exact Or.inl ha
  have hkey : ∀ {β : Type} {t t' : Store (Nat × Address) β} {x : β}, t' = t.insert (id, voter) x →
      (∀ a, t.lookup (id, a) ≠ none → a ∈ w.voting.getVoters id) →
      ∀ a, t'.lookup (id, a) ≠ none → a ∈ w'.voting.getVoters id := by
    intro β t t' x ht hold a ha
    rw [ht, Store.mem_insert_iff, Prod.mk.injEq] at ha
    rcases ha with ⟨-, ha⟩ | ha
    · exact hlisted a (Or.inl ha)
    · exact hlisted a (Or.inr (hold a ha))
  have hlocks : (∀ a, w'.voting.lockedTokens.lookup (id, a) ≠ none → a ∈ w'.voting.getVoters id)
      ∧ ∀ a, w'.voting.lockedBalance.lookup (id, a) ≠ none → a ∈ w'.voting.getVoters id := by
    rcases h.locks with ⟨hbalance, htokens, -⟩ | ⟨-, hbalance, unlockTime, htokens⟩
    · rw [hbalance, htokens]
      exact ⟨fun a ha => hlisted a (Or.inr (hI.lockedTokens a ha)), fun a ha => hlisted a (Or.inr (hI.lockedBalance a ha))⟩
    · exact ⟨hkey htokens hI.lockedTokens, hkey hbalance hI.lockedBalance⟩
  refine ⟨hkey h.vote_table hI.vote, hlocks.1, hlocks.2, ?_, ?_⟩
  · intro o ho
    rcases (h.tally_keys o).mp ho with rfl | ⟨old, hold, rfl⟩ | ho
    · exact h.valid
    · exact hI.voteTally _ (hI.counted voter old hold)
    · exact hI.voteTally o ho
  · intro a old hold
    rw [h.tally_keys]
    rw [h.vote_table, Store.lookup_insert_eq] at hold
    split at hold
    · obtain rfl := Option.some.inj hold
      exact Or.inl h.vote_eq.2.2
    · exact Or.inr (Or.inr (hI.counted a old hold))

end Vote

/-! ## §3. Runs. -/

/-- Market `k` is disputed and votable, and nothing is stored for its votes yet. -/
structure FreshVoting (w : World) (k : Nat) (m : Market) : Prop where
  registered : Registered w
  lookup : w.markets.market.lookup k = some m
  disputed : m.status = .disputed
  snapshot : m.disputeSnapshotLedger ≠ none
  /-- `options.len()` is a `u32`. -/
  options : m.options.length ≤ cancelOutcomeIndex
  keys : NoVotingKeys w.voting k

/-- The step is no vote to cancel market `k` that goes through. -/
def NoCancelVote (X : Externs) (k : Nat) (t : Transition World Action) : Prop :=
  ∀ env voter weight, t.act = .call env (.castVote voter k cancelOutcomeIndex weight) →
    ¬Succeeds X env (.castVote voter k cancelOutcomeIndex weight) t.pre t.post

/-- A market keeps its options as long as it is there. -/
theorem Effect.keeps_options {env : Env} {w w' : World} {c : Call} {k : Nat} {m : Market} (hreg : Registered w)
    (h : Effect X env w c w') (hm : w.markets.market.lookup k = some m) (hc : c ≠ .pruneMarket k) :
    ∃ m', w'.markets.market.lookup k = some m' ∧ m'.options = m.options := by
  have hchange := h.marketChange hreg k
  rw [hm] at hchange
  generalize w'.markets.market.lookup k = record at hchange
  cases hchange with
  | same => exact ⟨m, rfl, rfl⟩
  | bet => exact ⟨_, rfl, rfl⟩
  | moved _ _ _ m' _ move =>
      obtain ⟨_, _, _, _, _, _, rfl⟩ := move.frame
      exact ⟨_, rfl, rfl⟩
  | released => exact ⟨_, rfl, rfl⟩
  | pruned => exact absurd rfl hc

/-- What holds between the votes on market `k` of `n` options and the history:
the keys are listed, and the cancel tally is there once somebody voted to cancel. -/
structure VotesListed (X : Externs) (k n : Nat) (history : List (Transition World Action)) (w : World) : Prop where
  registered : Registered w
  options : ∃ m, w.markets.market.lookup k = some m ∧ m.options.length = n
  keys : KeysListed w.voting k n
  cancel : w.voting.voteTally.lookup (k, cancelOutcomeIndex) = none ↔ ∀ t ∈ history, NoCancelVote X k t

section Runs

variable {k n : Nat} {history : List (Transition World Action)} {v : World}

theorem VotesListed.after_step (hI : VotesListed X k n history v) (hn : n ≤ cancelOutcomeIndex) (a : Action)
    (hprune : ∀ env, a ≠ .call env (.pruneMarket k)) :
    VotesListed X k n (history ++ [⟨v, a, step X v a⟩]) (step X v a) := by
  obtain ⟨m, hm, hlength⟩ := hI.options
  have hmarkets : Registered (step X v a)
      ∧ ∃ m', (step X v a).markets.market.lookup k = some m' ∧ m'.options.length = n := by
    cases a with
    | call env c =>
        rcases step_call_effect X env c v with hsame | heff
        · rw [hsame]
          exact ⟨hI.registered, hI.options⟩
        · obtain ⟨m', hm', hoptions⟩ := heff.keeps_options hI.registered hm fun hc => hprune env (by rw [hc])
          exact ⟨heff.registered hI.registered, m', hm', by rw [hoptions, hlength]⟩
    | advance seconds ledgers => exact ⟨hI.registered.of_markets rfl, hI.options⟩
    | external balances => exact ⟨hI.registered.of_markets rfl, hI.options⟩
  rcases step_votes_cases (X := X) k v a hprune with hvote | ⟨hsame, hcast⟩
  · obtain ⟨env, voter, outcome, weight, rfl, hsucc⟩ := hvote
    obtain ⟨br, evs, m₁, govToken, u, vote, heff⟩ := hsucc.votes
    obtain rfl : m = m₁ := Option.some.inj (hm.symm.trans heff.lookup)
    subst hlength
    refine ⟨hmarkets.1, hmarkets.2, heff.keysListed hI.keys, ?_⟩
    -- the tally is there if it was, or if this vote opened it
    have hkeys := heff.tally_keys cancelOutcomeIndex
    have hopened : (step X v (.call env (.castVote voter k outcome weight))).voting.voteTally.lookup (k, cancelOutcomeIndex) = none
        ↔ cancelOutcomeIndex ≠ outcome ∧ v.voting.voteTally.lookup (k, cancelOutcomeIndex) = none := by
      change _ ≠ none ↔ cancelOutcomeIndex = outcome
        ∨ (∃ old, v.voting.vote.lookup (k, voter) = some old ∧ cancelOutcomeIndex = old.outcome)
        ∨ v.voting.voteTally.lookup (k, cancelOutcomeIndex) ≠ none at hkeys
      rw [← not_iff_not, not_and_or, not_not]
      refine hkeys.trans ?_
      constructor
      · intro h
        rcases h with h | ⟨old, hold, hcancel⟩ | h
        · exact Or.inl h
        · have hthere := hI.keys.counted voter old hold
          rw [← hcancel] at hthere
          exact Or.inr hthere
        · exact Or.inr h
      · intro h
        exact h.imp_right Or.inr
    have hthis : NoCancelVote X k ⟨v, .call env (.castVote voter k outcome weight), step X v (.call env (.castVote voter k outcome weight))⟩
        ↔ cancelOutcomeIndex ≠ outcome := by
      constructor
      · intro h hcancel
        subst hcancel
        exact h env voter weight rfl hsucc
      · intro hne env' voter' weight' hact
        cases hact
        exact absurd rfl hne
    rw [hopened, hI.cancel]
    simp only [List.mem_append, List.mem_singleton, or_imp, forall_and, forall_eq, hthis]
    exact and_comm
  · refine ⟨hmarkets.1, hmarkets.2, hI.keys.of_sameOn hsame, ?_⟩
    rw [hsame.voteTally, hI.cancel]
    simp only [List.mem_append, List.mem_singleton, or_imp, forall_and, forall_eq]
    refine (and_iff_left ?_).symm
    intro env voter weight hact hsucc
    have hsome := castWeight_eq_some.mpr ⟨env, cancelOutcomeIndex, _, hact, hsucc⟩
    rw [hcast voter] at hsome
    cases hsome

theorem FreshVoting.votesListed {m : Market} (h0 : FreshVoting v k m) (as : List Action)
    (hprune : ∀ env, Action.call env (.pruneMarket k) ∉ as) :
    VotesListed X k m.options.length (trace (step X) v as) (run (step X) v as) := by
  refine history_invariant (step X) (VotesListed X k m.options.length)
    (fun t => ∀ env, t.act ≠ .call env (.pruneMarket k)) ?_ ?_ as ?_
  · refine ⟨h0.registered, ⟨m, h0.lookup, rfl⟩, h0.keys.keysListed _, ?_⟩
    exact iff_of_true (h0.keys.voteTally _) fun t ht => by cases ht
  · intro bs a hI hnoprune
    exact hI.after_step h0.options a hnoprune
  · intro t ht env hact
    exact hprune env (hact ▸ act_mem_of_mem_trace (step X) ht)

/-- What a successful `prune_market` does to the voting state. -/
theorem Succeeds.prunes {env : Env} {w w' : World} (h : Succeeds X env (.pruneMarket k) w w') :
    ∃ m, w.markets.market.lookup k = some m ∧ w'.voting = w.voting.prune k m.options.length := by
  obtain ⟨r, hr⟩ := h
  obtain ⟨m, t, ar, hm, -, -, -, rfl⟩ := pruneMarket_ok (done_eq_ok.mp hr).1
  exact ⟨m, hm, rfl⟩

end Runs

/-- **Pruning clears the votes exactly where nobody voted to cancel.**  After any
run from a fresh dispute a successful pruning leaves nothing of the market's
votes and touches no other market's, if and only if no vote for cancellation
went through; the other markets are left alone in any case. -/
theorem pruned_voting_iff (X : Externs) (w : World) (k : Nat) (m : Market) (as : List Action) (h0 : FreshVoting w k m)
    (hprune : ∀ env, Action.call env (.pruneMarket k) ∉ as) (env : Env) (w' : World)
    (hsucc : Succeeds X env (.pruneMarket k) (run (step X) w as) w') :
    (NoVotingKeys w'.voting k ∧ ∀ k', k' ≠ k → SameOn k' (run (step X) w as).voting w'.voting)
      ↔ ∀ t ∈ trace (step X) w as, NoCancelVote X k t := by
  have hI := h0.votesListed (X := X) as hprune
  obtain ⟨m', hm', hvoting⟩ := hsucc.prunes
  obtain ⟨m₁, hm₁, hlength⟩ := hI.options
  obtain rfl : m' = m₁ := Option.some.inj (hm'.symm.trans hm₁)
  rw [hvoting, hlength, ← hI.cancel, ← hI.keys.prune_iff h0.options]
  refine and_iff_left fun k' hne => ?_
  exact VotingStore.prune_sameOn _ hne.symm _

theorem sampleBallot_freshVoting :
    FreshVoting sampleBallot 1 { (sampleMarket ⟨2⟩ ⟨10⟩).newMarket 1 0 with
      status := .disputed, disputeTimestamp := some 0, disputeSnapshotLedger := some 7 } := by
  have hlookup : ∀ k m, sampleBallot.markets.market.lookup k = some m → k = 1 ∧ m.id = 1 := by
    intro k m hm
    change (MarketStore.addMarket _ _ _).market.lookup k = some m at hm
    rw [MarketStore.lookup_addMarket] at hm
    split at hm
    · rename_i hk
      obtain rfl := Option.some.inj hm
      exact ⟨hk, rfl⟩
    · cases hm
  refine ⟨⟨?_, ?_⟩, rfl, rfl, Option.some_ne_none 7, by decide, ?_⟩
  · intro k m hm
    obtain ⟨rfl, hid⟩ := hlookup k m hm
    exact hid
  · intro k m hm
    obtain ⟨rfl, -⟩ := hlookup k m hm
    exact ⟨le_refl 1, le_refl 1⟩
  · exact ⟨fun _ => rfl, fun _ => rfl, fun _ => rfl, fun _ => rfl, rfl⟩

/-- One vote for `outcome`, the resolution by the admin, and the grace period. -/
def sampleResolution (outcome : Nat) : List Action :=
  [.call signedByAll (.castVote ⟨3⟩ 1 outcome 50), .call signedByAll (.resolveMarket 1 0), .advance pruneGracePeriod 0]

/-- The state after the market was pruned on top of that. -/
def samplePruned (outcome : Nat) : World :=
  step sampleExterns (run (step sampleExterns) sampleBallot (sampleResolution outcome)) (.call signedByAll (.pruneMarket 1))

theorem pruned_voting_iff_sample :
    (NoVotingKeys (samplePruned 1).voting 1 ∧ ∀ k', k' ≠ 1 →
        SameOn k' (run (step sampleExterns) sampleBallot (sampleResolution 1)).voting (samplePruned 1).voting)
      ↔ ∀ t ∈ trace (step sampleExterns) sampleBallot (sampleResolution 1), NoCancelVote sampleExterns 1 t :=
  pruned_voting_iff sampleExterns sampleBallot 1 _ (sampleResolution 1) sampleBallot_freshVoting
    (by simp [sampleResolution]) signedByAll _ (succeeds_of_isOk (by decide +kernel))

/-- **The tally of a vote to cancel outlives its market.** -/
theorem samplePruned_leftover :
    Succeeds sampleExterns signedByAll (.pruneMarket 1)
        (run (step sampleExterns) sampleBallot (sampleResolution cancelOutcomeIndex)) (samplePruned cancelOutcomeIndex)
      ∧ ¬NoVotingKeys (samplePruned cancelOutcomeIndex).voting 1 := by
  refine ⟨succeeds_of_isOk (by decide +kernel), fun h => ?_⟩
  exact absurd (h.voteTally cancelOutcomeIndex) (by decide +kernel)

end PredictIQ.Contract
