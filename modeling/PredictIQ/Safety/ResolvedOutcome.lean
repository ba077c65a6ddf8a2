/-
  PredictIQ.Safety.ResolvedOutcome: does a resolved market name an option?

  Of the writers of `winningOutcome`, `resolve_market` checks the range and
  the voted branch never runs (nobody can vote).  `attempt_oracle_resolution`
  takes the stored answer as it is, and finalisation carries it over.  The
  result is in range as long as the oracle answers it takes are.
-/
import PredictIQ.Safety.DisputeVoting

namespace PredictIQ.Contract

open Foundation Tx

variable {X : Externs}

/-! ## §1. Named outcomes. -/

/-- Every resolved market names one of its options. -/
def ResolvedNamesOption (w : World) : Prop :=
  ∀ k m, w.markets.market.lookup k = some m → m.status = .resolved →
    ∃ o, m.winningOutcome = some o ∧ o < m.options.length

/-- `get_market_votes` returns the stored vote records of the market. -/
def ReturnsStoredVotes (X : Externs) : Prop :=
  ∀ s id v, v ∈ X.getMarketVotes s id ↔ ∃ voter, s.vote.lookup (id, voter) = some v

/-- Market `k` is due for resolution by oracle, to `outcome`. -/
structure OracleDue (w : World) (k : Nat) (m : Market) (outcome : Nat) : Prop where
  lookup : w.markets.market.lookup k = some m
  active : m.status = .active
  due : m.resolutionDeadline ≤ w.timestamp
  fresh : NoneStale w k (effectiveMaxStaleness m.oracleConfig)
    (List.range (m.oracleConfig.minResponses.getD 1))
  answered : w.oracles.result.lookup (k, 0) = some outcome

/-- An attempt to resolve a market by oracle, when that is due, finds an answer
among the options. -/
def AnswerInRange (t : Transition World Action) : Prop :=
  ∀ env k, t.act = .call env (.attemptOracleResolution k) →
    ∀ m outcome, OracleDue t.pre k m outcome → outcome < m.options.length

/-- What holds of one record throughout: an outcome it names is an option, and
a resolved market names one. -/
structure OutcomeNamed (m : Market) : Prop where
  inRange : ∀ o, m.winningOutcome = some o → o < m.options.length
  named : m.status = .resolved → m.winningOutcome ≠ none

/-! ## §2. One call. -/

/-- With no votes stored there is nothing for the voted branch to decide. -/
theorem not_votesDecide {w : World} (hX : ReturnsStoredVotes X) (hns : NoSnapshots w) {id o : Nat} :
    ¬VotesDecide (X.getMarketVotes w.voting id) o := by
  have hempty : X.getMarketVotes w.voting id = [] := by
    refine List.eq_nil_iff_forall_not_mem.mpr ?_
    intro v hv
    obtain ⟨voter, hlookup⟩ := (hX _ _ _).mp hv
    rw [hns.voting] at hlookup
    cases hlookup
  rw [hempty]
  exact not_votesDecide_nil o

theorem LifecycleMove.outcomeNamed {w : World} {id : Nat} {f : LifecycleCall} {m m' : Market}
    (hX : ReturnsStoredVotes X) (hns : NoSnapshots w) (h : LifecycleMove X w id m f m')
    (hlookup : w.markets.market.lookup id = some m)
    (hanswer : f = .attemptOracleResolution → ∀ o, OracleDue w id m o → o < m.options.length)
    (hm : OutcomeNamed m) : OutcomeNamed m' := by
  cases h with
  | answer outcome active due fresh answered =>
      refine ⟨?_, fun hs => by cases hs⟩
      intro o ho
      -- `attempt_oracle_resolution` takes the answer as it is
      obtain rfl := Option.some.inj ho
      exact hanswer rfl outcome ⟨hlookup, active, due, fresh, answered⟩
  | confirm t outcome pending since elapsed decided =>
      refine ⟨hm.inRange, ?_⟩
      intro _
      -- confirmation carries the recorded outcome over
      show m.winningOutcome ≠ none
      rw [decided]
      exact Option.some_ne_none outcome
  | decide t outcome disputed since elapsed votes =>
      -- nobody has voted, so no vote decides
      exact absurd votes (not_votesDecide hX hns)
  | dispute t pending => exact ⟨hm.inRange, fun hs => by cases hs⟩
  | resolve outcome running valid =>
      refine ⟨?_, fun _ => Option.some_ne_none outcome⟩
      intro o ho
      -- `resolve_market` checks the range itself
      obtain rfl := Option.some.inj ho
      exact valid
  | cancel => exact ⟨hm.inRange, fun hs => by cases hs⟩
  | voteDown => exact ⟨hm.inRange, fun hs => by cases hs⟩

theorem MarketChange.outcomeNamed {w : World} {k : Nat} {c : Call} {o : Option Market}
    {m' : Market} (hX : ReturnsStoredVotes X) (hns : NoSnapshots w)
    (h : MarketChange X w k c o (some m')) (hlookup : o = w.markets.market.lookup k)
    (ho : ∀ m, o = some m → OutcomeNamed m)
    (hanswer : c = .attemptOracleResolution k → ∀ m outcome, OracleDue w k m outcome →
      outcome < m.options.length) :
    OutcomeNamed m' := by
  cases h with
  | same => exact ho m' rfl
  | created => exact ⟨fun o h => (by cases h), fun h => (by cases h)⟩
  | bet b m fee counts => exact ⟨(ho m rfl).inRange, (ho m rfl).named⟩
  | released token m => exact ⟨(ho m rfl).inRange, (ho m rfl).named⟩
  | moved _ f m _ hc move =>
      refine move.outcomeNamed hX hns hlookup.symm ?_ (ho m rfl)
      intro hf
      subst hf
      have hcall : c = .attemptOracleResolution k := by
        cases c <;> cases hc
        rfl
      exact hanswer hcall m

/-! ## §3. Runs. -/

/-- The invariant of a run whose oracle answers are in range. -/
structure OutcomesNamed (w : World) : Prop where
  registered : Registered w
  noSnapshots : NoSnapshots w
  records : ∀ k m, w.markets.market.lookup k = some m → OutcomeNamed m

theorem OutcomesNamed.resolvedNamesOption {w : World} (h : OutcomesNamed w) :
    ResolvedNamesOption w := by
  intro k m hm hs
  obtain ⟨o, ho⟩ := Option.ne_none_iff_exists'.mp ((h.records k m hm).named hs)
  exact ⟨o, ho, (h.records k m hm).inRange o ho⟩

theorem Effect.outcomesNamed {env : Env} {w w' : World} {c : Call} (hX : ReturnsStoredVotes X)
    (hI : OutcomesNamed w) (hC : AnswerInRange ⟨w, .call env c, w'⟩) (h : Effect X env w c w') :
    OutcomesNamed w' := by
  refine ⟨h.registered hI.registered, h.noSnapshots hI.registered hI.noSnapshots, ?_⟩
  intro k m' hm'
  have hchange := h.marketChange hI.registered k
  rw [hm'] at hchange
  refine hchange.outcomeNamed hX hI.noSnapshots rfl (fun m hm => hI.records k m hm) ?_
  intro hc
  subst hc
  exact hC env k rfl

/-- **A resolved market names an option** after every run in which the oracle
answers that `attempt_oracle_resolution` takes are options of their market. -/
theorem resolved_names_option (X : Externs) (hX : ReturnsStoredVotes X)
    (b : Address → Address → Nat) (t s : Nat) (as : List Action)
    (hC : ∀ tr ∈ trace (step X) (genesis b t s) as, AnswerInRange tr) :
    ResolvedNamesOption (run (step X) (genesis b t s) as) := by
  have h0 : OutcomesNamed (genesis b t s) :=
    ⟨.genesis b t s, .genesis b t s, fun k m hm => by cases hm⟩
  exact (run_call_invariant OutcomesNamed AnswerInRange h0
    (fun hI hc hsucc => hsucc.effect.outcomesNamed hX hI hc)
    (fun _ _ hI => ⟨hI.registered.of_markets rfl,
      ⟨hI.noSnapshots.snapshot, hI.noSnapshots.voting⟩, hI.records⟩)
    (fun _ hI => ⟨hI.registered.of_markets rfl,
      ⟨hI.noSnapshots.snapshot, hI.noSnapshots.voting⟩, hI.records⟩) as hC).resolvedNamesOption

/-- The admin's answer for the sample market, then its resolution. -/
def sampleOracleRun (outcome : Nat) : List Action :=
  sampleOpening 100 1000 ++
    [.advance 200000 40000,
      .call everybody (.setOracleResult 1 0 outcome),
      .call everybody (.attemptOracleResolution 1),
      .advance 300000 60000,
      .call everybody (.finalizeResolution 1)]

theorem storedVotes_returns : ReturnsStoredVotes sampleExterns := by
  intro s id v
  show v ∈ storedVotes s id ↔ _
  simp only [storedVotes, List.mem_map, List.mem_filter, decide_eq_true_eq]
  constructor
  · intro h
    obtain ⟨⟨⟨id', voter⟩, v'⟩, ⟨hmem, rfl⟩, rfl⟩ := h
    exact ⟨voter, Store.mem_entries.mp hmem⟩
  · intro h
    obtain ⟨voter, hlookup⟩ := h
    exact ⟨⟨(id, voter), v⟩, ⟨Store.mem_entries.mpr hlookup, rfl⟩, rfl⟩

/-- With the answer 1 the sample market resolves to its second option. -/
theorem resolved_names_option_sample :
    ResolvedNamesOption (sampleRun (sampleOracleRun 1)) := by
  refine resolved_names_option sampleExterns storedVotes_returns _ 0 0 (sampleOracleRun 1) ?_
  intro tr htr env id hact m o hdue
  simp only [sampleOracleRun, sampleOpening, List.cons_append, List.nil_append, trace,
    List.mem_cons, List.not_mem_nil, or_false] at htr
  rcases htr with rfl | rfl | rfl | rfl | rfl | rfl | rfl | rfl <;> cases hact
  obtain rfl : 1 = o := Option.some.inj hdue.answered
  obtain rfl := Option.some.inj hdue.lookup
  decide

/-- **An answer of 7 resolves a market with two options to outcome 7.** -/
theorem sampleOracleRun_out_of_range :
    Reachable sampleExterns (sampleRun (sampleOracleRun 7))
      ∧ ¬ResolvedNamesOption (sampleRun (sampleOracleRun 7)) := by
  refine ⟨sampleRun_reachable (sampleOracleRun 7), ?_⟩
  intro h
  obtain ⟨o, ho, hlt⟩ := h 1 _ rfl rfl
  obtain rfl : 7 = o := Option.some.inj ho
  exact absurd hlt (by decide)

end PredictIQ.Contract
