/-
  PredictIQ.Safety.DisputeVoting: can a dispute be voted on?

  `file_dispute` sets the status and the dispute time, and no function sets
  the snapshot ledger that `cast_vote` requires.  A dispute is therefore never
  votable: the property holds of a reachable state exactly when no market in
  it is disputed.
-/
import PredictIQ.Safety.StatusMachine

namespace PredictIQ.Contract

open Foundation Tx

variable {X : Externs}

/-! ## §1. Votable disputes. -/

/-- `voter`'s call is one that the dispute on `m` is meant to admit: the
breaker is closed, the outcome is valid, and the governance token reports a
positive balance at the snapshot with a nonzero normalized weight. -/
structure EligibleVote (env : Env) (w : World) (m : Market) (voter : Address) (outcome : Nat) :
    Prop where
  closed : w.breaker.getState = .closed
  signed : env.authorized voter = true
  valid : outcome = cancelOutcomeIndex ∨ outcome < m.options.length
  weight : ∃ token, w.admin.governanceToken = some token ∧
    ∀ ledger, m.disputeSnapshotLedger = some ledger →
      ∃ balance normalized, env.balanceAt token voter ledger = some balance ∧ 0 < balance
        ∧ normalizeWeight balance ((env.decimals token).getD 7) = some normalized
        ∧ normalized ≠ 0

/-- Every disputed market carries the fields that voting and finalisation
read, and admits every eligible vote. -/
structure DisputesVotable (X : Externs) (w : World) : Prop where
  fields : ∀ k m, w.markets.market.lookup k = some m → m.status = .disputed →
    m.pendingResolutionTimestamp ≠ none ∧ m.disputeTimestamp ≠ none
      ∧ m.disputeSnapshotLedger ≠ none
  votes : ∀ k m, w.markets.market.lookup k = some m → m.status = .disputed →
    ∀ env voter outcome weight, EligibleVote env w m voter outcome →
      ∃ w', Succeeds X env (.castVote voter k outcome weight) w w'

/-- No market is disputed. -/
def Undisputed (w : World) : Prop :=
  ∀ k m, w.markets.market.lookup k = some m → m.status ≠ .disputed

/-- In a reachable state no vote succeeds, on whatever market. -/
theorem no_vote_succeeds {w w' : World} (hw : Reachable X w) {env : Env} {voter : Address}
    {k outcome : Nat} {weight : Int} :
    ¬Succeeds X env (.castVote voter k outcome weight) w w' := by
  intro h
  cases h.effect with
  | moved _ id f m m' br evs hc => cases hc
  | voted _ id _ _ m ledger br evs _ lookup disputed snapshot =>
      -- the vote would need a snapshot, and no market has one
      rw [hw.noSnapshots.snapshot k m lookup] at snapshot
      cases snapshot
  | created _ p id _ hc => cases hc
  | paidFees _ x f evs hc => cases hc
  | configured _ f mc wi o br evs hc => cases hc
  | appointed _ a ha => cases ha
  | governed _ g br wasm evs hg => cases hg

theorem disputesVotable_iff {w : World} (hw : Reachable X w) :
    DisputesVotable X w ↔ Undisputed w := by
  constructor
  · intro h k m hm hs
    -- a disputed market lacks the third field
    exact (h.fields k m hm hs).2.2 (hw.noSnapshots.snapshot k m hm)
  · intro h
    exact ⟨fun k m hm hs => absurd hs (h k m hm), fun k m hm hs => absurd hs (h k m hm)⟩

/-! ## §2. Runs. -/

/-- A market that a dispute can be filed on. -/
structure Disputable (w : World) (k : Nat) (m : Market) : Prop where
  lookup : w.markets.market.lookup k = some m
  pending : m.status = .pendingResolution
  inTime : ∃ t, m.pendingResolutionTimestamp = some t ∧ w.timestamp < t + disputeWindowOf w k

/-- The step is no `file_dispute` on a disputable market. -/
def FilesNoDispute (t : Transition World Action) : Prop :=
  ∀ env disciplinarian id, t.act = .call env (.fileDispute disciplinarian id) →
    ∀ m, ¬Disputable t.pre id m

/-- Only `file_dispute` makes a market disputed, and only a disputable one. -/
theorem MarketChange.of_disputed {w : World} {k : Nat} {c : Call} {o : Option Market}
    {m' : Market} (h : MarketChange X w k c o (some m'))
    (ho : o = w.markets.market.lookup k) (hu : ∀ m, o = some m → m.status ≠ .disputed)
    (hs : m'.status = .disputed) : ∃ d m, c = .fileDispute d k ∧ Disputable w k m := by
  cases h with
  | same => exact absurd hs (hu m' rfl)
  | created => cases hs
  | bet b m fee counts => exact absurd hs (hu m rfl)
  | released token m => exact absurd hs (hu m rfl)
  | moved _ f m _ hc move =>
      cases move with
      | dispute t pending since inTime =>
          -- of all calls only `file_dispute` is of this kind
          cases c <;> cases hc
          exact ⟨_, m, rfl, ho.symm, pending, t, since, inTime⟩
      | answer => cases hs
      | confirm => cases hs
      | decide => cases hs
      | resolve => cases hs
      | cancel => cases hs
      | voteDown => cases hs

theorem Effect.undisputed {env : Env} {w w' : World} {c : Call} (hreg : Registered w)
    (hu : Undisputed w) (hC : FilesNoDispute ⟨w, .call env c, w'⟩) (h : Effect X env w c w') :
    Undisputed w' := by
  intro k m' hm' hs
  have hchange := h.marketChange hreg k
  rw [hm'] at hchange
  obtain ⟨d, m, rfl, hdisputable⟩ := hchange.of_disputed rfl (fun m hm => hu k m hm) hs
  exact hC env d k rfl m hdisputable

/-- **Disputes can be voted on exactly where there are none**: a reachable
state has the property if and only if no market in it is disputed, and it has
it after every run that files no dispute in time. -/
theorem disputes_votable_iff_undisputed (X : Externs) (b : Address → Address → Nat) (t s : Nat)
    (as : List Action) :
    (DisputesVotable X (run (step X) (genesis b t s) as)
        ↔ Undisputed (run (step X) (genesis b t s) as)) ∧
      ((∀ tr ∈ trace (step X) (genesis b t s) as, FilesNoDispute tr) →
        DisputesVotable X (run (step X) (genesis b t s) as)) := by
  have hw : Reachable X (run (step X) (genesis b t s) as) := ⟨b, t, s, as, rfl⟩
  refine ⟨disputesVotable_iff hw, fun hC => (disputesVotable_iff hw).mpr ?_⟩
  have h0 : Undisputed (genesis b t s) := by
    intro k m hm
    cases hm
  refine registered_run_invariant Undisputed FilesNoDispute (.genesis b t s) h0 ?_
    (fun _ _ _ hu => hu) (fun _ _ hu => hu) as hC
  intro v env c v' hreg hu hc hsucc
  exact hsucc.effect.undisputed hreg hu hc

/-- A run without disputes has the property. -/
theorem disputes_votable_sample :
    DisputesVotable sampleExterns (sampleRun (sampleOpening 100 1000)) := by
  refine (disputes_votable_iff_undisputed sampleExterns _ 0 0 (sampleOpening 100 1000)).2 ?_
  intro tr htr env d id hact
  have hmem := act_mem_of_mem_trace (step sampleExterns) htr
  rw [hact] at hmem
  simp [sampleOpening] at hmem

/-- A market answered by the oracle and disputed within the window. -/
def sampleDispute : List Action :=
  sampleOpening 100 1000 ++
    [.call everybody (.setGovernanceToken ⟨11⟩),
      .advance 200000 40000,
      .call everybody (.setOracleResult 1 0 0),
      .call everybody (.attemptOracleResolution 1),
      .call everybody (.fileDispute ⟨4⟩ 1)]

/-- A call on a token that reports a balance of 5000 for everybody, always. -/
def wealthy : Env := { everybody with balanceAt := fun _ _ _ => some 5000 }

/-- **The dispute of the sample run cannot be voted on**: its market is disputed
without a snapshot, and a holder of 5000 is turned away. -/
theorem sampleDispute_not_votable :
    Reachable sampleExterns (sampleRun sampleDispute)
      ∧ ¬DisputesVotable sampleExterns (sampleRun sampleDispute)
      ∧ (exec sampleExterns (.castVote ⟨5⟩ 1 0 5000) wealthy (sampleRun sampleDispute)).1
          = .error (.error .marketNotDisputed) := by
  refine ⟨sampleRun_reachable sampleDispute, ?_, rfl⟩
  intro h
  exact (h.fields 1 _ rfl rfl).2.2 rfl

end PredictIQ.Contract
