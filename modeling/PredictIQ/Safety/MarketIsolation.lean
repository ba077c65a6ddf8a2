/-
  PredictIQ.Safety.MarketIsolation: markets do not touch each other.

  The storage keys of a market carry its number.  A call is about one market at
  most: the one it names, or, if it creates one, the next number.  `SameMarket`
  says that all that is stored under a number is as it was; a call that goes
  through leaves every market it is not about as it was.
-/
import PredictIQ.Safety.BetRecords
import PredictIQ.Safety.FallbackLocks

namespace PredictIQ.Contract

open Foundation Tx

variable {X : Externs}

/-! ## §1. What is stored under a number. -/

/-- The market a call is about. -/
def Call.about (w : World) : Call → Option Nat
  | .createMarket _ | .createMarketWithDisputeWindow .. => some (w.markets.lastId + 1)
  | .placeBet b => some b.marketId
  | .castVote _ id _ _ | .fileDispute _ id | .setOracleResult id _ _ | .validateOracleStaleness id => some id
  | .resolveMarket id _ | .attemptOracleResolution id | .finalizeResolution id => some id
  | .releaseCreationDeposit id _ | .pruneMarket id | .cancelMarketAdmin id | .cancelMarketVote id => some id
  | _ => none

/-- The registries agree on market `k`. -/
structure SameListing (k : Nat) (s s' : MarketStore) : Prop where
  market : s'.market.lookup k = s.market.lookup k
  window : s'.marketDisputeWindow.lookup k = s.marketDisputeWindow.lookup k
  index : ∀ status, s'.statusIndex.lookup (k, status) = s.statusIndex.lookup (k, status)

/-- The bets on market `k` agree. -/
structure SameBets (k : Nat) (s s' : BetStore) : Prop where
  bet : ∀ a o, s'.bet.lookup (k, a, o) = s.bet.lookup (k, a, o)
  betReferrer : ∀ a o, s'.betReferrer.lookup (k, a, o) = s.betReferrer.lookup (k, a, o)

/-- The oracle's answers for market `k` agree. -/
structure SameAnswers (k : Nat) (s s' : OracleStore) : Prop where
  result : ∀ i, s'.result.lookup (k, i) = s.result.lookup (k, i)
  lastUpdate : ∀ i, s'.lastUpdate.lookup (k, i) = s.lastUpdate.lookup (k, i)

/-- All that the contract stores under number `k` agrees. -/
structure SameMarket (k : Nat) (w w' : World) : Prop where
  listing : SameListing k w.markets w'.markets
  bets : SameBets k w.bets w'.bets
  voting : SameOn k w.voting w'.voting
  answers : SameAnswers k w.oracles w'.oracles

variable {k : Nat}

theorem SameListing.refl (k : Nat) (s : MarketStore) : SameListing k s s := ⟨rfl, rfl, fun _ => rfl⟩

theorem SameBets.refl (k : Nat) (s : BetStore) : SameBets k s s := ⟨fun _ _ => rfl, fun _ _ => rfl⟩

theorem SameAnswers.refl (k : Nat) (s : OracleStore) : SameAnswers k s s := ⟨fun _ => rfl, fun _ => rfl⟩

theorem SameMarket.refl (k : Nat) (w : World) : SameMarket k w w :=
  ⟨.refl k _, .refl k _, .refl k _, .refl k _⟩

theorem SameMarket.trans {w w' w'' : World} (h : SameMarket k w w') (h' : SameMarket k w' w'') :
    SameMarket k w w'' where
  listing := {
    market := h'.listing.market.trans h.listing.market
    window := h'.listing.window.trans h.listing.window
    index := fun status => (h'.listing.index status).trans (h.listing.index status) }
  bets := {
    bet := fun a o => (h'.bets.bet a o).trans (h.bets.bet a o)
    betReferrer := fun a o => (h'.bets.betReferrer a o).trans (h.bets.betReferrer a o) }
  voting := h.voting.trans h'.voting
  answers := {
    result := fun i => (h'.answers.result i).trans (h.answers.result i)
    lastUpdate := fun i => (h'.answers.lastUpdate i).trans (h.answers.lastUpdate i) }

/-! ## §2. The registry. -/

theorem lookup_updateStatusIndex_other (index : Store (Nat × MarketStatus) Bool) {id : Nat} (hne : id ≠ k)
    (old new status : MarketStatus) :
    (updateStatusIndex index id old new).lookup (k, status) = index.lookup (k, status) := by
  unfold updateStatusIndex
  rw [lookup_insert_other _ hne]
  split
  · rw [Store.lookup_erase_eq, if_neg fun hkey => hne (Prod.mk.inj hkey).1.symm]
  · rfl

theorem MarketStore.updateMarket_sameListing (s : MarketStore) {m : Market} (hne : m.id ≠ k) :
    SameListing k s (s.updateMarket m) where
  market := by rw [MarketStore.lookup_updateMarket, if_neg hne.symm]
  window := rfl
  index status := by
    unfold MarketStore.updateMarket
    dsimp only
    split
    · exact lookup_updateStatusIndex_other _ hne _ _ _
    · rfl

theorem MarketStore.addMarket_sameListing (s : MarketStore) {m : Market} (hne : m.id ≠ k) (window : Nat) :
    SameListing k s (s.addMarket m window) where
  market := by rw [MarketStore.lookup_addMarket, if_neg hne.symm]
  window := (Store.lookup_insert_eq ..).trans (if_neg hne.symm)
  index _ := lookup_insert_other _ hne _ _ _

theorem MarketStore.removeMarket_sameListing (s : MarketStore) {id : Nat} (hne : id ≠ k) :
    SameListing k s (s.removeMarket id) where
  market := (Store.lookup_erase_eq ..).trans (if_neg hne.symm)
  window := (Store.lookup_erase_eq ..).trans (if_neg hne.symm)
  index status := by
    show (s.statusIndex.erase (id, .resolved)).lookup (k, status) = _
    rw [Store.lookup_erase_eq, if_neg fun hkey => hne (Prod.mk.inj hkey).1.symm]

theorem about_of_creates {w : World} {c : Call} {p : MarketParams} (h : c.kind = .creates p) :
    c.about w = some (w.markets.lastId + 1) := by
  cases c <;> first | rfl | cases h

theorem about_of_moves {w : World} {c : Call} {id : Nat} {f : LifecycleCall} (h : c.kind = .moves id f) :
    c.about w = some id := by
  cases c <;> cases h <;> rfl

section Step

variable {env : Env} {w w' : World} {c : Call}

theorem Effect.listing (hreg : Registered w) (h : Effect X env w c w') (hk : c.about w ≠ some k) :
    SameListing k w.markets w'.markets := by
  cases h with
  | created _ p id _ hc h =>
      obtain ⟨window, hmarkets⟩ := h.markets
      rw [hmarkets]
      refine w.markets.addMarket_sameListing ?_ window
      intro hid
      refine hk ((about_of_creates hc).trans ?_)
      rw [← hid]
      exact congrArg some h.id_eq.symm
  | bet b m fee _ h =>
      obtain ⟨counts, hmarkets⟩ := h.markets
      rw [hmarkets]
      refine w.markets.updateMarket_sameListing ?_
      rintro rfl
      exact hk (congrArg some (hreg.keyed _ m h.lookup).symm)
  | moved _ id f m m' br evs hc lookup move =>
      refine w.markets.updateMarket_sameListing ?_
      rw [move.id_eq, hreg.keyed id m lookup]
      rintro rfl
      exact hk (about_of_moves hc)
  | released id token m lookup =>
      refine w.markets.updateMarket_sameListing ?_
      show m.id ≠ k
      rw [hreg.keyed id m lookup]
      rintro rfl
      exact hk rfl
  | pruned id m t ar evs lookup =>
      refine w.markets.removeMarket_sameListing ?_
      rintro rfl
      exact hk rfl
  | voted voter id outcome weight m ledger br evs _ lookup disputed snapshot frame =>
      obtain ⟨_, _, _, _, rfl⟩ := frame
      exact .refl k _
  | _ => exact .refl k _

/-! ## §3. Bets, votes and answers. -/

/-- A bet remembers a referrer under its own key only. -/
theorem placeBet_betReferrer {b : BetParams} {u : Unit} (h : placeBet b env w = (.ok u, w'))
    {key : Nat × Address × Nat} (hkey : key ≠ b.key) :
    w'.bets.betReferrer.lookup key = w.bets.betReferrer.lookup key := by
  rw [placeBet_records h]
  cases b.referrer with
  | none => rfl
  | some r => rw [Store.lookup_insert_eq, if_neg hkey]

theorem Succeeds.sameBets (h : Succeeds X env c w w') (hk : c.about w ≠ some k) : SameBets k w.bets w'.bets := by
  rcases h.effect.bets with ⟨b, m, fee, rfl, heff⟩ | ⟨_, hsame⟩
  · have hkey : ∀ a o, (k, a, o) ≠ b.key := by
      intro a o hkey
      exact hk (congrArg some (Prod.mk.inj hkey).1.symm)
    obtain ⟨r, hr⟩ := h
    refine ⟨fun a o => ?_, fun a o => placeBet_betReferrer (done_eq_ok.mp hr).1 (hkey a o)⟩
    rw [heff.bet, Store.lookup_insert_eq, if_neg (hkey a o)]
  · rw [hsame]
    exact .refl k _

theorem Succeeds.sameVoting (h : Succeeds X env c w w') (hk : c.about w ≠ some k) : SameOn k w.voting w'.voting := by
  rcases h.effect.voting with ⟨voter, id, outcome, weight, rfl⟩ | ⟨id, n, rfl, hv⟩ | hv
  · obtain ⟨br, evs, m, govToken, u, vote, heff⟩ := h.votes
    exact heff.sameOn fun hid => hk (congrArg some hid)
  · rw [hv]
    exact w.voting.prune_sameOn (fun hid => hk (congrArg some hid)) n
  · rw [hv]
    exact .refl k _

theorem Outcome.answers (h : Outcome X env w c w') (hk : c.about w ≠ some k) : SameAnswers k w.oracles w'.oracles := by
  cases h with
  | created _ p dw id _ hc effect =>
      obtain ⟨_, _, _, hw⟩ := effect.frame
      rw [hw]
      exact .refl k _
  | bet b m fee _ effect =>
      obtain ⟨_, hw⟩ := effect.frame
      rw [hw]
      exact .refl k _
  | voted voter id outcome weight v u _ m govToken vote pass effect =>
      obtain ⟨_, _, rfl⟩ := pass.frame
      obtain ⟨_, _, _, _, rfl⟩ := effect.frame
      exact .refl k _
  | disputed disciplinarian id evs v _ pass moves =>
      obtain ⟨_, _, rfl⟩ := pass.frame
      obtain ⟨_, _, _, _, _, rfl⟩ := moves
      exact .refl k _
  | moved _ id f evs _ hc moves =>
      obtain ⟨_, _, _, _, _, rfl⟩ := moves
      exact .refl k _
  | oracleResultSet id oracleId outcome =>
      have hne : id ≠ k := fun hid => hk (congrArg some hid)
      exact ⟨fun _ => lookup_insert_other _ hne _ _ _, fun _ => lookup_insert_other _ hne _ _ _⟩
  | _ => exact .refl k _

/-- **The call**: a market that a call is not about stays as it was. -/
theorem Succeeds.sameMarket (hreg : Registered w) (h : Succeeds X env c w w') (hk : c.about w ≠ some k) :
    SameMarket k w w' :=
  ⟨h.effect.listing hreg hk, h.sameBets hk, h.sameVoting hk, h.outcome.answers hk⟩

end Step

/-! ## §4. Runs. -/

/-- The step is a call about market `k` that goes through. -/
def touches (X : Externs) (k : Nat) (t : Transition World Action) : Bool :=
  match t.act with
  | .call _ c => callOk X t && c.about t.pre == some k
  | _ => false

/-- **The step.** -/
theorem sameMarket_step {w : World} (hreg : Registered w) (a : Action) (h : touches X k ⟨w, a, step X w a⟩ = false) :
    SameMarket k w (step X w a) := by
  cases a with
  | advance seconds ledgers => exact ⟨.refl k _, .refl k _, .refl k _, .refl k _⟩
  | external balances => exact ⟨.refl k _, .refl k _, .refl k _, .refl k _⟩
  | call env c =>
      rcases step_call_cases X env c w with hsame | hsucc
      · rw [hsame]
        exact .refl k w
      · refine hsucc.sameMarket hreg fun habout => ?_
        have hok : callOk X ⟨w, .call env c, step X w (.call env c)⟩ = true := callOk_iff.mpr hsucc
        unfold touches at h
        dsimp only at h
        rw [hok, habout, beq_self_eq_true] at h
        cases h

/-- **Markets are isolated.**  Along a run that goes on from any reachable state,
all that is stored under a market's number is as it was unless a call about that
market went through: its record, window and index entries, its bets and their
referrers, its votes, tallies, locks and voters, and its oracle's answers. -/
theorem market_isolation (X : Externs) (b : Address → Address → Nat) (t s : Nat) (as bs : List Action) (k : Nat)
    (h : ∀ tr ∈ trace (step X) (run (step X) (genesis b t s) as) bs, touches X k tr = false) :
    SameMarket k (run (step X) (genesis b t s) as) (run (step X) (genesis b t s) (as ++ bs)) := by
  rw [run_append]
  induction bs using List.reverseRecOn with
  | nil => exact .refl k _
  | append_singleton bs a ih =>
      rw [trace_concat] at h
      rw [run_concat]
      have hreach : Reachable X (run (step X) (run (step X) (genesis b t s) as) bs) := by
        rw [← run_append]
        exact ⟨b, t, s, as ++ bs, rfl⟩
      have hbefore := ih fun tr htr => h tr (List.mem_append_left _ htr)
      refine hbefore.trans (sameMarket_step hreach.registered a ?_)
      exact h _ (List.mem_append_right _ (List.mem_singleton_self _))

/-- Two markets are opened, and account 3 bets 700 on the second. -/
def sampleNeighbours : List Action :=
  [.call everybody (.initializeContract ⟨1⟩ 0),
    .call everybody (.createMarket (sampleMarket ⟨2⟩ ⟨10⟩)),
    .call everybody (.createMarket (sampleMarket ⟨2⟩ ⟨10⟩)),
    .call everybody (.placeBet (sampleBet ⟨3⟩ ⟨10⟩ 2 1 700))]

/-- Bets on the first market, its resolution, and a third market. -/
def sampleElsewhere : List Action :=
  [.call everybody (.placeBet (sampleBet ⟨3⟩ ⟨10⟩ 1 1 1000)),
    .call everybody (.placeBet (sampleBet ⟨4⟩ ⟨10⟩ 1 0 500)),
    .call everybody (.resolveMarket 1 0),
    .call everybody (.createMarket (sampleMarket ⟨2⟩ ⟨10⟩))]

/-- The second market and its bet are as they were. -/
theorem market_isolation_sample :
    ((sampleRun sampleNeighbours).markets.market.lookup 2).map (·.totalStaked) = some 700
      ∧ SameMarket 2 (sampleRun sampleNeighbours) (sampleRun (sampleNeighbours ++ sampleElsewhere)) :=
  ⟨by decide, market_isolation sampleExterns _ _ _ sampleNeighbours sampleElsewhere 2 (by decide)⟩

end PredictIQ.Contract
