/-
  PredictIQ.Safety.WinnerCounts: does `winner_counts` count bettors?

  `place_bet` takes a bet for the first one on its outcome when the record
  holds the net amount of this bet and no more.  A record that exists and
  holds nothing, because the fees took all of it, passes for a first bet, and
  its bettor is counted again.
-/
import PredictIQ.Contract.Lifecycle
import Mathlib.Data.Set.Card

namespace PredictIQ.Contract

open Foundation Tx

variable {X : Externs}

/-! ## §1. Bettors and their number. -/

/-- The accounts with a bet record on an outcome. -/
def BetStore.bettors (s : BetStore) (k o : Nat) : Set Address := {a | s.bet.lookup (k, a, o) ≠ none}

theorem BetStore.mem_bettors {s : BetStore} {k o : Nat} {a : Address} :
    a ∈ s.bettors k o ↔ (k, a, o) ∈ s.bet.keys := by
  rw [← AList.mem_keys, ← AList.lookup_isSome]
  exact Option.isSome_iff_ne_none.symm

theorem BetStore.bettors_finite (s : BetStore) (k o : Nat) : (s.bettors k o).Finite := by
  refine (s.bet.keys.map fun key => key.2.1).finite_toSet.subset ?_
  intro a ha
  exact List.mem_map.mpr ⟨_, mem_bettors.mp ha, rfl⟩

/-- A bet adds its bettor, which is one more where it had no record. -/
theorem BetStore.ncard_bettors_insert {s s' : BetStore} {b : BetParams} {record : Bet}
    (h : s'.bet = s.bet.insert b.key record) (k o : Nat) :
    (s'.bettors k o).ncard
      = (s.bettors k o).ncard + if k = b.marketId ∧ o = b.outcome ∧ s.bet.lookup b.key = none then 1 else 0 := by
  by_cases hhere : k = b.marketId ∧ o = b.outcome
  · obtain ⟨rfl, rfl⟩ := hhere
    have hset : s'.bettors b.marketId b.outcome = insert b.bettor (s.bettors b.marketId b.outcome) := by
      ext a
      show s'.bet.lookup (b.marketId, a, b.outcome) ≠ none ↔ a = b.bettor ∨ s.bet.lookup _ ≠ none
      rw [h, Store.mem_insert_iff]
      simp [BetParams.key]
    rw [hset]
    by_cases hnew : s.bet.lookup b.key = none
    · rw [if_pos ⟨rfl, rfl, hnew⟩]
      exact Set.ncard_insert_of_notMem (fun hmem => hmem hnew) (s.bettors_finite _ _)
    · rw [if_neg fun h => hnew h.2.2, Set.insert_eq_of_mem hnew]
      rfl
  · have hset : s'.bettors k o = s.bettors k o := by
      ext a
      show s'.bet.lookup (k, a, o) ≠ none ↔ s.bet.lookup (k, a, o) ≠ none
      rw [h, Store.lookup_insert_eq, if_neg]
      intro hkey
      simp only [BetParams.key, Prod.mk.injEq] at hkey
      exact hhere ⟨hkey.1, hkey.2.2⟩
    rw [hset, if_neg fun h => hhere ⟨h.1, h.2.1⟩]
    rfl

/-! ## §2. One bet. -/

/-- Every market's count for an outcome is the number of its bettors. -/
def CountsBettors (w : World) : Prop :=
  ∀ k m o, w.markets.market.lookup k = some m → getOutcomeBetCount m o = (w.bets.bettors k o).ncard

/-- The bettor's record, if there is one, holds something. -/
def RecordHolds (w : World) (b : BetParams) : Prop :=
  ∀ bet, w.bets.bet.lookup b.key = some bet → bet.amount ≠ 0

/-- Bets are recorded under ids that were given out. -/
def BetsDrawn (w : World) : Prop :=
  ∀ key, w.bets.bet.lookup key ≠ none → key.1 ≤ w.markets.lastId

section Bet

variable {env : Env} {w w' : World} {b : BetParams} {m : Market} {fee : Int}

/-- A bet is taken for a first one exactly where the record holds nothing. -/
theorem getOutcomeBetCount_countsAfter (m : Market) (b : BetParams) (s : BetStore) (net : Int) (o : Nat) :
    getOutcomeBetCount (m.staked b.outcome net (m.countsAfter b s)) o
      = getOutcomeBetCount m o + if o = b.outcome ∧ (s.existingBet b).amount = 0 then 1 else 0 := by
  show ((m.countsAfter b s).lookup o).getD 0 = _
  unfold Market.countsAfter
  by_cases hzero : (s.existingBet b).amount = 0
  · rw [if_pos hzero, Store.lookup_insert_eq]
    split
    · rename_i ho
      rw [if_pos ⟨ho, hzero⟩, ho]
      rfl
    · rename_i ho
      rw [if_neg fun h => ho h.1]
      rfl
  · rw [if_neg hzero, if_neg fun h => hzero h.2]
    rfl

theorem recordHolds_iff (w : World) (b : BetParams) :
    RecordHolds w b ↔ ((w.bets.existingBet b).amount = 0 ↔ w.bets.bet.lookup b.key = none) := by
  unfold RecordHolds BetStore.existingBet
  cases hkey : w.bets.bet.lookup b.key with
  | none => simp
  | some bet =>
      show (∀ bet', some bet = some bet' → bet'.amount ≠ 0) ↔ (bet.amount = 0 ↔ some bet = none)
      constructor
      · intro h
        exact iff_of_false (h bet rfl) (Option.some_ne_none bet)
      · intro h bet' hbet' hzero
        obtain rfl := Option.some.inj hbet'
        exact Option.some_ne_none bet (h.mp hzero)

/-- What a successful `place_bet` did, and whom it counted. -/
theorem Succeeds.counts (h : Succeeds X env (.placeBet b) w w') :
    ∃ m fee, PlaceBetEffect env w b m fee w'
      ∧ w'.markets = w.markets.updateMarket (m.staked b.outcome (b.amount - fee) (m.countsAfter b w.bets)) := by
  obtain ⟨r, hr⟩ := h
  obtain ⟨m, fee, heff, hmarkets, -⟩ := placeBet_ok (done_eq_ok.mp hr).1
  exact ⟨m, fee, heff, hmarkets⟩

/-- A bet keeps the counts right exactly when the bettor's record held something
or was not there. -/
theorem CountsBettors.bet_iff (hreg : Registered w) (hI : CountsBettors w)
    (h : Succeeds X env (.placeBet b) w w') : CountsBettors w' ↔ RecordHolds w b := by
  obtain ⟨m, fee, heff, hmarkets⟩ := h.counts
  have hid : m.id = b.marketId := hreg.keyed _ m heff.lookup
  have hbettors := BetStore.ncard_bettors_insert heff.bet
  have hcount := getOutcomeBetCount_countsAfter m b w.bets (b.amount - fee)
  have hhere : w'.markets.market.lookup b.marketId
      = some (m.staked b.outcome (b.amount - fee) (m.countsAfter b w.bets)) := by
    rw [hmarkets, MarketStore.lookup_updateMarket]
    exact if_pos hid.symm
  rw [recordHolds_iff]
  constructor
  · intro h'
    -- the market and the outcome that were bet on
    have hnow := h' _ _ b.outcome hhere
    have hold := hI _ m b.outcome heff.lookup
    rw [hcount, hbettors, hold] at hnow
    simp only [true_and] at hnow
    by_cases hzero : (w.bets.existingBet b).amount = 0
    · by_cases hnew : w.bets.bet.lookup b.key = none
      · exact iff_of_true hzero hnew
      · rw [if_pos hzero, if_neg hnew] at hnow
        omega
    · by_cases hnew : w.bets.bet.lookup b.key = none
      · rw [if_neg hzero, if_pos hnew] at hnow
        omega
      · exact iff_of_false hzero hnew
  · intro hfirst k m' o hm'
    rw [hbettors]
    by_cases hk : k = b.marketId
    · subst hk
      rw [hhere] at hm'
      obtain rfl := Option.some.inj hm'
      rw [hcount, hI _ m o heff.lookup]
      simp only [true_and, hfirst]
    · rw [if_neg fun h => hk h.1]
      rw [hmarkets, MarketStore.lookup_updateMarket] at hm'
      rw [if_neg fun hkm => hk (hkm.trans hid)] at hm'
      exact hI k m' o hm'

/-- The other calls write no bet, and no count but those of a new market. -/
theorem CountsBettors.other {c : Call} (hreg : Registered w) (hdrawn : BetsDrawn w) (hI : CountsBettors w)
    (h : Effect X env w c w') (hc : ∀ b, c ≠ .placeBet b) : CountsBettors w' := by
  have hbets : w'.bets = w.bets := by
    rcases h.bets with ⟨b, m, fee, rfl, -⟩ | ⟨-, hbets⟩
    · exact absurd rfl (hc b)
    · exact hbets
  intro k m' o hm'
  rw [hbets]
  have hchange := h.marketChange hreg k
  rw [hm'] at hchange
  generalize hpre : w.markets.market.lookup k = record at hchange
  cases hchange with
  | same => exact hI k m' o hpre
  | created _ p _ next =>
      -- nobody has bet on an id not given out yet
      have hnobody : w.bets.bettors k o = ∅ := by
        refine Set.eq_empty_of_forall_notMem fun a ha => ?_
        have hle := hdrawn _ ha
        change k ≤ _ at hle
        omega
      rw [hnobody, Set.ncard_empty]
      rfl
  | bet b => exact absurd rfl (hc b)
  | moved _ _ m _ _ move =>
      obtain ⟨_, _, _, _, _, _, rfl⟩ := move.frame
      exact hI k m o hpre
  | released token m => exact hI k m o hpre

theorem BetsDrawn.call {c : Call} (hreg : Registered w) (hI : BetsDrawn w) (h : Effect X env w c w') :
    BetsDrawn w' := by
  intro key hkey
  have hle := h.lastId_le
  rcases h.bets with ⟨b, m, fee, rfl, heff⟩ | ⟨-, hbets⟩
  · rw [heff.bet, Store.mem_insert_iff] at hkey
    rcases hkey with rfl | hkey
    · exact (hreg.drawn _ m heff.lookup).2.trans hle
    · exact (hI key hkey).trans hle
  · rw [hbets] at hkey
    exact (hI key hkey).trans hle

end Bet

/-! ## §3. Runs. -/

/-- A bet that goes through meets no record that holds nothing. -/
def RecordsHold (X : Externs) (t : Transition World Action) : Prop :=
  ∀ env b, t.act = .call env (.placeBet b) → Succeeds X env (.placeBet b) t.pre t.post → RecordHolds t.pre b

/-- **The counts are right exactly while no record is empty.**  In a run every
market's count for every outcome is the number of its bettors in all states,
if and only if no bet that went through met an empty record of its bettor. -/
theorem winner_counts_iff (X : Externs) (b : Address → Address → Nat) (t s : Nat) (as : List Action) :
    (∀ bs, bs <+: as → CountsBettors (run (step X) (genesis b t s) bs))
      ↔ ∀ tr ∈ trace (step X) (genesis b t s) as, RecordsHold X tr := by
  constructor
  · intro h tr htr env p hact hsucc
    obtain ⟨bs, hbs, hpre, hpost⟩ := prefix_of_mem_trace (step X) htr
    have hreach : Reachable X tr.pre := ⟨b, t, s, bs, hpre⟩
    have hbefore : CountsBettors tr.pre := by
      rw [hpre]
      exact h bs ((List.prefix_append bs _).trans hbs)
    refine (hbefore.bet_iff hreach.registered hsucc).mp ?_
    rw [hpost]
    exact h _ hbs
  · intro h bs hbs
    have h0 : BetsDrawn (genesis b t s) ∧ CountsBettors (genesis b t s) := by
      constructor
      · intro key hkey
        exact absurd rfl hkey
      · intro k m o hm
        cases hm
    refine (registered_run_invariant (fun v => BetsDrawn v ∧ CountsBettors v) (RecordsHold X)
      (.genesis b t s) h0 ?_ (fun _ _ _ hI => hI) (fun _ _ hI => hI) bs
      fun tr htr => h tr (mem_trace_of_isPrefix (step X) hbs htr)).2
    intro v env c v' hreg hI hholds hsucc
    obtain ⟨hdrawn, hcounts⟩ := hI
    refine ⟨hdrawn.call hreg hsucc.effect, ?_⟩
    by_cases hbet : ∃ p, c = .placeBet p
    · obtain ⟨p, rfl⟩ := hbet
      exact (hcounts.bet_iff hreg hsucc).mpr (hholds env p rfl hsucc)
    · exact hcounts.other hreg hdrawn hsucc.effect fun p hp => hbet ⟨p, hp⟩

/-- Account 3 bets twice on the first outcome, and all of it goes for fees. -/
def sampleAllFees : List Action :=
  sampleOpening 10000 1000 ++ [.call everybody (.placeBet (sampleBet ⟨3⟩ ⟨10⟩ 1 0 1000))]

/-- **One bettor, counted twice.** -/
theorem sampleAllFees_miscounts :
    ¬∀ bs, bs <+: sampleAllFees → CountsBettors (run (step sampleExterns) sampleGenesis bs) := by
  intro h
  have hcounts : CountsBettors (sampleRun sampleAllFees) := h _ (List.prefix_refl _)
  have hcount : ((sampleRun sampleAllFees).markets.market.lookup 1).map (getOutcomeBetCount · 0) = some 2 := by
    decide +kernel
  have hkeys : (sampleRun sampleAllFees).bets.bet.keys = [(1, ⟨3⟩, 0)] := by
    decide +kernel
  generalize sampleRun sampleAllFees = w at hcounts hcount hkeys
  obtain ⟨m, hm, hcount⟩ := Option.map_eq_some_iff.mp hcount
  have hsub : w.bets.bettors 1 0 ⊆ {⟨3⟩} := by
    intro a ha
    rw [BetStore.mem_bettors, hkeys] at ha
    simpa using ha
  have hle := Set.ncard_le_ncard hsub (Set.finite_singleton _)
  have heq := hcounts 1 m 0 hm
  rw [Set.ncard_singleton] at hle
  omega

end PredictIQ.Contract
