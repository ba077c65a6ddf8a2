/-
  PredictIQ.Safety.StakeCheck: which stakes does the stake check see?

  `validate_stake_invariant` compares the pool with the stakes under the
  indices below the number of keys of `outcome_stakes`.  The map has a key for
  every outcome that was bet on, so the indices are the keys only where the
  outcomes bet on are the first ones.  What lies under later keys is left out
  of the sum.
-/
import PredictIQ.Contract.Migration
import PredictIQ.Safety.StakeConservation

namespace PredictIQ.Contract

open Foundation

variable {X : Externs}

/-! ## §1. The property. -/

/-- An `i128`. -/
def FitsI128 (x : Int) : Prop := -2 ^ 127 ≤ x ∧ x < 2 ^ 127

instance (x : Int) : Decidable (FitsI128 x) := inferInstanceAs (Decidable (_ ∧ _))

/-- The number of keys, which is where the indices stop. -/
def keyCount (stakes : Store Nat Int) : Nat := stakes.entries.length

/-- The stakes under the indices below `n`. -/
def stakesBelow (stakes : Store Nat Int) (n : Nat) : Int :=
  ((List.range n).map fun o => (stakes.lookup o).getD 0).sum

/-- The stakes under the indices from `n` on. -/
def stakesFrom (stakes : Store Nat Int) (n : Nat) : Int :=
  Store.total (fun o x => if n ≤ o then x else 0) stakes

/-- The check passes exactly when the pool is the sum of all stakes, and fails
only where that sum is no `i128`. -/
structure SeesAllStakes (s : MarketStore) (k : Nat) (m : Market) : Prop where
  valid : s.validateStakeInvariant k = .ok true ↔ m.totalStaked = stakesTotal m.outcomeStakes
  fails : ∀ e, s.validateStakeInvariant k = .error e → ¬FitsI128 (stakesTotal m.outcomeStakes)

/-- The sums over the first indices are all `i128`. -/
def RunningFits (stakes : Store Nat Int) : Prop :=
  ∀ n, n ≤ keyCount stakes → FitsI128 (stakesBelow stakes n)

instance (stakes : Store Nat Int) : Decidable (RunningFits stakes) :=
  inferInstanceAs (Decidable (∀ n, n ≤ keyCount stakes → _))

/-- The stakes behind the last index add up to nothing, or the pool is neither
sum; where a running sum does not fit, neither does the whole one. -/
def StakesSeen (m : Market) : Prop :=
  (RunningFits m.outcomeStakes ∧ (stakesFrom m.outcomeStakes (keyCount m.outcomeStakes) = 0
    ∨ (m.totalStaked ≠ stakesBelow m.outcomeStakes (keyCount m.outcomeStakes)
      ∧ m.totalStaked ≠ stakesTotal m.outcomeStakes)))
  ∨ (¬RunningFits m.outcomeStakes ∧ ¬FitsI128 (stakesTotal m.outcomeStakes))

instance (m : Market) : Decidable (StakesSeen m) := inferInstanceAs (Decidable (_ ∨ _))

/-! ## §2. Sums of stakes. -/

theorem stakesBelow_eq_total (stakes : Store Nat Int) (n : Nat) :
    stakesBelow stakes n = Store.total (fun o x => if o < n then x else 0) stakes := by
  induction n with
  | zero => exact (Store.total_eq_zero fun o x _ => if_neg (Nat.not_lt_zero o)).symm
  | succ n ih =>
      have hsplit : (fun (o : Nat) (x : Int) => if o < n + 1 then x else 0)
          = fun o x => (if o < n then x else 0) + (if o = n then x else 0) := by
        funext o x
        rcases Nat.lt_trichotomy o n with hlt | rfl | hgt
        · rw [if_pos (by omega), if_pos hlt, if_neg (by omega), add_zero]
        · rw [if_pos (by omega), if_neg (by omega), if_pos rfl, zero_add]
        · rw [if_neg (by omega), if_neg (by omega), if_neg (by omega), add_zero]
      have hlast : (stakes.lookup n).getD 0 = (stakes.lookup n).elim 0 id := by
        cases stakes.lookup n <;> rfl
      rw [hsplit, Store.total_add, ← ih]
      unfold stakesBelow
      rw [List.range_succ, List.map_append, List.sum_append, List.map_singleton,
        List.sum_singleton, hlast]
      exact congrArg _ (Store.total_at id stakes n).symm

/-- The stakes on both sides of an index are all stakes. -/
theorem stakesTotal_split (stakes : Store Nat Int) (n : Nat) :
    stakesTotal stakes = stakesBelow stakes n + stakesFrom stakes n := by
  rw [stakesBelow_eq_total]
  unfold stakesFrom stakesTotal
  rw [← Store.total_add]
  congr 1
  funext o x
  by_cases h : o < n
  · rw [if_pos h, if_neg (by omega), add_zero]
  · rw [if_neg h, if_pos (by omega), zero_add]

theorem checkedAdd_eq_some {a b c : Int} : checkedAdd a b = some c ↔ FitsI128 (a + b) ∧ c = a + b :=
  inI128_eq_some

/-- Prefixes of a list: the empty one, and those that start with its head. -/
theorem forall_take_cons {P : Int → Prop} {f : Nat → Int} {o : Nat} {l : List Nat} {sum : Int} :
    (∀ n, n ≤ (o :: l).length → P (sum + (((o :: l).take n).map f).sum))
      ↔ P sum ∧ ∀ n, n ≤ l.length → P (sum + f o + ((l.take n).map f).sum) := by
  constructor
  · intro h
    refine ⟨?_, ?_⟩
    · have hzero := h 0 (Nat.zero_le _)
      rwa [List.take_zero, List.map_nil, List.sum_nil, add_zero] at hzero
    · intro n hn
      have hsucc := h (n + 1) (by rw [List.length_cons]; omega)
      rwa [List.take_succ_cons, List.map_cons, List.sum_cons, ← add_assoc] at hsucc
  · intro h n hn
    obtain ⟨hzero, hsucc⟩ := h
    cases n with
    | zero => rwa [List.take_zero, List.map_nil, List.sum_nil, add_zero]
    | succ n =>
        rw [List.take_succ_cons, List.map_cons, List.sum_cons, ← add_assoc]
        exact hsucc n (by rw [List.length_cons] at hn; omega)

/-- The loop returns the sum where every sum on the way fits. -/
theorem sumOutcomeStakes_eq_some {stakes : Store Nat Int} {l : List Nat} {sum t : Int}
    (hsum : FitsI128 sum) :
    sumOutcomeStakes stakes l sum = some t ↔
      (∀ n, n ≤ l.length → FitsI128 (sum + ((l.take n).map fun o => (stakes.lookup o).getD 0).sum))
        ∧ t = sum + (l.map fun o => (stakes.lookup o).getD 0).sum := by
  induction l generalizing sum with
  | nil =>
      show some sum = some t ↔ _
      simp only [List.take_nil, List.map_nil, List.sum_nil, add_zero, Option.some.injEq]
      exact ⟨fun h => ⟨fun _ _ => hsum, h.symm⟩, fun h => h.2.symm⟩
  | cons o l ih =>
      rw [forall_take_cons, List.map_cons, List.sum_cons, ← add_assoc, and_iff_right hsum]
      cases ho : stakes.lookup o with
      | none =>
          simp only [sumOutcomeStakes, ho, Option.getD_none, add_zero]
          exact ih hsum
      | some x =>
          simp only [sumOutcomeStakes, ho, Option.getD_some]
          by_cases hfits : FitsI128 (sum + x)
          · rw [checkedAdd_eq_some.mpr ⟨hfits, rfl⟩, Option.bind_some]
            exact ih hfits
          · -- the addition fails, and so does the first prefix
            have hnone : checkedAdd sum x = none := if_neg hfits
            rw [hnone, Option.bind_none]
            constructor
            · intro h
              cases h
            · intro h
              have hzero := h.1 0 (Nat.zero_le _)
              rw [List.take_zero, List.map_nil, List.sum_nil, add_zero] at hzero
              exact absurd hzero hfits

/-! ## §3. The check of one market. -/

section Check

variable {m : Market}

theorem sumOutcomeStakes_range {stakes : Store Nat Int} {t : Int} :
    sumOutcomeStakes stakes (List.range (keyCount stakes)) 0 = some t ↔
      RunningFits stakes ∧ t = stakesBelow stakes (keyCount stakes) := by
  have hzero : FitsI128 0 := by
    unfold FitsI128
    omega
  rw [sumOutcomeStakes_eq_some hzero]
  simp only [zero_add, List.length_range, List.take_range]
  refine and_congr_left fun _ => forall_congr' fun n => imp_congr_right fun hn => ?_
  rw [min_eq_left hn]
  rfl

/-- With running sums that fit, the pool is compared with what the indices see. -/
theorem validateStakes_of_fits (h : RunningFits m.outcomeStakes) :
    validateStakes m
      = .ok (m.totalStaked = stakesBelow m.outcomeStakes (keyCount m.outcomeStakes)) := by
  have hsum := sumOutcomeStakes_range.mpr ⟨h, rfl⟩
  unfold keyCount at hsum
  simp only [validateStakes, hsum]
  rfl

theorem validateStakes_of_not_fits (h : ¬RunningFits m.outcomeStakes) :
    validateStakes m = .error (.error .arithmeticOverflow) := by
  have hsum : sumOutcomeStakes m.outcomeStakes
      (List.range m.outcomeStakes.entries.length) 0 = none := by
    by_contra hsome
    obtain ⟨t, ht⟩ := Option.ne_none_iff_exists'.mp hsome
    exact h (sumOutcomeStakes_range.mp ht).1
  simp only [validateStakes, hsum]

/-- The check of one record sees all stakes exactly where they are seen. -/
theorem seesAllStakes_iff {s : MarketStore} {k : Nat} (hm : s.market.lookup k = some m)
    (hpool : FitsI128 m.totalStaked) : SeesAllStakes s k m ↔ StakesSeen m := by
  have hcheck : s.validateStakeInvariant k = validateStakes m := by
    unfold MarketStore.validateStakeInvariant
    rw [hm]
  have hiff : SeesAllStakes s k m ↔
      (validateStakes m = .ok true ↔ m.totalStaked = stakesTotal m.outcomeStakes)
        ∧ ∀ e, validateStakes m = .error e → ¬FitsI128 (stakesTotal m.outcomeStakes) := by
    rw [← hcheck]
    exact ⟨fun h => ⟨h.valid, h.fails⟩, fun h => ⟨h.1, h.2⟩⟩
  have hsplit := stakesTotal_split m.outcomeStakes (keyCount m.outcomeStakes)
  rw [hiff]
  unfold StakesSeen
  by_cases hfits : RunningFits m.outcomeStakes
  · rw [validateStakes_of_fits hfits]
    simp only [Except.ok.injEq, decide_eq_true_eq, reduceCtorEq, false_imp_iff, implies_true,
      and_true, hfits, true_and, not_true_eq_false, false_and, or_false]
    omega
  · rw [validateStakes_of_not_fits hfits]
    simp only [reduceCtorEq, false_iff, Except.error.injEq, forall_eq', hfits, false_and,
      not_false_eq_true, true_and, false_or]
    constructor
    · intro h
      exact h.2
    · intro h
      refine ⟨?_, h⟩
      intro heq
      rw [← heq] at h
      exact h hpool

end Check

/-! ## §4. The check of all markets. -/

/-- What the loop asks of one id. -/
theorem validateStored_iff {s : MarketStore} {id : Nat} :
    s.validateStored id = .ok true
      ↔ ∀ m, s.market.lookup id = some m → validateStakes m = .ok true := by
  unfold MarketStore.validateStored MarketStore.validateStakeInvariant
  cases hm : s.market.lookup id with
  | none =>
      constructor
      · intro _ m h
        cases h
      · intro _
        rfl
  | some m =>
      constructor
      · intro h m' hm'
        cases hm'
        exact h
      · intro h
        exact h m rfl

theorem validateMarkets_eq_ok {s : MarketStore} {ids : List Nat} :
    s.validateMarkets ids = .ok true ↔ ∀ id ∈ ids, id + 1 < 2 ^ 64
      ∧ ∀ m, s.market.lookup id = some m → validateStakes m = .ok true := by
  induction ids with
  | nil =>
      constructor
      · intro _ id hid
        cases hid
      · intro _
        rfl
  | cons id ids ih =>
      rw [List.forall_mem_cons, ← ih, ← validateStored_iff]
      rw [MarketStore.validateMarkets]
      -- the loop goes on past a valid id only, and if the counter has a next value
      rcases s.validateStored id with e | ⟨_ | _⟩
      · simp
      · simp
      · by_cases hid : id + 1 < 2 ^ 64
        · rw [addU64_eq_some.mpr ⟨hid, rfl⟩]
          simp only [hid, and_self, true_and]
        · rw [addU64_eq_none.mpr (by omega)]
          simp only [reduceCtorEq, hid, false_and]

/-- In a reachable state the pool is the sum of all stakes, so that a market
is valid where its running sums fit and nothing is left out. -/
theorem validateStakes_of_pool {m : Market} (hpool : m.totalStaked = stakesTotal m.outcomeStakes) :
    validateStakes m = .ok true ↔ RunningFits m.outcomeStakes
      ∧ stakesFrom m.outcomeStakes (keyCount m.outcomeStakes) = 0 := by
  have hsplit := stakesTotal_split m.outcomeStakes (keyCount m.outcomeStakes)
  by_cases hfits : RunningFits m.outcomeStakes
  · rw [validateStakes_of_fits hfits, Except.ok.injEq, decide_eq_true_eq, and_iff_right hfits]
    omega
  · rw [validateStakes_of_not_fits hfits]
    simp [hfits]

/-! ## §5. The stake check. -/

/-- **The stake check sees all stakes** of a market exactly where what it
leaves out adds up to nothing, and so for all markets of a reachable state. -/
theorem stake_check_exact_iff (X : Externs) :
    (∀ (s : MarketStore) (k : Nat) (m : Market), s.market.lookup k = some m →
        FitsI128 m.totalStaked → (SeesAllStakes s k m ↔ StakesSeen m)) ∧
      ∀ w, Reachable X w → ∀ marketCount,
        w.markets.validateAllMarketsStakeInvariant marketCount = .ok true ↔
          marketCount + 1 < 2 ^ 64 ∧ ∀ k m, w.markets.market.lookup k = some m → k ≤ marketCount →
            RunningFits m.outcomeStakes
              ∧ stakesFrom m.outcomeStakes (keyCount m.outcomeStakes) = 0 := by
  refine ⟨fun s k m hm hpool => seesAllStakes_iff hm hpool, ?_⟩
  intro w hw marketCount
  have hreg := hw.registered
  have hpool : ∀ k m, w.markets.market.lookup k = some m →
      m.totalStaked = stakesTotal m.outcomeStakes := by
    obtain ⟨b, t, s, as, rfl⟩ := hw
    intro k m hm
    exact ((stakesConserved_run X b t s as).kept k m hm).pool
  unfold MarketStore.validateAllMarketsStakeInvariant
  rw [validateMarkets_eq_ok]
  constructor
  · intro h
    refine ⟨?_, ?_⟩
    · by_contra hcount
      have hlast := (h marketCount (List.mem_range'_1.mpr ⟨by omega, by omega⟩)).1
      omega
    · intro k m hm hk
      have hvalid := (h k (List.mem_range'_1.mpr ⟨(hreg.drawn k m hm).1, by omega⟩)).2 m hm
      exact (validateStakes_of_pool (hpool k m hm)).mp hvalid
  · intro h id hid
    obtain ⟨hcount, hmarkets⟩ := h
    obtain ⟨_, hle⟩ := List.mem_range'_1.mp hid
    refine ⟨by omega, ?_⟩
    intro m hm
    exact (validateStakes_of_pool (hpool id m hm)).mpr (hmarkets id m hm (by omega))

/-- The sample market, bet on its first outcome. -/
theorem stake_check_exact_sample :
    (∃ m, (sampleRun (sampleOpening 0 1000)).markets.market.lookup 1 = some m
        ∧ SeesAllStakes (sampleRun (sampleOpening 0 1000)).markets 1 m) ∧
      ∀ k m, (sampleRun (sampleOpening 0 1000)).markets.market.lookup k = some m → k ≤ 1 →
        RunningFits m.outcomeStakes
          ∧ stakesFrom m.outcomeStakes (keyCount m.outcomeStakes) = 0 := by
  refine ⟨⟨_, rfl, ?_⟩, ?_⟩
  · exact ((stake_check_exact_iff sampleExterns).1 _ 1 _ rfl (by decide +kernel)).mpr
      (by decide +kernel)
  · exact (((stake_check_exact_iff sampleExterns).2 _
      (sampleRun_reachable (sampleOpening 0 1000)) 1).mp (by decide +kernel)).2

/-- A market of two options, with one bet of 1000 on the second. -/
def secondOutcomeBet : List Action :=
  [.call everybody (.initializeContract ⟨1⟩ 0),
    .call everybody (.createMarket (sampleMarket ⟨2⟩ ⟨10⟩)),
    .call everybody (.placeBet (sampleBet ⟨3⟩ ⟨10⟩ 1 1 1000))]

/-- The check of that market reads index 0, and nothing is there. -/
theorem second_outcome_unseen :
    (¬∀ (s : MarketStore) (k : Nat) (m : Market), s.market.lookup k = some m →
        FitsI128 m.totalStaked → SeesAllStakes s k m) ∧
      ¬∀ w, Reachable sampleExterns w →
        w.markets.validateAllMarketsStakeInvariant w.markets.lastId = .ok true := by
  have hone : (sampleRun secondOutcomeBet).markets.validateStakeInvariant 1 = .ok false := by
    decide +kernel
  have hview : ((sampleRun secondOutcomeBet).markets.market.lookup 1).map (·.totalStaked)
      = some 1000 := by decide +kernel
  obtain ⟨m, hm, hstaked⟩ := Option.map_eq_some_iff.mp hview
  constructor
  · intro h
    have hfits : FitsI128 m.totalStaked := by
      rw [hstaked]
      decide
    have hvalid := (h _ 1 m hm hfits).valid.mpr
      ((stakesConserved_run sampleExterns sampleBalances 0 0 secondOutcomeBet).kept 1 m hm).pool
    rw [hone] at hvalid
    cases hvalid
  · intro h
    have hall : (sampleRun secondOutcomeBet).markets.validateAllMarketsStakeInvariant
        (sampleRun secondOutcomeBet).markets.lastId = .ok false := by decide +kernel
    rw [h _ (sampleRun_reachable secondOutcomeBet)] at hall
    cases hall

end PredictIQ.Contract
