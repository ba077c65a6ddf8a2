/-
  PredictIQ.Safety.CancellationVote: when do the voters cancel a market?

  `cancel_market_vote` compares `cancel · 10000 / total` with 7500.  The
  rounding does no harm, the threshold is exactly 75%; but a cancel tally of
  `2^127 / 10000` or more overflows the product, and the overflow is reported
  as too few votes, however large the majority.
-/
import PredictIQ.Contract.Entrypoints
import Mathlib.Algebra.Order.BigOperators.Group.List

namespace PredictIQ.Contract

open Foundation Tx

/-! ## §1. The tallies of a market. -/

/-- The cancel tally and the tallies of the first `n` outcomes. -/
def VotingStore.totalTally (s : VotingStore) (id n : Nat) : Int :=
  s.getTally id cancelOutcomeIndex + ((List.range n).map fun o => s.getTally id o).sum

/-- There are votes, and at least 75% of their weight is for cancellation. -/
def CancelWins (s : VotingStore) (id n : Nat) : Prop :=
  0 < s.totalTally id n ∧ 3 * s.totalTally id n ≤ 4 * s.getTally id cancelOutcomeIndex

/-- No tally of the market is negative, and their sum fits in `i128`. -/
structure TalliesFit (s : VotingStore) (id n : Nat) : Prop where
  cancel : 0 ≤ s.getTally id cancelOutcomeIndex
  option : ∀ o, o < n → 0 ≤ s.getTally id o
  fits : s.totalTally id n < 2 ^ 127

section Sums

variable {s : VotingStore} {id n : Nat}

/-- The guarded sum is the sum. -/
theorem sumTallies_eq {outcomes : List Nat} {total : Int} (htotal : 0 ≤ total)
    (hnn : ∀ o ∈ outcomes, 0 ≤ s.getTally id o)
    (hfits : total + (outcomes.map fun o => s.getTally id o).sum < 2 ^ 127) :
    sumTallies s id outcomes total = some (total + (outcomes.map fun o => s.getTally id o).sum) := by
  induction outcomes generalizing total with
  | nil => exact congrArg some (add_zero total).symm
  | cons o outcomes ih =>
      have ho := hnn o List.mem_cons_self
      have hrest : ∀ o' ∈ outcomes, 0 ≤ s.getTally id o' := fun o' ho' => hnn o' (List.mem_cons_of_mem _ ho')
      have hsum : 0 ≤ (outcomes.map fun o' => s.getTally id o').sum := by
        refine List.sum_nonneg fun x hx => ?_
        obtain ⟨o', ho', rfl⟩ := List.mem_map.mp hx
        exact hrest o' ho'
      rw [List.map_cons, List.sum_cons, ← add_assoc] at hfits ⊢
      have hnow : inI128 (total + s.getTally id o) = some (total + s.getTally id o) :=
        inI128_eq_some.mpr ⟨⟨by omega, by omega⟩, rfl⟩
      show (inI128 (total + s.getTally id o)).bind _ = _
      rw [hnow]
      exact ih (by omega) hrest hfits

theorem TalliesFit.sumTallies_range (h : TalliesFit s id n) :
    sumTallies s id (List.range n) (s.getTally id cancelOutcomeIndex) = some (s.totalTally id n) :=
  sumTallies_eq h.cancel (fun o ho => h.option o (List.mem_range.mp ho)) h.fits

theorem TalliesFit.cancel_le (h : TalliesFit s id n) : s.getTally id cancelOutcomeIndex ≤ s.totalTally id n := by
  have hoptions : 0 ≤ ((List.range n).map fun o => s.getTally id o).sum := by
    refine List.sum_nonneg fun x hx => ?_
    obtain ⟨o, ho, rfl⟩ := List.mem_map.mp hx
    exact h.option o (List.mem_range.mp ho)
  unfold VotingStore.totalTally
  omega

end Sums

/-! ## §2. The vote. -/

section Vote

variable {env : Env} {w : World} {id : Nat} {m : Market}

/-- The percentage in basis points reaches the threshold exactly at 75%. -/
theorem cancelPct_reaches_iff {cancel total : Int} (htotal : 0 < total) :
    ¬cancel * 10000 / total < failedMarketThresholdBps ↔ 3 * total ≤ 4 * cancel := by
  unfold failedMarketThresholdBps
  rw [Int.ediv_lt_iff_lt_mul htotal]
  omega

/-- A disputed market is cancelled exactly where the threshold is met and the
product fits. -/
theorem cancelMarketVote_succeeds_iff (hm : w.markets.market.lookup id = some m) (hs : m.status = .disputed)
    (hfit : TalliesFit w.voting id m.options.length) :
    (∃ w', cancelMarketVote id env w = (.ok (), w'))
      ↔ w.voting.getTally id cancelOutcomeIndex * 10000 < 2 ^ 127 ∧ CancelWins w.voting id m.options.length := by
  have hcancel := hfit.cancel
  have hle := hfit.cancel_le
  have hlt := hfit.fits
  have hsum := hfit.sumTallies_range
  unfold CancelWins
  simp only [cancelMarketVote, bind_eq_ok, loadMarket_ok, failIf_ok, reads_eq_ok, orTrap_ok, orErr_ok,
    updateMarket_ok, publish_ok, and_assoc, exists_and_left, exists_eq_left', exists_eq_left, exists_const, hm, hs,
    ne_eq, not_true_eq_false, not_false_eq_true, true_and, Option.some.injEq, hsum, checkedMul, inI128_eq_some]
  generalize w.voting.totalTally id m.options.length = total at hle hlt ⊢
  generalize w.voting.getTally id cancelOutcomeIndex = cancel at hcancel hle ⊢
  constructor
  · intro h
    obtain ⟨hne, -, hfits, _, pct, hpct, hreaches, -⟩ := h
    have htotal : 0 < total := by omega
    rw [checkedDiv_of_nonneg (by omega) hfits htotal] at hpct
    obtain rfl := Option.some.inj hpct
    exact ⟨hfits, htotal, (cancelPct_reaches_iff htotal).mp hreaches⟩
  · intro h
    obtain ⟨hfits, htotal, hwins⟩ := h
    exact ⟨by omega, by omega, hfits, _, _, checkedDiv_of_nonneg (by omega) hfits htotal,
      (cancelPct_reaches_iff htotal).mpr hwins, rfl⟩

end Vote

/-- **The voters cancel with 75%, unless their weight overflows.**  On a disputed
market with tallies that fit, the call succeeds exactly where the threshold is
met, if and only if ten thousand times the cancel tally fits or the threshold is not met. -/
theorem cancel_market_vote_iff (env : Env) (w : World) (id : Nat) (m : Market)
    (hm : w.markets.market.lookup id = some m) (hs : m.status = .disputed)
    (hfit : TalliesFit w.voting id m.options.length) :
    ((∃ w', cancelMarketVote id env w = (.ok (), w')) ↔ CancelWins w.voting id m.options.length)
      ↔ w.voting.getTally id cancelOutcomeIndex * 10000 < 2 ^ 127 ∨ ¬CancelWins w.voting id m.options.length := by
  rw [cancelMarketVote_succeeds_iff hm hs hfit]
  by_cases hwins : CancelWins w.voting id m.options.length
  · simp [hwins]
  · simp [hwins]

/-- A disputed market on which the whole vote, `weight` of it, is for cancellation. -/
def sampleUnanimous (weight : Int) : World :=
  { sampleGenesis with
    markets := ({} : MarketStore).addMarket
      { (sampleMarket ⟨2⟩ ⟨10⟩).newMarket 1 0 with status := .disputed } 3600
    voting.voteTally := (∅ : Store (Nat × Nat) Int).insert (1, cancelOutcomeIndex) weight }

theorem cancel_market_vote_iff_sample :
    ((∃ w', cancelMarketVote 1 everybody (sampleUnanimous 70) = (.ok (), w')) ↔ CancelWins (sampleUnanimous 70).voting 1 2)
      ↔ (sampleUnanimous 70).voting.getTally 1 cancelOutcomeIndex * 10000 < 2 ^ 127
        ∨ ¬CancelWins (sampleUnanimous 70).voting 1 2 :=
  cancel_market_vote_iff everybody (sampleUnanimous 70) 1 _ rfl rfl ⟨by decide, by decide, by decide⟩

/-- **A unanimous vote of the largest weight does not cancel**: it is said to be
too little. -/
theorem sampleUnanimous_insufficient :
    TalliesFit (sampleUnanimous (2 ^ 127 - 1)).voting 1 2
      ∧ ¬((∃ w', cancelMarketVote 1 everybody (sampleUnanimous (2 ^ 127 - 1)) = (.ok (), w'))
        ↔ CancelWins (sampleUnanimous (2 ^ 127 - 1)).voting 1 2)
      ∧ (cancelMarketVote 1 everybody (sampleUnanimous (2 ^ 127 - 1))).1 = .error (.error .insufficientVotingWeight) := by
  have hfit : TalliesFit (sampleUnanimous (2 ^ 127 - 1)).voting 1 2 := ⟨by decide, by decide, by decide⟩
  have hwins : CancelWins (sampleUnanimous (2 ^ 127 - 1)).voting 1 2 := ⟨by decide, by decide⟩
  refine ⟨hfit, ?_, rfl⟩
  intro h
  have hok := (cancelMarketVote_succeeds_iff (m := { (sampleMarket ⟨2⟩ ⟨10⟩).newMarket 1 0 with status := .disputed })
    rfl rfl hfit).mp (h.mpr hwins)
  exact absurd hok.1 (by decide)

end PredictIQ.Contract
