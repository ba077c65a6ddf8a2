/-
  PredictIQ.Safety.PriceChecks: which Pyth prices are accepted.

  The bound on the confidence interval is a saturating product divided by
  10000 with the remainder dropped.  Dropping it loses nothing, and neither
  does reading the absolute value of `i64::MIN` one too low; the saturation
  does, and caps the interval at what fits 64 bits once multiplied out.
-/
import PredictIQ.Contract.Pyth

namespace PredictIQ.Contract

open Foundation Tx

section Bound

variable {conf bps : Nat} {price : Int}

/-- The quotient is compared exactly, up to the saturation. -/
theorem le_saturatingMulU64_div {a : Nat} :
    conf ≤ saturatingMulU64 a bps / 10000 ↔ conf * 10000 ≤ a * bps ∧ conf * 10000 < 2 ^ 64 := by
  rw [Nat.le_div_iff_mul_le (by decide)]
  unfold saturatingMulU64
  omega

/-- One below `2 ^ 63` and its double lose no multiple of 10000, and three
times it is past the saturation. -/
theorem le_sentinel_mul (hfits : conf * 10000 < 2 ^ 64) :
    conf * 10000 ≤ (2 ^ 63 - 1) * bps ↔ conf * 10000 ≤ 2 ^ 63 * bps := by
  rcases (by omega : bps = 0 ∨ bps = 1 ∨ bps = 2 ∨ 3 ≤ bps) with rfl | rfl | rfl | hbps
  · omega
  · omega
  · omega
  · have hsentinel : (2 ^ 63 - 1) * 3 ≤ (2 ^ 63 - 1) * bps := Nat.mul_le_mul_left _ hbps
    have hexact : 2 ^ 63 * 3 ≤ 2 ^ 63 * bps := Nat.mul_le_mul_left _ hbps
    omega

/-- The bound in terms of the exact absolute value, `i64::MIN` included. -/
theorem conf_within_iff :
    conf ≤ saturatingMulU64 (absPriceToU64 price) bps / 10000 ↔
      conf * 10000 ≤ price.natAbs * bps ∧ conf * 10000 < 2 ^ 64 := by
  rw [le_saturatingMulU64_div]
  unfold absPriceToU64
  by_cases hmin : price = -2 ^ 63
  · subst hmin
    rw [if_pos rfl]
    exact and_congr_left fun hfits => le_sentinel_mul hfits
  · rw [if_neg hmin]

end Bound

theorem effectiveMaxStaleness_eq_min (config : OracleConfig) :
    effectiveMaxStaleness config = min config.maxStalenessSeconds 60 := by
  unfold effectiveMaxStaleness maxStalenessSeconds
  split <;> omega

/-- **Prices are accepted by the exact rule, within 64 bits.** -/
theorem validate_price_exact (env : Env) (w : World) (price : PythPrice) (config : OracleConfig) :
    (∃ w', validatePrice price config env w = (.ok (), w')) ↔
      0 ≤ price.publishTime
        ∧ (w.timestamp : Int) - price.publishTime ≤ min config.maxStalenessSeconds 60
        ∧ price.conf * 10000 ≤ price.price.natAbs * config.maxConfidenceBps
        ∧ price.conf * 10000 < 2 ^ 64 := by
  simp only [validatePrice_ok, conf_within_iff, effectiveMaxStaleness_eq_min]
  constructor
  · intro h
    obtain ⟨_, ⟨t, ht, hfresh⟩, hconf, _⟩ := h
    exact ⟨by omega, by omega, hconf⟩
  · intro h
    obtain ⟨hdated, hfresh, hconf⟩ := h
    -- the time of a dated price is the natural number it casts to
    exact ⟨w, ⟨price.publishTime.toNat, by omega, by omega⟩, hconf, rfl⟩

/-- An interval of 1.9% of the price, where 2% is allowed, is refused. -/
theorem saturated_bound_refuses :
    let price : PythPrice :=
      { price := 10 ^ 17, conf := 19 * 10 ^ 14, expo := -8, publishTime := 1000 }
    let config : OracleConfig :=
      { oracleAddress := ⟨7⟩, feedId := "feed", minResponses := none, maxStalenessSeconds := 60
        maxConfidenceBps := 200, strikePrice := none }
    let w : World := { timestamp := 1010 }
    let env : Env := { authorized := fun _ => true }
    (0 ≤ price.publishTime
        ∧ (w.timestamp : Int) - price.publishTime ≤ min config.maxStalenessSeconds 60
        ∧ price.conf * 10000 ≤ price.price.natAbs * config.maxConfidenceBps)
      ∧ validatePrice price config env w = (.error (.error .confidenceTooLow), w) := by
  exact ⟨by decide, rfl⟩

end PredictIQ.Contract
