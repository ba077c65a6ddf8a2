/-
  PredictIQ.Contract.Fees: `fees.rs` and the token guards of `sac.rs`.

  A bet's fee is `amount · base_fee · tier_multiplier / 10^8`, kept by the
  contract under `FeeRevenue(token)`.  A referrer is credited a tenth of the
  fee under `ReferrerBalance(referrer, token)`; `addReferralReward` takes it
  from nowhere, the revenue keeps the whole fee.
-/
import PredictIQ.Contract.CircuitBreaker
import Mathlib.Tactic.Positivity
import Mathlib.Tactic.GCongr
import Mathlib.Tactic.Ring

namespace PredictIQ.Contract

open Foundation Tx

/-! ## §1. Token guards (`sac.rs`). -/

/-- `sac::safe_transfer`: `try_transfer`, with the failure recorded and
mapped to `TransferFailed`. -/
def safeTransfer (tokenAddress payer payee : Address) (amount : Int) : Body Unit := fun env w =>
  if Transferable env w ⟨tokenAddress, payer, payee, amount⟩ then
    (.ok (), w.pay ⟨tokenAddress, payer, payee, amount⟩)
  else
    (do publish (.xferFail payer payee tokenAddress amount)
        trackError
        abort (.error .transferFailed) : Body Unit) env w

/-- `sac::check_token_not_frozen`. -/
def checkTokenNotFrozen (tokenAddress user : Address) : Body Unit := do
  let env ← context
  if env.frozen tokenAddress user = some true then do
    publish (.tokenFrz tokenAddress user)
    abort (.error .tokenFrozen)
  else pure ()

/-! ## §2. Fee arithmetic. -/

/-- `BPS_DENOMINATOR`. -/
def bpsDenominator : Int := 10000

/-- `TIER_DENOMINATOR_BPS`. -/
def tierDenominatorBps : Int := 10000

def tierMultiplierBps : MarketTier → Int
  | .basic => tierDenominatorBps
  | .pro => 7500
  | .institutional => 5000

/-- `calculate_tiered_fee_with_base`; `none` is `Err(Overflow)`. -/
def calculateTieredFeeWithBase (amount baseFeeBps : Int) (tier : MarketTier) : Option Int := do
  let numerator ← checkedMul (← checkedMul amount baseFeeBps) (tierMultiplierBps tier)
  checkedDiv numerator (bpsDenominator * tierDenominatorBps)

/-- The reward of `add_referral_reward`: `fee * 10 / 100`. -/
def referralReward (feeAmount : Int) : Option Int := do
  checkedDiv (← checkedMul feeAmount 10) 100

/-! ## §3. The functions. -/

def FeeStore.getBaseFee (s : FeeStore) : Int := s.baseFee.getD 0

def FeeStore.getRevenue (s : FeeStore) (token : Address) : Int := (s.feeRevenue.lookup token).getD 0

/-- `ReferrerBalance(referrer, token)`, 0 when absent. -/
def FeeStore.getReferrerBalance (s : FeeStore) (referrer token : Address) : Int :=
  (s.referrerBalance.lookup (referrer, token)).getD 0

def setBaseFee (amount : Int) : Body Unit := do
  requireAdmin
  update fun w => { w with fees.baseFee := some amount }

def setFeeAdmin (feeAdmin : Address) : Body Unit := do
  requireAdmin
  update fun w => { w with fees.feeAdmin := some feeAdmin }

def requireFeeWithdrawAuth : Body Unit := do
  match ← reads (·.fees.feeAdmin) with
  | some feeAdmin => requireAuth feeAdmin
  | none => requireAdmin

def calculateTieredFee (amount : Int) (tier : MarketTier) : Body Int := do
  let baseFee ← reads (·.fees.getBaseFee)
  orErr (calculateTieredFeeWithBase amount baseFee tier) .overflow

def collectFee (token : Address) (amount : Int) : Body Unit := do
  let total ← reads (·.fees.getRevenue token)
  let newTotal ← orErr (checkedAdd total amount) .arithmeticOverflow
  update fun w => { w with fees.feeRevenue := w.fees.feeRevenue.insert token newTotal }
  let overall ← reads (·.fees.totalFeesCollected.getD 0)
  let newOverall ← orErr (checkedAdd overall amount) .arithmeticOverflow
  update fun w => { w with fees.totalFeesCollected := some newOverall }
  publish (.feeColct 0 token currentContractAddress amount)

def withdrawProtocolFees (token recipient : Address) : Body Int := do
  requireFeeWithdrawAuth
  let balance ← reads (·.fees.getRevenue token)
  failIf (balance = 0) .insufficientBalance
  -- the balance is zeroed before the transfer
  update fun w => { w with fees.feeRevenue := w.fees.feeRevenue.insert token 0 }
  tokenTransfer token currentContractAddress recipient balance
  publish (.feesWithdrawn recipient token balance)
  pure balance

def addReferralReward (referrer token : Address) (feeAmount : Int) : Body Unit := do
  let reward ← orErr (referralReward feeAmount) .overflow
  -- nothing is taken off the revenue here
  let balance ← reads (·.fees.getReferrerBalance referrer token)
  let newBalance ← orErr (checkedAdd balance reward) .overflow
  update fun w => { w with
    fees.referrerBalance := w.fees.referrerBalance.insert (referrer, token) newBalance }
  publish (.refRwrd 0 referrer reward)

/-- `i128::saturating_sub`. -/
def saturatingSub (a b : Int) : Int := max (-2 ^ 127) (min (2 ^ 127 - 1) (a - b))

/-- `reverse_referral_reward`: no entrypoint calls it yet. -/
def reverseReferralReward (referrer token : Address) (feeAmount : Int) : Body Unit := do
  match referralReward feeAmount with
  -- an overflow leaves the balance as it is
  | none => pure ()
  | some reward =>
      whenever (reward ≠ 0) do
        let balance ← reads (·.fees.getReferrerBalance referrer token)
        update fun w => { w with
          fees.referrerBalance :=
            w.fees.referrerBalance.insert (referrer, token) (saturatingSub balance reward) }

def claimReferralRewards (address token : Address) : Body Int := do
  requireAuth address
  let balance ← reads (·.fees.getReferrerBalance address token)
  failIf (balance = 0) .insufficientBalance
  update fun w => { w with fees.referrerBalance := w.fees.referrerBalance.insert (address, token) 0 }
  tokenTransfer token currentContractAddress address balance
  publish (.refClaim 0 address balance)
  pure balance

/-! ## §4. The arithmetic, in closed form. -/

theorem tierMultiplierBps_pos (tier : MarketTier) : 0 < tierMultiplierBps tier := by
  cases tier <;> decide

theorem tierMultiplierBps_le (tier : MarketTier) : tierMultiplierBps tier ≤ 10000 := by
  cases tier <;> decide

/-- A computed fee is the truncated quotient. -/
theorem calculateTieredFeeWithBase_eq {amount base fee : Int} {tier : MarketTier}
    (h : calculateTieredFeeWithBase amount base tier = some fee) :
    fee = (amount * base * tierMultiplierBps tier).tdiv 100000000 := by
  simp only [calculateTieredFeeWithBase, checkedMul, checkedDiv, Option.bind_eq_bind,
    Option.bind_eq_some_iff, inI128_eq_some] at h
  obtain ⟨_, ⟨_, rfl⟩, _, ⟨_, rfl⟩, h⟩ := h
  rw [if_neg (by decide), inI128_eq_some] at h
  exact h.2

/-- For a base fee of at most 100% and a positive amount, the fee is a part of
the amount. -/
theorem calculateTieredFeeWithBase_range {amount base fee : Int} {tier : MarketTier}
    (h : calculateTieredFeeWithBase amount base tier = some fee)
    (ha : 0 < amount) (hb : 0 ≤ base) (hb' : base ≤ 10000) : 0 ≤ fee ∧ fee ≤ amount := by
  have hm := tierMultiplierBps_pos tier
  have hm' := tierMultiplierBps_le tier
  -- the numerator is at most the amount times both denominators
  have hnn : 0 ≤ amount * base * tierMultiplierBps tier := by positivity
  have hle : amount * base * tierMultiplierBps tier ≤ amount * 100000000 := by
    have h1 : base * tierMultiplierBps tier ≤ 10000 * 10000 := by gcongr
    calc amount * base * tierMultiplierBps tier
        = amount * (base * tierMultiplierBps tier) := by ring
      _ ≤ amount * (10000 * 10000) := by gcongr
      _ = amount * 100000000 := by ring
  rw [calculateTieredFeeWithBase_eq h, Int.tdiv_eq_ediv_of_nonneg hnn]
  generalize amount * base * tierMultiplierBps tier = n at hnn hle ⊢
  omega

theorem referralReward_eq_some {fee reward : Int} :
    referralReward fee = some reward
      ↔ (-2 ^ 127 ≤ fee * 10 ∧ fee * 10 < 2 ^ 127) ∧ reward = (fee * 10).tdiv 100 := by
  simp only [referralReward, checkedMul, checkedDiv, Option.bind_eq_bind,
    Option.bind_eq_some_iff, inI128_eq_some]
  constructor
  · intro h
    obtain ⟨_, ⟨hfits, rfl⟩, h⟩ := h
    rw [if_neg (by decide), inI128_eq_some] at h
    exact ⟨hfits, h.2⟩
  · intro h
    obtain ⟨hfits, rfl⟩ := h
    refine ⟨_, ⟨hfits, rfl⟩, ?_⟩
    -- a hundredth of what fits does fit
    rw [if_neg (by decide), inI128_eq_some]
    refine ⟨?_, rfl⟩
    rcases le_total 0 (fee * 10) with hnn | hneg
    · rw [Int.tdiv_eq_ediv_of_nonneg hnn]
      omega
    · rw [← neg_neg (fee * 10), Int.neg_tdiv, Int.tdiv_eq_ediv_of_nonneg (by omega)]
      omega

theorem referralReward_eq {fee reward : Int} (h : referralReward fee = some reward) :
    reward = (fee * 10).tdiv 100 := (referralReward_eq_some.mp h).2

theorem referralReward_eq_none {fee : Int} :
    referralReward fee = none ↔ ¬(-2 ^ 127 ≤ fee * 10 ∧ fee * 10 < 2 ^ 127) := by
  rw [Option.eq_none_iff_forall_ne_some]
  constructor
  · intro h hfits
    exact h _ (referralReward_eq_some.mpr ⟨hfits, rfl⟩)
  · intro h reward hr
    exact h (referralReward_eq_some.mp hr).1

/-- Fees below 10 earn the referrer nothing. -/
theorem referralReward_eq_zero {fee reward : Int} (h : referralReward fee = some reward)
    (h0 : 0 ≤ fee) (h10 : fee < 10) : reward = 0 := by
  rw [referralReward_eq h, Int.tdiv_eq_ediv_of_nonneg (by omega)]
  omega

/-! ## §5. What each leaves behind. -/

section Rules

variable {env : Env} {w w' : World} {u : Unit}

@[simp] theorem safeTransfer_ok {token payer payee : Address} {amount : Int} :
    safeTransfer token payer payee amount env w = (.ok u, w') ↔
      Transferable env w ⟨token, payer, payee, amount⟩
        ∧ w' = w.pay ⟨token, payer, payee, amount⟩ := by
  unfold safeTransfer
  split
  · simp_all [eq_comm]
  · simp_all

@[simp] theorem checkTokenNotFrozen_ok {token user : Address} :
    checkTokenNotFrozen token user env w = (.ok u, w')
      ↔ env.frozen token user ≠ some true ∧ w = w' := by
  simp only [checkTokenNotFrozen, bind_eq_ok, context_eq_ok, and_assoc, exists_and_left,
    exists_eq_left']
  constructor
  · intro h
    split at h
    · simp at h
    · exact ⟨by assumption, (pure_eq_ok.mp h).2⟩
  · intro h
    obtain ⟨hf, hw'⟩ := h
    rw [if_neg hf]
    exact pure_eq_ok.mpr ⟨rfl, hw'⟩

@[simp] theorem calculateTieredFee_ok {amount fee : Int} {tier : MarketTier} :
    calculateTieredFee amount tier env w = (.ok fee, w') ↔
      calculateTieredFeeWithBase amount w.fees.getBaseFee tier = some fee ∧ w = w' := by
  simp [calculateTieredFee, and_comm]

theorem setBaseFee_ok {amount : Int} :
    setBaseFee amount env w = (.ok u, w') ↔
      ByAdmin env w ∧ w' = { w with fees.baseFee := some amount } := by
  simp [setBaseFee, and_assoc]

theorem setFeeAdmin_ok {feeAdmin : Address} :
    setFeeAdmin feeAdmin env w = (.ok u, w') ↔
      ByAdmin env w ∧ w' = { w with fees.feeAdmin := some feeAdmin } := by
  simp [setFeeAdmin, and_assoc]

theorem requireFeeWithdrawAuth_ok (h : requireFeeWithdrawAuth env w = (.ok u, w')) :
    (match w.fees.feeAdmin with
      | some feeAdmin => env.authorized feeAdmin = true
      | none => ByAdmin env w) ∧ w = w' := by
  simp only [requireFeeWithdrawAuth, bind_eq_ok, reads_eq_ok, and_assoc, exists_and_left,
    exists_eq_left'] at h
  cases hf : w.fees.feeAdmin with
  | some f =>
      simp only [hf, requireAuth_ok] at h
      exact h
  | none =>
      simp only [hf, requireAdmin_ok] at h
      exact h

/-- Collecting a fee adds it to the token's revenue and touches no balance. -/
theorem collectFee_ok {token : Address} {amount : Int}
    (h : collectFee token amount env w = (.ok u, w')) :
    ∃ overall, w' = { w with
      fees.feeRevenue := w.fees.feeRevenue.insert token (w.fees.getRevenue token + amount)
      fees.totalFeesCollected := some overall
      events := w.events ++ [.feeColct 0 token currentContractAddress amount] } := by
  simp only [collectFee, bind_eq_ok, reads_eq_ok, orErr_ok, update_eq_ok, publish_ok, checkedAdd,
    inI128_eq_some, and_assoc, exists_and_left, exists_eq_left', exists_eq_left, exists_const] at h
  obtain ⟨_, _, _, _, hw'⟩ := h
  exact ⟨_, hw'⟩

/-- A withdrawal pays out the whole revenue of a token and zeroes it. -/
theorem withdrawProtocolFees_ok {token recipient : Address} {amount : Int}
    (h : withdrawProtocolFees token recipient env w = (.ok amount, w')) :
    amount = w.fees.getRevenue token
      ∧ Transferable env w ⟨token, currentContractAddress, recipient, amount⟩
      ∧ w' = { w.pay ⟨token, currentContractAddress, recipient, amount⟩ with
          fees.feeRevenue := w.fees.feeRevenue.insert token 0
          events := w.events ++ [.feesWithdrawn recipient token amount] } := by
  simp only [withdrawProtocolFees, bind_eq_ok, reads_eq_ok, failIf_ok, update_eq_ok,
    tokenTransfer_ok, publish_ok, pure_eq_ok, and_assoc, exists_and_left, exists_eq_left',
    exists_eq_left, exists_const] at h
  obtain ⟨_, v, hauth, _, ht, hamount, hw'⟩ := h
  obtain ⟨_, rfl⟩ := requireFeeWithdrawAuth_ok hauth
  subst hamount
  exact ⟨rfl, ht, hw'.symm⟩

/-- The reward of `add_referral_reward` goes to the referrer's balance, and no
other store moves. -/
theorem addReferralReward_ok {referrer token : Address} {fee : Int}
    (h : addReferralReward referrer token fee env w = (.ok u, w')) :
    ∃ reward, referralReward fee = some reward ∧ w' = { w with
      fees.referrerBalance := w.fees.referrerBalance.insert (referrer, token)
        (w.fees.getReferrerBalance referrer token + reward)
      events := w.events ++ [.refRwrd 0 referrer reward] } := by
  simp only [addReferralReward, bind_eq_ok, reads_eq_ok, orErr_ok, update_eq_ok, publish_ok,
    checkedAdd, inI128_eq_some, and_assoc, exists_and_left, exists_eq_left', exists_eq_left,
    exists_const] at h
  obtain ⟨reward, hr, _, _, hw'⟩ := h
  exact ⟨reward, hr, hw'⟩

/-- A claim pays out the referrer's whole balance in a token and zeroes it. -/
theorem claimReferralRewards_ok {address token : Address} {amount : Int}
    (h : claimReferralRewards address token env w = (.ok amount, w')) :
    amount = w.fees.getReferrerBalance address token
      ∧ Transferable env w ⟨token, currentContractAddress, address, amount⟩
      ∧ w' = { w.pay ⟨token, currentContractAddress, address, amount⟩ with
          fees.referrerBalance := w.fees.referrerBalance.insert (address, token) 0
          events := w.events ++ [.refClaim 0 address amount] } := by
  simp only [claimReferralRewards, bind_eq_ok, reads_eq_ok, failIf_ok, update_eq_ok,
    tokenTransfer_ok, publish_ok, pure_eq_ok, requireAuth_ok, and_assoc, exists_and_left,
    exists_eq_left', exists_eq_left, exists_const] at h
  obtain ⟨_, _, ht, hamount, hw'⟩ := h
  subst hamount
  exact ⟨rfl, ht, hw'.symm⟩

end Rules

end PredictIQ.Contract
