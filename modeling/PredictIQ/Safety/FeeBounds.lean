/-
  PredictIQ.Safety.FeeBounds: is the fee a part of the bet?

  The fee is `amount · base_fee · multiplier / 10^8`, truncated towards zero.
  `set_base_fee` and `initialize` store any base fee, so the rate may be
  negative or above one.  The fee is a part of the bet exactly when the
  numerator lies strictly between `-10^8` and `(amount + 1) · 10^8`; stored
  base fees within `0..=10000` see to that, and then no stake, bet or revenue
  is ever negative.
-/
import PredictIQ.Contract.Lifecycle

namespace PredictIQ.Contract

open Foundation

variable {X : Externs}

/-! ## §1. Tiered fees. -/

section Arithmetic

variable {a b base : Int} {tier : MarketTier}

/-- For amounts and base fees that are not negative, only the product can overflow. -/
theorem calculateTieredFeeWithBase_eq_some (ha : 0 ≤ a) (hbase : 0 ≤ base) {fee : Int} :
    calculateTieredFeeWithBase a base tier = some fee
      ↔ a * base * tierMultiplierBps tier < 2 ^ 127 ∧ fee = a * base * tierMultiplierBps tier / 100000000 := by
  have hm := tierMultiplierBps_pos tier
  have hnn : 0 ≤ a * base := by positivity
  -- the first product is no larger than the second
  have hle : a * base ≤ a * base * tierMultiplierBps tier := le_mul_of_one_le_right hnn hm
  have hquot : (a * base * tierMultiplierBps tier).tdiv (bpsDenominator * tierDenominatorBps)
      = a * base * tierMultiplierBps tier / 100000000 := Int.tdiv_eq_ediv_of_nonneg (hnn.trans hle)
  simp only [calculateTieredFeeWithBase, checkedMul, checkedDiv, Option.bind_eq_bind, Option.bind_eq_some_iff,
    inI128_eq_some]
  constructor
  · intro h
    obtain ⟨_, ⟨_, rfl⟩, _, ⟨hfits, rfl⟩, h⟩ := h
    rw [if_neg (by decide), inI128_eq_some] at h
    exact ⟨hfits.2, h.2.trans hquot⟩
  · intro h
    obtain ⟨hfits, rfl⟩ := h
    refine ⟨_, ⟨⟨by omega, by omega⟩, rfl⟩, _, ⟨⟨by omega, hfits⟩, rfl⟩, ?_⟩
    rw [if_neg (by decide), inI128_eq_some, hquot]
    exact ⟨⟨by omega, by omega⟩, rfl⟩

theorem calculateTieredFeeWithBase_eq_none (ha : 0 ≤ a) (hbase : 0 ≤ base) :
    calculateTieredFeeWithBase a base tier = none ↔ inI128 (a * base * tierMultiplierBps tier) = none := by
  have hnn : 0 ≤ a * base * tierMultiplierBps tier := by
    have hm := tierMultiplierBps_pos tier
    positivity
  rw [Option.eq_none_iff_forall_ne_some, Option.eq_none_iff_forall_ne_some]
  constructor
  · intro h fee hfee
    obtain ⟨hfits, -⟩ := inI128_eq_some.mp hfee
    exact h _ ((calculateTieredFeeWithBase_eq_some ha hbase).mpr ⟨hfits.2, rfl⟩)
  · intro h fee hfee
    obtain ⟨hfits, -⟩ := (calculateTieredFeeWithBase_eq_some ha hbase).mp hfee
    exact h _ (inI128_eq_some.mpr ⟨⟨by omega, hfits⟩, rfl⟩)

/-- The fees of two amounts against the fee of both together. -/
theorem tieredFee_add (ha : 0 ≤ a) (hb : 0 ≤ b) (hbase : 0 ≤ base) {feeA feeB fee : Int}
    (hA : calculateTieredFeeWithBase a base tier = some feeA) (hB : calculateTieredFeeWithBase b base tier = some feeB)
    (h : calculateTieredFeeWithBase (a + b) base tier = some fee) : feeA + feeB ≤ fee ∧ fee ≤ feeA + feeB + 1 := by
  obtain ⟨-, rfl⟩ := (calculateTieredFeeWithBase_eq_some ha hbase).mp hA
  obtain ⟨-, rfl⟩ := (calculateTieredFeeWithBase_eq_some hb hbase).mp hB
  obtain ⟨-, rfl⟩ := (calculateTieredFeeWithBase_eq_some (Int.add_nonneg ha hb) hbase).mp h
  -- the numerators add up, the quotients lose their remainders
  have hsum : (a + b) * base * tierMultiplierBps tier
      = a * base * tierMultiplierBps tier + b * base * tierMultiplierBps tier := by ring
  rw [hsum]
  omega

theorem tieredFee_mono (ha : 0 ≤ a) (hab : a ≤ b) (hbase : 0 ≤ base) {feeA feeB : Int}
    (hA : calculateTieredFeeWithBase a base tier = some feeA) (hB : calculateTieredFeeWithBase b base tier = some feeB) :
    feeA ≤ feeB := by
  obtain ⟨-, rfl⟩ := (calculateTieredFeeWithBase_eq_some ha hbase).mp hA
  obtain ⟨-, rfl⟩ := (calculateTieredFeeWithBase_eq_some (ha.trans hab) hbase).mp hB
  have hm := tierMultiplierBps_pos tier
  have hle : a * base * tierMultiplierBps tier ≤ b * base * tierMultiplierBps tier := by gcongr
  omega

/-- A tier with the smaller multiplier pays the smaller fee. -/
theorem tieredFee_tier_mono {tier' : MarketTier} (ha : 0 ≤ a) (hbase : 0 ≤ base)
    (htier : tierMultiplierBps tier ≤ tierMultiplierBps tier') {fee fee' : Int}
    (h : calculateTieredFeeWithBase a base tier = some fee) (h' : calculateTieredFeeWithBase a base tier' = some fee') :
    fee ≤ fee' := by
  obtain ⟨-, rfl⟩ := (calculateTieredFeeWithBase_eq_some ha hbase).mp h
  obtain ⟨-, rfl⟩ := (calculateTieredFeeWithBase_eq_some ha hbase).mp h'
  have hle : a * base * tierMultiplierBps tier ≤ a * base * tierMultiplierBps tier' := by gcongr
  omega

/-- **Tiered fees are floors.**  The fee is the floor of the exact quotient
and fails only where the product overflows; splitting a bet saves at most one
unit, more is paid on more, and a better tier pays no more. -/
theorem tiered_fee_arithmetic (a b base : Int) (ha : 0 ≤ a) (hb : 0 ≤ b) (hbase : 0 ≤ base) :
    (∀ tier fee, calculateTieredFeeWithBase a base tier = some fee →
        fee = a * base * tierMultiplierBps tier / 100000000)
      ∧ (∀ tier, calculateTieredFeeWithBase a base tier = none ↔ inI128 (a * base * tierMultiplierBps tier) = none)
      ∧ (∀ tier feeA feeB fee, calculateTieredFeeWithBase a base tier = some feeA →
          calculateTieredFeeWithBase b base tier = some feeB →
          calculateTieredFeeWithBase (a + b) base tier = some fee → feeA + feeB ≤ fee ∧ fee ≤ feeA + feeB + 1)
      ∧ (∀ tier feeA feeB, a ≤ b → calculateTieredFeeWithBase a base tier = some feeA →
          calculateTieredFeeWithBase b base tier = some feeB → feeA ≤ feeB)
      ∧ ∀ institutional pro basic, calculateTieredFeeWithBase a base .institutional = some institutional →
          calculateTieredFeeWithBase a base .pro = some pro → calculateTieredFeeWithBase a base .basic = some basic →
          institutional ≤ pro ∧ pro ≤ basic := by
  refine ⟨?_, ?_, ?_, ?_, ?_⟩
  · intro tier fee h
    exact ((calculateTieredFeeWithBase_eq_some ha hbase).mp h).2
  · intro tier
    exact calculateTieredFeeWithBase_eq_none ha hbase
  · intro tier feeA feeB fee hA hB h
    exact tieredFee_add ha hb hbase hA hB h
  · intro tier feeA feeB hab hA hB
    exact tieredFee_mono ha hab hbase hA hB
  · intro institutional pro basic hi hp hb
    exact ⟨tieredFee_tier_mono ha hbase (by decide) hi hp, tieredFee_tier_mono ha hbase (by decide) hp hb⟩

theorem tiered_fee_arithmetic_sample :
    calculateTieredFeeWithBase 4000000 1 .pro = some 300 ∧ (300 : Int) = 4000000 * 1 * tierMultiplierBps .pro / 100000000 :=
  ⟨by decide, (tiered_fee_arithmetic 4000000 4 1 (by decide) (by decide) (by decide)).1 .pro 300 (by decide)⟩

end Arithmetic

/-! ## §2. One bet. -/

/-- The fee of a positive amount is a part of it exactly when the numerator is within bounds. -/
theorem calculateTieredFeeWithBase_inside_iff {amount base fee : Int} {tier : MarketTier}
    (h : calculateTieredFeeWithBase amount base tier = some fee) (ha : 0 < amount) :
    0 ≤ fee ∧ fee ≤ amount ↔ -100000000 < amount * base * tierMultiplierBps tier
      ∧ amount * base * tierMultiplierBps tier < (amount + 1) * 100000000 := by
  rw [calculateTieredFeeWithBase_eq h]
  generalize amount * base * tierMultiplierBps tier = n
  rcases lt_or_ge n 0 with hneg | hnn
  · -- a negative quotient is truncated from below
    have hquot : n.tdiv 100000000 = -(-n / 100000000) := by
      rw [← Int.tdiv_eq_ediv_of_nonneg (by omega), Int.neg_tdiv, neg_neg]
    rw [hquot]
    omega
  · rw [Int.tdiv_eq_ediv_of_nonneg hnn]
    omega

/-- The bet's fee is a part of it, if the step is a bet that goes through. -/
def FeeInside (X : Externs) (t : Transition World Action) : Prop :=
  ∀ env b, t.act = .call env (.placeBet b) → Succeeds X env (.placeBet b) t.pre t.post →
    0 ≤ feeCharged t.pre b ∧ feeCharged t.pre b ≤ b.amount

/-- The base fee and the tier that the bet meets give a rate between 0 and 1,
or the amount is so small that the excess is truncated. -/
def RateFits (w : World) (b : BetParams) : Prop :=
  ∀ m, w.markets.market.lookup b.marketId = some m →
    -100000000 < b.amount * w.fees.getBaseFee * tierMultiplierBps m.tier
      ∧ b.amount * w.fees.getBaseFee * tierMultiplierBps m.tier < (b.amount + 1) * 100000000

def RateKept (X : Externs) (t : Transition World Action) : Prop :=
  ∀ env b, t.act = .call env (.placeBet b) → Succeeds X env (.placeBet b) t.pre t.post → RateFits t.pre b

section Bets

variable {env : Env} {w w' : World} {b : BetParams} {m : Market} {fee : Int}

theorem PlaceBetEffect.inside_iff (h : PlaceBetEffect env w b m fee w') :
    0 ≤ fee ∧ fee ≤ b.amount ↔ RateFits w b := by
  rw [calculateTieredFeeWithBase_inside_iff h.fee_eq h.amount_pos]
  constructor
  · intro hfits m' hm'
    obtain rfl := Option.some.inj (h.lookup.symm.trans hm')
    exact hfits
  · intro hfits
    exact hfits m h.lookup

theorem feeInside_iff (t : Transition World Action) : FeeInside X t ↔ RateKept X t := by
  constructor
  · intro h env b hact hsucc
    obtain ⟨m, fee, heff⟩ := hsucc.effect.places
    have hfee := h env b hact hsucc
    rw [heff.feeCharged_eq] at hfee
    exact heff.inside_iff.mp hfee
  · intro h env b hact hsucc
    obtain ⟨m, fee, heff⟩ := hsucc.effect.places
    rw [heff.feeCharged_eq]
    exact heff.inside_iff.mpr (h env b hact hsucc)

/-! ## §3. Nothing is negative. -/

/-- No bet, stake or revenue is negative. -/
structure NonNegative (w : World) : Prop where
  bet : ∀ key bet, w.bets.bet.lookup key = some bet → 0 ≤ bet.amount
  outcomeStake : ∀ k m o, w.markets.market.lookup k = some m → 0 ≤ getOutcomeStake m o
  totalStaked : ∀ k m, w.markets.market.lookup k = some m → 0 ≤ m.totalStaked
  revenue : ∀ token, 0 ≤ w.fees.getRevenue token

theorem NonNegative.genesis (b : Address → Address → Nat) (t s : Nat) : NonNegative (genesis b t s) := by
  refine ⟨?_, ?_, ?_, fun token => le_refl 0⟩
  · intro key bet hbet
    cases hbet
  · intro k m o hm
    cases hm
  · intro k m hm
    cases hm

/-- A bet whose fee does not exceed it takes nothing out of a ledger. -/
theorem NonNegative.bet_of_effect (hI : NonNegative w) (h : PlaceBetEffect env w b m fee w')
    (hle : fee ≤ b.amount) : NonNegative w' := by
  obtain ⟨counts, hmarkets⟩ := h.markets
  refine ⟨?_, ?_, ?_, ?_⟩
  · intro key bet hbet
    rw [h.bet, Store.lookup_insert_eq] at hbet
    split at hbet
    · obtain rfl := Option.some.inj hbet
      have hold : 0 ≤ (w.bets.existingBet b).amount := by
        unfold BetStore.existingBet
        cases hkey : w.bets.bet.lookup b.key with
        | none => exact le_refl 0
        | some old => exact hI.bet _ old hkey
      show 0 ≤ (w.bets.existingBet b).amount + (b.amount - fee)
      omega
    · exact hI.bet key bet hbet
  · intro k m' o hm'
    have hstake := hI.outcomeStake _ m b.outcome h.lookup
    rw [hmarkets, MarketStore.lookup_updateMarket] at hm'
    split at hm'
    · obtain rfl := Option.some.inj hm'
      show 0 ≤ ((m.outcomeStakes.insert b.outcome (getOutcomeStake m b.outcome + (b.amount - fee))).lookup o).getD 0
      rw [Store.lookup_insert_eq]
      split
      · show 0 ≤ getOutcomeStake m b.outcome + (b.amount - fee)
        omega
      · exact hI.outcomeStake _ m o h.lookup
    · exact hI.outcomeStake k m' o hm'
  · intro k m' hm'
    have hstaked := hI.totalStaked _ m h.lookup
    rw [hmarkets, MarketStore.lookup_updateMarket] at hm'
    split at hm'
    · obtain rfl := Option.some.inj hm'
      show 0 ≤ m.totalStaked + (b.amount - fee)
      omega
    · exact hI.totalStaked k m' hm'
  · intro token
    have hold := hI.revenue
    unfold FeeStore.getRevenue at hold ⊢
    rw [h.feeRevenue]
    split
    · rw [Store.lookup_insert_eq]
      split
      · have hpaid := hold b.tokenAddress
        show 0 ≤ w.fees.getRevenue b.tokenAddress + fee
        unfold FeeStore.getRevenue
        omega
      · exact hold token
    · exact hold token

/-- **What a call does to the fees.**  It is a bet, or it leaves the rate or
stores another, and leaves the revenue or pays out that of a token. -/
theorem Outcome.fees_cases {c : Call} (h : Outcome X env w c w') :
    (∃ b m fee, c = .placeBet b ∧ PlaceBetEffect env w b m fee w')
      ∨ (w'.fees.baseFee = w.fees.baseFee
          ∨ ∃ f, (c = .setBaseFee f ∨ ∃ admin, c = .initializeContract admin f) ∧ w'.fees.baseFee = some f)
        ∧ (w'.fees.feeRevenue = w.fees.feeRevenue ∨ ∃ token, w'.fees.feeRevenue = w.fees.feeRevenue.insert token 0) := by
  have hsame : w'.fees = w.fees → (w'.fees.baseFee = w.fees.baseFee
          ∨ ∃ f, (c = .setBaseFee f ∨ ∃ admin, c = .initializeContract admin f) ∧ w'.fees.baseFee = some f)
        ∧ (w'.fees.feeRevenue = w.fees.feeRevenue ∨ ∃ token, w'.fees.feeRevenue = w.fees.feeRevenue.insert token 0) := by
    intro hfees
    rw [hfees]
    exact ⟨Or.inl rfl, Or.inl rfl⟩
  cases h with
  | bet b m fee _ heff => exact Or.inl ⟨b, m, fee, rfl, heff⟩
  | initialized admin f => exact Or.inr ⟨Or.inr ⟨f, Or.inr ⟨admin, rfl⟩, rfl⟩, Or.inl rfl⟩
  | baseFeeSet f => exact Or.inr ⟨Or.inr ⟨f, Or.inl rfl, rfl⟩, Or.inl rfl⟩
  | feesWithdrawn token recipient => exact Or.inr ⟨Or.inl rfl, Or.inr ⟨token, rfl⟩⟩
  | created _ p dw id _ _ heff =>
      obtain ⟨_, _, _, hw⟩ := heff.frame
      exact Or.inr (hsame (by rw [hw]))
  | voted _ _ _ _ v u _ _ _ _ pass heff =>
      obtain ⟨_, _, rfl⟩ := pass.frame
      obtain ⟨_, _, _, _, hw⟩ := heff.frame
      exact Or.inr (hsame (by rw [hw]))
  | disputed _ _ _ v _ pass moves =>
      obtain ⟨_, _, rfl⟩ := pass.frame
      obtain ⟨_, _, _, _, _, hw⟩ := moves
      exact Or.inr (hsame (by rw [hw]))
  | moved _ _ _ _ _ _ moves =>
      obtain ⟨_, _, _, _, _, hw⟩ := moves
      exact Or.inr (hsame (by rw [hw]))
  | _ => exact Or.inr ⟨Or.inl rfl, Or.inl rfl⟩

/-- The other calls write no stake, and the revenue at most to zero. -/
theorem NonNegative.other {c : Call} (hreg : Registered w) (hI : NonNegative w) (h : Outcome X env w c w')
    (hc : ∀ b, c ≠ .placeBet b) : NonNegative w' := by
  have hbets : w'.bets = w.bets := by
    rcases h.effect.bets with ⟨b, m, fee, rfl, -⟩ | ⟨-, hbets⟩
    · exact absurd rfl (hc b)
    · exact hbets
  -- a record keeps its stakes, or is new and has none
  have hmarket : ∀ k m', w'.markets.market.lookup k = some m' →
      (m'.totalStaked = 0 ∧ ∀ o, getOutcomeStake m' o = 0)
        ∨ ∃ m, w.markets.market.lookup k = some m ∧ m'.totalStaked = m.totalStaked
          ∧ m'.outcomeStakes = m.outcomeStakes := by
    intro k m' hm'
    have hchange := h.effect.marketChange hreg k
    rw [hm'] at hchange
    generalize hpre : w.markets.market.lookup k = o at hchange
    cases hchange with
    | same => exact Or.inr ⟨m', rfl, rfl, rfl⟩
    | created => exact Or.inl ⟨rfl, fun o => rfl⟩
    | bet b => exact absurd rfl (hc b)
    | moved _ _ m _ _ move =>
        obtain ⟨_, _, _, _, _, _, rfl⟩ := move.frame
        exact Or.inr ⟨m, rfl, rfl, rfl⟩
    | released token m => exact Or.inr ⟨m, rfl, rfl, rfl⟩
  refine ⟨?_, ?_, ?_, ?_⟩
  · rw [hbets]
    exact hI.bet
  · intro k m' o hm'
    rcases hmarket k m' hm' with ⟨-, hzero⟩ | ⟨m, hm, -, hstakes⟩
    · rw [hzero]
    · have hold := hI.outcomeStake k m o hm
      unfold getOutcomeStake at hold ⊢
      rwa [hstakes]
  · intro k m' hm'
    rcases hmarket k m' hm' with ⟨hzero, -⟩ | ⟨m, hm, hstaked, -⟩
    · rw [hzero]
    · rw [hstaked]
      exact hI.totalStaked k m hm
  · rcases h.fees_cases with ⟨b, m, fee, rfl, -⟩ | ⟨-, hrevenue⟩
    · exact absurd rfl (hc b)
    · intro token'
      unfold FeeStore.getRevenue
      rcases hrevenue with hsame | ⟨token, hpaid⟩
      · rw [hsame]
        exact hI.revenue token'
      · rw [hpaid, Store.lookup_insert_eq]
        split
        · exact le_refl 0
        · exact hI.revenue token'

end Bets

/-! ## §4. Runs. -/

theorem NonNegative.run {w : World} (hreg : Registered w) (hI : NonNegative w) (as : List Action)
    (hC : ∀ t ∈ trace (step X) w as, FeeInside X t) : NonNegative (run (step X) w as) := by
  refine registered_run_invariant NonNegative (FeeInside X) hreg hI ?_ ?_ ?_ as hC
  · intro v env c v' hv hI hinside hsucc
    by_cases hbet : ∃ b, c = .placeBet b
    · obtain ⟨b, rfl⟩ := hbet
      obtain ⟨m, fee, heff⟩ := hsucc.effect.places
      have hfee := hinside env b rfl hsucc
      rw [heff.feeCharged_eq] at hfee
      exact hI.bet_of_effect heff hfee.2
    · exact hI.other hv hsucc.outcome fun b hb => hbet ⟨b, hb⟩
  · intro v seconds ledgers hI
    exact ⟨hI.bet, hI.outcomeStake, hI.totalStaked, hI.revenue⟩
  · intro v balances hI
    exact ⟨hI.bet, hI.outcomeStake, hI.totalStaked, hI.revenue⟩

/-- A base fee that the step stores is at most 100%, and not negative. -/
def StoresShare (X : Externs) (t : Transition World Action) : Prop :=
  ∀ env c f, t.act = .call env c → (c = .setBaseFee f ∨ ∃ admin, c = .initializeContract admin f) →
    Succeeds X env c t.pre t.post → 0 ≤ f ∧ f ≤ 10000

/-- The base fee is a share as long as only shares are stored. -/
theorem baseFee_share (b : Address → Address → Nat) (t s : Nat) (as : List Action)
    (hC : ∀ tr ∈ trace (step X) (genesis b t s) as, StoresShare X tr) :
    0 ≤ (run (step X) (genesis b t s) as).fees.getBaseFee ∧ (run (step X) (genesis b t s) as).fees.getBaseFee ≤ 10000 := by
  have h0 : 0 ≤ (genesis b t s).fees.getBaseFee ∧ (genesis b t s).fees.getBaseFee ≤ 10000 := by
    show (0 : Int) ≤ 0 ∧ (0 : Int) ≤ 10000
    decide
  refine run_call_invariant (fun v => 0 ≤ v.fees.getBaseFee ∧ v.fees.getBaseFee ≤ 10000) (StoresShare X) h0 ?_ (fun _ _ h => h) (fun _ h => h) as hC
  intro v env c v' hI hshare hsucc
  unfold FeeStore.getBaseFee at hI ⊢
  rcases hsucc.outcome.fees_cases with ⟨b, m, fee, -, heff⟩ | ⟨hsame | ⟨f, hc, hstored⟩, -⟩
  · rwa [heff.baseFee]
  · rwa [hsame]
  · rw [hstored]
    exact hshare env c f rfl hc hsucc

/-- **Fees stay inside their bets exactly where the rates fit.**  In every run
each fee is a part of its bet, and no bet, stake or revenue is ever negative,
if and only if every bet that went through met a rate between 0 and 1 or was
too small to tell; base fees stored within `0..=10000` are such rates. -/
theorem fees_inside_iff (X : Externs) (b : Address → Address → Nat) (t s : Nat) (as : List Action) :
    (((∀ tr ∈ trace (step X) (genesis b t s) as, FeeInside X tr)
          ∧ ∀ bs, bs <+: as → NonNegative (run (step X) (genesis b t s) bs))
        ↔ ∀ tr ∈ trace (step X) (genesis b t s) as, RateKept X tr)
      ∧ ((∀ tr ∈ trace (step X) (genesis b t s) as, StoresShare X tr) →
        ∀ tr ∈ trace (step X) (genesis b t s) as, RateKept X tr) := by
  refine ⟨⟨fun h tr htr => (feeInside_iff tr).mp (h.1 tr htr), fun h => ?_⟩, fun h tr htr => ?_⟩
  · have hinside : ∀ tr ∈ trace (step X) (genesis b t s) as, FeeInside X tr := fun tr htr =>
      (feeInside_iff tr).mpr (h tr htr)
    refine ⟨hinside, fun bs hbs => ?_⟩
    exact (NonNegative.genesis b t s).run (.genesis b t s) bs fun tr htr => hinside tr (mem_trace_of_isPrefix (step X) hbs htr)
  · -- the base fee of the moment was stored before, within the bounds
    obtain ⟨bs, hbs, hpre, -⟩ := prefix_of_mem_trace (step X) htr
    have hbs : bs <+: as := (List.prefix_append bs _).trans hbs
    obtain ⟨hnn, hle⟩ := baseFee_share b t s bs fun tr' htr' => h tr' (mem_trace_of_isPrefix (step X) hbs htr')
    rw [← hpre] at hnn hle
    refine (feeInside_iff tr).mp fun env p hact hsucc => ?_
    obtain ⟨m, fee, heff⟩ := hsucc.effect.places
    rw [heff.feeCharged_eq]
    exact calculateTieredFeeWithBase_range heff.fee_eq heff.amount_pos hnn hle

/-- **A base fee of 200% makes the stakes negative.** -/
theorem sampleDoubleFee_negative :
    ¬((∀ tr ∈ trace (step sampleExterns) sampleGenesis (sampleOpening 20000 1000), FeeInside sampleExterns tr)
      ∧ ∀ bs, bs <+: sampleOpening 20000 1000 → NonNegative (run (step sampleExterns) sampleGenesis bs)) := by
  intro h
  have hstaked := (h.2 _ (List.prefix_refl _)).totalStaked 1 _ rfl
  exact absurd hstaked (by decide)

end PredictIQ.Contract
