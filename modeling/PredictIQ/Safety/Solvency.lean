/-
  PredictIQ.Safety.Solvency: does the contract hold what it owes?

  Per token the contract owes the pools of the markets in that token, the fee
  revenue and the referrers' balances.  A bet brings its amount in and splits
  it between pool and revenue; the referral reward is credited on top, out of
  nothing.  The contract stays solvent in every run whose referred bets are
  too small to earn a reward.
-/
import PredictIQ.Contract.Lifecycle

namespace PredictIQ.Contract

open Foundation Tx

variable {X : Externs}

/-! ## §1. Assets and liabilities. -/

/-- The pools of all markets in `token`. -/
def pooled (s : MarketStore) (token : Address) : Int :=
  Store.total (fun _ m => if m.tokenAddress = token then m.totalStaked else 0) s.market

/-- What the referrers hold in `token`. -/
def owedToReferrers (s : FeeStore) (token : Address) : Int :=
  Store.total (fun key x => if key.2 = token then x else 0) s.referrerBalance

/-- All that the contract owes in `token`. -/
def liabilities (w : World) (token : Address) : Int :=
  pooled w.markets token + w.fees.getRevenue token + owedToReferrers w.fees token

/-- The contract holds what it owes, in every token. -/
def Solvent (w : World) : Prop :=
  ∀ token, liabilities w token ≤ w.balances token currentContractAddress

/-! ## §2. How writes move the ledgers. -/

theorem FeeStore.getRevenue_of_insert {s s' : FeeStore} {t : Address} {x : Int}
    (h : s'.feeRevenue = s.feeRevenue.insert t x) (token : Address) :
    s'.getRevenue token = if token = t then x else s.getRevenue token := by
  unfold FeeStore.getRevenue
  rw [h, Store.lookup_insert_eq]
  split <;> rfl

theorem owedToReferrers_of_insert {s s' : FeeStore} {r t : Address} {x : Int}
    (h : s'.referrerBalance = s.referrerBalance.insert (r, t) x) (token : Address) :
    owedToReferrers s' token
      = owedToReferrers s token + if t = token then x - s.getReferrerBalance r t else 0 := by
  unfold owedToReferrers
  rw [h, Store.total_insert_getD _ _ _ _ 0 (by simp)]
  show _ - (if t = token then s.getReferrerBalance r t else 0) + (if t = token then x else 0) = _
  split <;> omega

/-- Staking on a stored market raises the pool of its token. -/
theorem pooled_of_staked {s : MarketStore} {m : Market} {outcome : Nat} {net : Int}
    {counts : Store Nat Nat} (hm : s.market.lookup m.id = some m) (token : Address) :
    pooled (s.updateMarket (m.staked outcome net counts)) token
      = pooled s token + if m.tokenAddress = token then net else 0 := by
  show Store.total _ (s.market.insert m.id (m.staked outcome net counts)) = _
  -- the market's old contribution out, its new one in
  rw [Store.total_insert, hm]
  show pooled s token - (if m.tokenAddress = token then m.totalStaked else 0)
    + (if m.tokenAddress = token then m.totalStaked + net else 0) = _
  split <;> omega

/-- A new market adds an empty pool. -/
theorem pooled_of_created {s : MarketStore} {p : MarketParams} {id window : Nat} {deposit : Int}
    (hnone : s.market.lookup id = none) (token : Address) :
    pooled (s.addMarket (p.newMarket id deposit) window) token = pooled s token := by
  show Store.total _ (s.market.insert id (p.newMarket id deposit)) = _
  rw [Store.total_insert, hnone]
  show pooled s token - 0 + (if p.nativeToken = token then (0 : Int) else 0) = _
  rw [ite_self]
  omega

/-- A payment by the contract takes at most its amount, in its token. -/
theorem balance_pay_out {env : Env} {w : World} {x : Transfer} (hx : Transferable env w x)
    (hpayer : x.payer = currentContractAddress) (token : Address) :
    (w.balances token currentContractAddress : Int) - (if x.token = token then x.amount else 0)
      ≤ (w.pay x).balances token currentContractAddress := by
  -- the payer holds the amount, so the subtraction does not truncate
  obtain ⟨hnonneg, hle, _⟩ := hx
  rw [hpayer] at hle
  simp only [World.pay, moveBalance, hpayer, if_true]
  by_cases htoken : x.token = token
  · subst htoken
    rw [if_pos rfl, if_pos rfl]
    split <;> omega
  · rw [if_neg htoken, if_neg (fun h => htoken h.symm), sub_zero]

/-- A payment to the contract by somebody else brings its amount in. -/
theorem balance_pay_in {env : Env} {w : World} {x : Transfer} (hx : Transferable env w x)
    (hpayer : x.payer ≠ currentContractAddress) (hpayee : x.payee = currentContractAddress)
    (token : Address) :
    ((w.pay x).balances token currentContractAddress : Int)
      = w.balances token currentContractAddress + if x.token = token then x.amount else 0 := by
  obtain ⟨hnonneg, _, _⟩ := hx
  simp only [World.pay, moveBalance, hpayee, if_true]
  by_cases htoken : x.token = token
  · subst htoken
    rw [if_pos rfl, if_pos rfl, if_neg (fun h => hpayer h.symm)]
    omega
  · rw [if_neg htoken, if_neg (fun h => htoken h.symm), add_zero]

/-- Where the contract signs nothing, a signer is somebody else. -/
theorem ne_contract_of_signed {env : Env} {a : Address}
    (hsigner : env.authorized currentContractAddress = false) (hauth : env.authorized a = true) :
    a ≠ currentContractAddress := by
  intro heq
  rw [heq, hsigner] at hauth
  cases hauth

/-! ## §3. One call. -/

/-- The books balance: records are in order, the base fee is a share, and the
contract is solvent. -/
structure PoolBacked (w : World) : Prop where
  registered : Registered w
  baseFee_nonneg : 0 ≤ w.fees.getBaseFee
  baseFee_le : w.fees.getBaseFee ≤ 10000
  solvent : Solvent w

section Calls

variable {env : Env} {w w' : World}

/-- While the base fee stands, only solvency is left to show. -/
theorem PoolBacked.next (hI : PoolBacked w) (hreg : Registered w')
    (hbase : w'.fees.baseFee = w.fees.baseFee) (hsolvent : Solvent w') : PoolBacked w' := by
  have hget : w'.fees.getBaseFee = w.fees.getBaseFee := by
    unfold FeeStore.getBaseFee
    rw [hbase]
  refine ⟨hreg, ?_, ?_, hsolvent⟩
  · rw [hget]
    exact hI.baseFee_nonneg
  · rw [hget]
    exact hI.baseFee_le

/-- **A bet raises the liabilities by its amount and by the referral reward.** -/
theorem PlaceBetEffect.liabilities {b : BetParams} {m : Market} {fee : Int} (hreg : Registered w)
    (hfee : 0 ≤ fee) (h : PlaceBetEffect env w b m fee w') :
    ∃ reward, (reward = 0 ∨ (b.referrer ≠ none ∧ referralReward fee = some reward)) ∧
      ∀ token, liabilities w' token
        = liabilities w token + if b.tokenAddress = token then b.amount + reward else 0 := by
  have hid : m.id = b.marketId := hreg.keyed _ m h.lookup
  obtain ⟨counts, hmarkets⟩ := h.markets
  have hpool : ∀ token, pooled w'.markets token
      = pooled w.markets token + if b.tokenAddress = token then b.amount - fee else 0 := by
    intro token
    rw [hmarkets, pooled_of_staked (by rw [hid]; exact h.lookup), h.accepts.token]
  have hrevenue : ∀ token, w'.fees.getRevenue token
      = w.fees.getRevenue token + if b.tokenAddress = token then fee else 0 := by
    intro token
    have hrev := h.feeRevenue
    split at hrev
    · rw [FeeStore.getRevenue_of_insert hrev]
      by_cases htoken : token = b.tokenAddress
      · rw [if_pos htoken, if_pos htoken.symm, htoken]
      · rw [if_neg htoken, if_neg (fun h => htoken h.symm), add_zero]
    · -- a fee of zero is not collected
      have hzero : fee = 0 := by omega
      rw [hzero, ite_self, add_zero]
      unfold FeeStore.getRevenue
      rw [hrev]
  -- without a credit the payment covers the bet; with one it falls short by the reward
  rcases h.referrerBalance with hsame | ⟨r, reward, hr, _, hreward, hinsert⟩
  · refine ⟨0, Or.inl rfl, ?_⟩
    intro token
    have howed : owedToReferrers w'.fees token = owedToReferrers w.fees token := by
      unfold owedToReferrers
      rw [hsame]
    unfold PredictIQ.Contract.liabilities
    rw [hpool, hrevenue, howed]
    split <;> omega
  · refine ⟨reward, Or.inr ⟨by rw [hr]; exact Option.some_ne_none r, hreward⟩, ?_⟩
    intro token
    have howed := owedToReferrers_of_insert hinsert token
    unfold PredictIQ.Contract.liabilities
    rw [hpool, hrevenue, howed]
    split <;> omega

/-- A bet that earns no reward is backed by its payment. -/
theorem PoolBacked.bet {b : BetParams} {m : Market} {fee : Int} (hI : PoolBacked w)
    (hsigner : env.authorized currentContractAddress = false)
    (hsmall : b.referrer ≠ none → feeCharged w b < 10) (h : PlaceBetEffect env w b m fee w') :
    PoolBacked w' := by
  obtain ⟨hfee, _⟩ := calculateTieredFeeWithBase_range h.fee_eq h.amount_pos
    hI.baseFee_nonneg hI.baseFee_le
  -- the reward is all that the payment does not cover
  obtain ⟨reward, hreward, hliab⟩ := h.liabilities hI.registered hfee
  have hzero : reward = 0 := by
    rcases hreward with hzero | ⟨hreferred, hreward⟩
    · exact hzero
    · rw [h.feeCharged_eq] at hsmall
      exact referralReward_eq_zero hreward hfee (hsmall hreferred)
  have hreg : Registered w' :=
    (Effect.bet (X := sampleExterns) b m fee w' h).registered hI.registered
  refine hI.next hreg h.baseFee ?_
  intro token
  have hbettor : b.bettor ≠ currentContractAddress := ne_contract_of_signed hsigner h.auth
  have hin := balance_pay_in h.transferable hbettor rfl token
  have hbalance : w'.balances token currentContractAddress
      = (w.pay b.payment).balances token currentContractAddress := by
    obtain ⟨evs, hw⟩ := h.frame
    rw [hw]
  have hsolvent := hI.solvent token
  change _ = _ + (if b.tokenAddress = token then b.amount else 0) at hin
  rw [hliab, hbalance, hin, hzero, add_zero]
  omega

/-- Creating a market owes nobody anything. -/
theorem PoolBacked.create {c : Call} {p : MarketParams} (hI : PoolBacked w)
    (hsigner : env.authorized currentContractAddress = false) (hc : c.kind = .creates p)
    (heff : Effect X env w c w') : PoolBacked w' := by
  obtain ⟨id, h⟩ := heff.creates hc
  obtain ⟨window, hmarkets⟩ := h.markets
  have hnone : w.markets.market.lookup id = none := by
    rw [h.id_eq]
    exact hI.registered.next_unused
  obtain ⟨_, _, _, hw⟩ := h.frame
  have hfees : w'.fees = w.fees := by rw [hw]
  refine hI.next (heff.registered hI.registered) (by rw [hfees]) ?_
  intro token
  have hliab : liabilities w' token = liabilities w token := by
    unfold liabilities
    rw [hfees, hmarkets, pooled_of_created hnone]
  -- fee and deposit can only raise what the contract holds
  have hcreator : p.creator ≠ currentContractAddress := ne_contract_of_signed hsigner h.auth
  have hbalance := h.balance hcreator token
  have hsolvent := hI.solvent token
  omega

/-- A payment by the contract that takes its amount off the liabilities. -/
theorem PoolBacked.payOut {x : Transfer} (hI : PoolBacked w) (hx : Transferable env w x)
    (hpayer : x.payer = currentContractAddress) (hmarkets : w'.markets = w.markets)
    (hbase : w'.fees.baseFee = w.fees.baseFee) (hbalances : w'.balances = (w.pay x).balances)
    (hliab : ∀ token, liabilities w' token
      = liabilities w token - if x.token = token then x.amount else 0) : PoolBacked w' := by
  refine hI.next (hI.registered.of_markets hmarkets) hbase ?_
  intro token
  have hpay := balance_pay_out hx hpayer token
  have hsolvent := hI.solvent token
  rw [hliab, hbalances]
  omega

/-- A withdrawal pays out what it takes off the revenue. -/
theorem PoolBacked.withdraw {token recipient : Address} {amount : Int} (hI : PoolBacked w)
    (h : withdrawProtocolFees token recipient env w = (.ok amount, w')) : PoolBacked w' := by
  obtain ⟨hamount, htransfer, hw⟩ := withdrawProtocolFees_ok h
  refine hI.payOut htransfer rfl (by rw [hw]; rfl) (by rw [hw]; rfl) (by rw [hw]) ?_
  intro token'
  have hrevenue : w'.fees.feeRevenue = w.fees.feeRevenue.insert token 0 := by rw [hw]
  have hmarkets : w'.markets = w.markets := by rw [hw]; rfl
  have howed : owedToReferrers w'.fees token' = owedToReferrers w.fees token' := by rw [hw]; rfl
  unfold liabilities
  rw [FeeStore.getRevenue_of_insert hrevenue, hmarkets, howed, hamount]
  show _ = _ - (if token = token' then w.fees.getRevenue token else 0)
  by_cases htoken : token = token'
  · subst htoken
    rw [if_pos rfl, if_pos rfl]
    omega
  · rw [if_neg htoken, if_neg (fun h => htoken h.symm), sub_zero]

/-- A claim pays out what it takes off the referrer's balance. -/
theorem PoolBacked.claim {address token : Address} {amount : Int} (hI : PoolBacked w)
    (h : claimReferralRewards address token env w = (.ok amount, w')) : PoolBacked w' := by
  obtain ⟨hamount, htransfer, hw⟩ := claimReferralRewards_ok h
  refine hI.payOut htransfer rfl (by rw [hw]; rfl) (by rw [hw]; rfl) (by rw [hw]) ?_
  intro token'
  have hreferrer : w'.fees.referrerBalance
      = w.fees.referrerBalance.insert (address, token) 0 := by rw [hw]
  have hmarkets : w'.markets = w.markets := by rw [hw]; rfl
  have hrevenue : w'.fees.getRevenue token' = w.fees.getRevenue token' := by rw [hw]; rfl
  unfold liabilities
  rw [owedToReferrers_of_insert hreferrer, hmarkets, hrevenue, hamount]
  show _ = _ - (if token = token' then w.fees.getReferrerBalance address token else 0)
  split <;> omega

end Calls

/-! ## §4. Runs. -/

/-- A freshly initialized contract with a base fee of at most 100%. -/
structure PoolInitialized (w : World) : Prop where
  baseFee_nonneg : 0 ≤ w.fees.getBaseFee
  baseFee_le : w.fees.getBaseFee ≤ 10000
  noMarkets : w.markets = {}
  noRevenue : w.fees.feeRevenue = ∅
  noReferrals : w.fees.referrerBalance = ∅

/-- The actions around the betting pool: markets, bets, base fees up to 100%,
withdrawals, claims, time, and outside transfers that leave the contract's
tokens alone.  The contract itself signs nothing. -/
inductive PoolStep (w : World) : Action → Prop
  | createMarket (env : Env) (p : MarketParams)
      (signer : env.authorized currentContractAddress = false) :
      PoolStep w (.call env (.createMarket p))
  | createMarketWithDisputeWindow (env : Env) (p : MarketParams) (dw : Option Nat)
      (signer : env.authorized currentContractAddress = false) :
      PoolStep w (.call env (.createMarketWithDisputeWindow p dw))
  | placeBet (env : Env) (b : BetParams)
      (signer : env.authorized currentContractAddress = false) :
      PoolStep w (.call env (.placeBet b))
  | setBaseFee (env : Env) (amount : Int) (nonneg : 0 ≤ amount) (le : amount ≤ 10000) :
      PoolStep w (.call env (.setBaseFee amount))
  | withdrawProtocolFees (env : Env) (token recipient : Address) :
      PoolStep w (.call env (.withdrawProtocolFees token recipient))
  | claimReferralRewards (env : Env) (address token : Address) :
      PoolStep w (.call env (.claimReferralRewards address token))
  | advance (seconds ledgers : Nat) : PoolStep w (.advance seconds ledgers)
  | external (balances : Address → Address → Nat)
      (safe : ∀ token, w.balances token currentContractAddress
        ≤ balances token currentContractAddress) :
      PoolStep w (.external balances)

/-- A successful bet that names a referrer is charged less than 10, of which a
tenth rounds down to nothing. -/
def EarnsNoReward (X : Externs) (t : Transition World Action) : Prop :=
  ∀ env b, t.act = .call env (.placeBet b) → Succeeds X env (.placeBet b) t.pre t.post →
    b.referrer ≠ none → feeCharged t.pre b < 10

theorem PoolInitialized.backed {w : World} (h : PoolInitialized w) : PoolBacked w := by
  refine ⟨⟨?_, ?_⟩, h.baseFee_nonneg, h.baseFee_le, ?_⟩
  · intro k m hm
    rw [h.noMarkets] at hm
    cases hm
  · intro k m hm
    rw [h.noMarkets] at hm
    cases hm
  · -- nothing is owed yet, and a balance is never negative
    intro token
    have hzero : liabilities w token = 0 := by
      unfold liabilities pooled owedToReferrers FeeStore.getRevenue
      rw [h.noMarkets, h.noRevenue, h.noReferrals]
      rfl
    omega

theorem PoolStep.backed {w : World} {a : Action} (hI : PoolBacked w) (h : PoolStep w a)
    (hsmall : EarnsNoReward X ⟨w, a, step X w a⟩) : PoolBacked (step X w a) := by
  cases h with
  | advance seconds ledgers =>
      exact ⟨hI.registered.of_markets rfl, hI.baseFee_nonneg, hI.baseFee_le, hI.solvent⟩
  | external balances safe =>
      refine ⟨hI.registered.of_markets rfl, hI.baseFee_nonneg, hI.baseFee_le, ?_⟩
      intro token
      have hsafe := safe token
      have hsolvent := hI.solvent token
      show liabilities w token ≤ balances token currentContractAddress
      omega
  | createMarket env p signer =>
      refine step_call_keeps PoolBacked hI ?_
      intro hsucc
      exact hI.create signer rfl hsucc.effect
  | createMarketWithDisputeWindow env p dw signer =>
      refine step_call_keeps PoolBacked hI ?_
      intro hsucc
      exact hI.create signer rfl hsucc.effect
  | placeBet env b signer =>
      refine step_call_keeps PoolBacked hI ?_
      intro hsucc
      obtain ⟨m, fee, hbet⟩ := hsucc.effect.places
      exact hI.bet signer (hsmall env b rfl hsucc) hbet
  | setBaseFee env amount nonneg le =>
      refine step_call_keeps PoolBacked hI ?_
      intro hsucc
      obtain ⟨r, hr⟩ := hsucc
      obtain ⟨hr, _⟩ := done_eq_ok.mp hr
      obtain ⟨_, hpost⟩ := setBaseFee_ok.mp hr
      rw [hpost]
      exact ⟨hI.registered.of_markets rfl, nonneg, le, hI.solvent⟩
  | withdrawProtocolFees env token recipient =>
      refine step_call_keeps PoolBacked hI ?_
      intro hsucc
      obtain ⟨r, hr⟩ := hsucc
      obtain ⟨amount, hr, _⟩ := returning_eq_ok.mp hr
      exact hI.withdraw hr
  | claimReferralRewards env address token =>
      refine step_call_keeps PoolBacked hI ?_
      intro hsucc
      obtain ⟨r, hr⟩ := hsucc
      obtain ⟨amount, hr, _⟩ := returning_eq_ok.mp hr
      exact hI.claim hr

/-- **The pool is solvent in every run whose referred bets earn no reward.** -/
theorem pool_solvent (X : Externs) (w : World) (as : List Action) (h0 : PoolInitialized w)
    (hpool : ∀ t ∈ trace (step X) w as, PoolStep t.pre t.act)
    (hsmall : ∀ t ∈ trace (step X) w as, EarnsNoReward X t) : Solvent (run (step X) w as) := by
  refine (run_invariant_of (step X) PoolBacked (fun t => PoolStep t.pre t.act ∧ EarnsNoReward X t)
    h0.backed ?_ as fun t ht => ⟨hpool t ht, hsmall t ht⟩).solvent
  intro v a hI hc
  exact PoolStep.backed hI hc.1 hc.2

/-- The sample contract with a base fee of 10%, ready for bets. -/
def samplePool : World := sampleRun [.call everybody (.initializeContract ⟨1⟩ 1000)]

/-- One market and one bet of `stake` on it that names account 4. -/
def sampleReferral (stake : Int) : List Action :=
  [.call everybody (.createMarket (sampleMarket ⟨2⟩ ⟨10⟩)),
    .call everybody (.placeBet { sampleBet ⟨3⟩ ⟨10⟩ 1 0 stake with referrer := some ⟨4⟩ })]

theorem samplePool_initialized : PoolInitialized samplePool :=
  ⟨by decide, by decide, rfl, rfl, rfl⟩

theorem sampleReferral_steps (stake : Int) :
    ∀ t ∈ trace (step sampleExterns) samplePool (sampleReferral stake), PoolStep t.pre t.act := by
  intro t ht
  simp only [sampleReferral, trace, List.mem_cons, List.not_mem_nil, or_false] at ht
  rcases ht with rfl | rfl
  · exact .createMarket everybody _ rfl
  · exact .placeBet everybody _ rfl

/-- A bet of 99 costs 9 and earns nothing. -/
theorem pool_solvent_sample : Solvent (run (step sampleExterns) samplePool (sampleReferral 99)) := by
  refine pool_solvent sampleExterns samplePool (sampleReferral 99) samplePool_initialized
    (sampleReferral_steps 99) ?_
  intro t ht env b hact _ href
  simp only [sampleReferral, trace, List.mem_cons, List.not_mem_nil, or_false] at ht
  rcases ht with rfl | rfl
  · cases hact
  · cases hact
    decide

/-- **A bet of 1000 leaves the contract owing 1010 and holding 1000.** -/
theorem sampleReferral_insolvent :
    PoolInitialized samplePool
      ∧ (∀ t ∈ trace (step sampleExterns) samplePool (sampleReferral 1000), PoolStep t.pre t.act)
      ∧ liabilities (run (step sampleExterns) samplePool (sampleReferral 1000)) ⟨10⟩ = 1010
      ∧ (run (step sampleExterns) samplePool (sampleReferral 1000)).balances ⟨10⟩
          currentContractAddress = 1000
      ∧ ¬Solvent (run (step sampleExterns) samplePool (sampleReferral 1000)) := by
  refine ⟨samplePool_initialized, sampleReferral_steps 1000, by decide, by decide, ?_⟩
  intro h
  exact absurd (h ⟨10⟩) (by decide)

end PredictIQ.Contract
