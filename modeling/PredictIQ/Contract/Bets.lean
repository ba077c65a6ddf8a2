/-
  PredictIQ.Contract.Bets: `bets.rs`.

  `placeBet` moves the whole amount into the contract and splits it three
  ways: the fee goes to the token's revenue, the rest to the bet record and
  the market's pool.  A referrer is credited a share of the fee on top of
  that.  `claim_winnings` and `withdraw_refund` are named by the contract
  interface and have no body in the source.
-/
import PredictIQ.Contract.Markets

namespace PredictIQ.Contract

open Foundation Tx

/-! ## §1. The function. -/

/-- The caller's arguments of `place_bet`. -/
structure BetParams where
  bettor : Address
  marketId : Nat
  outcome : Nat
  amount : Int
  tokenAddress : Address
  referrer : Option Address

/-- `DataKey::Bet(market_id, bettor, outcome)`. -/
def BetParams.key (b : BetParams) : Nat × Address × Nat := (b.marketId, b.bettor, b.outcome)

/-- The transfer that brings the stake in. -/
def BetParams.payment (b : BetParams) : Transfer :=
  ⟨b.tokenAddress, b.bettor, currentContractAddress, b.amount⟩

/-- The bettor's record on this outcome, empty before the first bet. -/
def BetStore.existingBet (s : BetStore) (b : BetParams) : Bet :=
  (s.bet.lookup b.key).getD
    { marketId := b.marketId, bettor := b.bettor, outcome := b.outcome, amount := 0, feePaid := 0 }

/-- The guards of `place_bet` on the market. -/
def checkBet (market : Market) (b : BetParams) : Body Unit := do
  failIf (market.status ≠ .active) .marketClosed
  whenever (0 < market.parentId)
    (validateParentMarket market.parentId market.parentOutcomeIdx)
  let now ← reads (·.timestamp)
  failIf (market.deadline ≤ now) .marketClosed
  -- a second stop, independent of the betting deadline
  failIf (market.resolutionDeadline ≤ now) .resolutionDeadlinePassed
  failIf (market.options.length ≤ b.outcome) .invalidOutcome
  failIf (b.tokenAddress ≠ market.tokenAddress) .invalidBetAmount

/-- The part of `place_bet` that writes the bet record and the market. -/
def creditBet (market : Market) (b : BetParams) (netAmount fee : Int) : Body Unit := do
  let existingBet ← reads (·.bets.existingBet b)
  let amount ← orErr (checkedAdd existingBet.amount netAmount) .arithmeticOverflow
  let feePaid ← orErr (checkedAdd existingBet.feePaid fee) .arithmeticOverflow
  let totalStaked ← orErr (checkedAdd market.totalStaked netAmount) .arithmeticOverflow
  let stake ← orErr (checkedAdd (getOutcomeStake market b.outcome) netAmount) .arithmeticOverflow
  let staked := setOutcomeStake { market with totalStaked := totalStaked } b.outcome stake
  -- `is_new_bettor`: the record held nothing before this bet
  let counted ← orTrap
    (if amount = netAmount then incrementOutcomeBetCount staked b.outcome else some staked)
  let record := { existingBet with amount := amount, feePaid := feePaid, outcome := b.outcome }
  update fun w => { w with bets.bet := w.bets.bet.insert b.key record }
  updateMarket counted

/-- The part of `place_bet` that credits and remembers the referrer. -/
def creditReferrer (b : BetParams) (fee : Int) : Body Unit := do
  match b.referrer with
  | some r => do
      whenever (0 < fee) (addReferralReward r b.tokenAddress fee)
      update fun w => { w with bets.betReferrer := w.bets.betReferrer.insert b.key r }
  | none => pure ()

def placeBet (b : BetParams) : Body Unit := do
  requireAuth b.bettor
  requireNotPausedForHighRisk
  failIf (b.amount ≤ 0) .invalidAmount
  failIf (b.referrer = some b.bettor) .invalidReferrer
  let market ← loadMarket b.marketId
  checkBet market b
  checkTokenNotFrozen b.tokenAddress b.bettor
  safeTransfer b.tokenAddress b.bettor currentContractAddress b.amount
  -- the whole amount is in the contract before the fee is known
  let fee ← calculateTieredFee b.amount market.tier
  let netAmount ← orTrap (inI128 (b.amount - fee))
  whenever (0 < fee) (collectFee b.tokenAddress fee)
  creditBet market b netAmount fee
  creditReferrer b fee
  publish (.betPlace b.marketId b.bettor b.outcome b.amount)

/-! ## §2. What each part leaves behind. -/

/-- The market after `net` more was staked on `outcome`. -/
def Market.staked (m : Market) (outcome : Nat) (net : Int) (counts : Store Nat Nat) : Market :=
  { m with
    totalStaked := m.totalStaked + net
    outcomeStakes := m.outcomeStakes.insert outcome (getOutcomeStake m outcome + net)
    winnerCounts := counts }

/-- The counts of bettors after a bet: one more where its record held nothing. -/
def Market.countsAfter (m : Market) (b : BetParams) (s : BetStore) : Store Nat Nat :=
  if (s.existingBet b).amount = 0 then
    m.winnerCounts.insert b.outcome (getOutcomeBetCount m b.outcome + 1)
  else m.winnerCounts

/-- The bet record after `b.amount`, `fee` of it for the protocol, was added. -/
def BetParams.record (b : BetParams) (s : BetStore) (fee : Int) : Bet :=
  { s.existingBet b with
    amount := (s.existingBet b).amount + (b.amount - fee)
    feePaid := (s.existingBet b).feePaid + fee
    outcome := b.outcome }

/-- The fee `place_bet` charges in state `w`; 0 where it computes none. -/
def feeCharged (w : World) (b : BetParams) : Int :=
  match w.markets.market.lookup b.marketId with
  | some m => (calculateTieredFeeWithBase b.amount w.fees.getBaseFee m.tier).getD 0
  | none => 0

section Rules

variable {env : Env} {w w' : World} {u : Unit}

/-- The market takes a bet now. -/
structure AcceptsBet (w : World) (m : Market) (b : BetParams) : Prop where
  active : m.status = .active
  parent : 0 < m.parentId → ParentResolvedTo w.markets m.parentId m.parentOutcomeIdx
  before_deadline : w.timestamp < m.deadline
  before_resolution : w.timestamp < m.resolutionDeadline
  outcome_lt : b.outcome < m.options.length
  token : b.tokenAddress = m.tokenAddress

theorem checkBet_ok {m : Market} {b : BetParams} (h : checkBet m b env w = (.ok u, w')) :
    AcceptsBet w m b ∧ w = w' := by
  simp only [checkBet, bind_eq_ok, failIf_ok, reads_eq_ok, and_assoc, exists_and_left,
    exists_eq_left', exists_const, ne_eq, not_not, not_le] at h
  obtain ⟨hs, _, v, hp, hd, hr, ho, ht, hv⟩ := h
  -- a market with a parent takes bets only once the parent came out as it needs
  have hpar : (0 < m.parentId → ParentResolvedTo w.markets m.parentId m.parentOutcomeIdx)
      ∧ w = v := by
    rcases whenever_eq_ok.mp hp with ⟨_, hp⟩ | ⟨hnone, hwv⟩
    · obtain ⟨hres, hwv⟩ := validateParentMarket_ok.mp hp
      exact ⟨fun _ => hres, hwv⟩
    · exact ⟨fun hsome => absurd hsome hnone, hwv⟩
  obtain ⟨hpar, rfl⟩ := hpar
  exact ⟨⟨hs, hpar, hd, hr, ho, ht⟩, hv⟩

theorem creditBet_ok {m : Market} {b : BetParams} {fee : Int}
    (h : creditBet m b (b.amount - fee) fee env w = (.ok u, w')) :
    w' = { w with
      bets.bet := w.bets.bet.insert b.key (b.record w.bets fee)
      markets := w.markets.updateMarket
        (m.staked b.outcome (b.amount - fee) (m.countsAfter b w.bets)) } := by
  simp only [creditBet, bind_eq_ok, reads_eq_ok, orErr_ok, orTrap_ok, update_eq_ok,
    updateMarket_ok, checkedAdd, inI128_eq_some, and_assoc, exists_and_left, exists_eq_left',
    exists_eq_left, exists_const] at h
  obtain ⟨_, _, _, _, _, _, _, _, counted, hc, rfl⟩ := h
  -- counting the bettor changes `winnerCounts` at most
  have hcounted : counted = m.staked b.outcome (b.amount - fee) (m.countsAfter b w.bets) := by
    unfold Market.countsAfter
    split at hc
    · rename_i hfirst
      rw [if_pos (by omega)]
      simp only [incrementOutcomeBetCount, Option.map_eq_some_iff, addU32_eq_some] at hc
      obtain ⟨count, ⟨-, rfl⟩, rfl⟩ := hc
      rfl
    · rename_i hagain
      rw [if_neg (by omega)]
      cases hc
      rfl
  rw [hcounted]
  rfl

/-- Crediting the referrer touches the fee ledger, the referrer records and
the events; the reward is taken from nowhere. -/
theorem creditReferrer_ok {b : BetParams} {fee : Int}
    (h : creditReferrer b fee env w = (.ok u, w')) :
    ∃ rb brs evs, w' = { w with
        fees.referrerBalance := rb, bets.betReferrer := brs, events := evs } ∧
      Publishes w [] w' ∧
      (rb = w.fees.referrerBalance ∨
        ∃ r reward, b.referrer = some r ∧ 0 < fee ∧ referralReward fee = some reward
          ∧ rb = w.fees.referrerBalance.insert (r, b.tokenAddress)
              (w.fees.getReferrerBalance r b.tokenAddress + reward)) := by
  unfold creditReferrer at h
  cases hr : b.referrer with
  | none =>
      simp only [hr, pure_eq_ok] at h
      rw [← h.2]
      exact ⟨_, _, _, rfl, .of_eq rfl, Or.inl rfl⟩
  | some r =>
      simp only [hr, bind_eq_ok, update_eq_ok] at h
      obtain ⟨_, v, hrew, rfl⟩ := h
      rcases whenever_eq_ok.mp hrew with ⟨hf, hrew⟩ | ⟨_, rfl⟩
      · obtain ⟨reward, hreward, rfl⟩ := addReferralReward_ok hrew
        exact ⟨_, _, _, rfl, .of_aside rfl rfl, Or.inr ⟨r, reward, rfl, hf, hreward, rfl⟩⟩
      · exact ⟨_, _, _, rfl, .of_eq rfl, Or.inl rfl⟩

/-! ## §3. The effect of a bet. -/

/-- What a successful `place_bet` on market `m` at fee `fee` does. -/
structure PlaceBetEffect (env : Env) (w : World) (b : BetParams) (m : Market) (fee : Int)
    (w' : World) : Prop where
  auth : env.authorized b.bettor = true
  not_paused : w.breaker.getState ≠ .paused
  amount_pos : 0 < b.amount
  lookup : w.markets.market.lookup b.marketId = some m
  accepts : AcceptsBet w m b
  transferable : Transferable env w b.payment
  fee_eq : calculateTieredFeeWithBase b.amount w.fees.getBaseFee m.tier = some fee
  bet : w'.bets.bet = w.bets.bet.insert b.key (b.record w.bets fee)
  markets : ∃ counts,
    w'.markets = w.markets.updateMarket (m.staked b.outcome (b.amount - fee) counts)
  baseFee : w'.fees.baseFee = w.fees.baseFee
  feeRevenue : w'.fees.feeRevenue = if 0 < fee then
    w.fees.feeRevenue.insert b.tokenAddress (w.fees.getRevenue b.tokenAddress + fee)
    else w.fees.feeRevenue
  referrerBalance : w'.fees.referrerBalance = w.fees.referrerBalance ∨
    ∃ r reward, b.referrer = some r ∧ 0 < fee ∧ referralReward fee = some reward
      ∧ w'.fees.referrerBalance = w.fees.referrerBalance.insert (r, b.tokenAddress)
          (w.fees.getReferrerBalance r b.tokenAddress + reward)
  /-- Nothing else moves but the stake, into the contract. -/
  frame : ∃ evs, w' = { w.pay b.payment with
    bets := w'.bets, markets := w'.markets, fees := w'.fees, events := evs }

theorem PlaceBetEffect.feeCharged_eq {b : BetParams} {m : Market} {fee : Int}
    (h : PlaceBetEffect env w b m fee w') : feeCharged w b = fee := by
  unfold feeCharged
  rw [h.lookup]
  show (calculateTieredFeeWithBase b.amount w.fees.getBaseFee m.tier).getD 0 = fee
  rw [h.fee_eq]
  rfl

theorem collectFee_whenever {token : Address} {fee : Int}
    (h : whenever (0 < fee) (collectFee token fee) env w = (.ok u, w')) :
    ∃ overall evs, w' = { w with
      fees.feeRevenue := if 0 < fee then
        w.fees.feeRevenue.insert token (w.fees.getRevenue token + fee) else w.fees.feeRevenue
      fees.totalFeesCollected := overall
      events := evs } ∧ Publishes w [] w' := by
  rcases whenever_eq_ok.mp h with ⟨hf, h⟩ | ⟨hf, rfl⟩
  · obtain ⟨overall, rfl⟩ := collectFee_ok h
    rw [if_pos hf]
    exact ⟨_, _, rfl, .of_aside rfl rfl⟩
  · rw [if_neg hf]
    exact ⟨_, _, rfl, .of_eq rfl⟩

/-- What a successful `place_bet` does, whom it counts, and that it announces the
bet with its whole amount. -/
theorem placeBet_ok {b : BetParams} (h : placeBet b env w = (.ok u, w')) :
    ∃ m fee, PlaceBetEffect env w b m fee w'
      ∧ w'.markets = w.markets.updateMarket
          (m.staked b.outcome (b.amount - fee) (m.countsAfter b w.bets))
      ∧ Publishes w [.betPlace b.marketId b.bettor b.outcome b.amount] w' := by
  simp only [placeBet, bind_eq_ok, requireAuth_ok, requireNotPausedForHighRisk_ok, failIf_ok,
    loadMarket_ok, checkTokenNotFrozen_ok, safeTransfer_ok, calculateTieredFee_ok, orTrap_ok,
    inI128_eq_some, publish_ok, and_assoc, exists_and_left, exists_eq_left', exists_eq_left,
    exists_const, not_le] at h
  obtain ⟨hauth, hnp, hpos, _, m, hm, _, v₁, hcheck, _, htr, fee, hfee, _, _, _, v₂, hcollect, _,
    v₃, hcredit, _, v₄, href, rfl⟩ := h
  -- the fee, the stake and the referral are three writes to three ledgers
  obtain ⟨hacc, rfl⟩ := checkBet_ok hcheck
  obtain ⟨overall, evs, rfl, hfees⟩ := collectFee_whenever hcollect
  obtain rfl := creditBet_ok hcredit
  obtain ⟨rb, brs, evs', rfl, hreferral, hrb⟩ := creditReferrer_ok href
  refine ⟨m, fee, ?_, rfl, ?_⟩
  · exact ⟨hauth, hnp, hpos, hm, hacc, htr, hfee, rfl, ⟨_, rfl⟩, rfl, rfl, hrb, ⟨_, rfl⟩⟩
  · -- the payment and the stake publish nothing
    have haside := Publishes.trans (w := w) hfees hreferral
    exact haside.trans (.of_append rfl)

end Rules

end PredictIQ.Contract
