/-
  PredictIQ.Safety.FeeBooks: the revenue, the referral and the fee counters.

  A successful bet adds its fee to the revenue of its token and to the overall
  counter, and a tenth of it to the balance of its referrer.  A withdrawal pays
  the whole revenue of a token out, a claim the whole balance of a referrer.
  No other call writes one of these entries, so that over any run what is on
  the books and what was paid out make up what was charged and credited.
-/
import PredictIQ.Safety.TokenFlows

namespace PredictIQ.Contract

open Foundation Tx

variable {X : Externs}

/-! ## §1. What a bet writes to the fee store. -/

/-- `collect_fee`, if there is a fee. -/
def FeeStore.collected (s : FeeStore) (token : Address) (fee : Int) : FeeStore :=
  if 0 < fee then
    { s with
      feeRevenue := s.feeRevenue.insert token (s.getRevenue token + fee)
      totalFeesCollected := some (s.totalFeesCollected.getD 0 + fee) }
  else s

/-- What `add_referral_reward` credits for a fee, if there is one. -/
def rewardFor (fee : Int) : Int := if 0 < fee then (referralReward fee).getD 0 else 0

/-- The referrer's credit, where the bet names one and a fee is charged. -/
def FeeStore.creditedFor (s : FeeStore) (b : BetParams) (fee : Int) : FeeStore :=
  match b.referrer with
  | some r =>
      if 0 < fee then
        { s with
          referrerBalance := s.referrerBalance.insert (r, b.tokenAddress)
            (s.getReferrerBalance r b.tokenAddress + rewardFor fee) }
      else s
  | none => s

section Bets

variable {env : Env} {w w' : World} {u : Unit} {b : BetParams}

theorem collectFee_fees {token : Address} {fee : Int}
    (h : whenever (0 < fee) (collectFee token fee) env w = (.ok u, w')) :
    w'.fees = w.fees.collected token fee := by
  unfold FeeStore.collected
  rcases whenever_eq_ok.mp h with ⟨hpos, h⟩ | ⟨hpos, rfl⟩
  · simp only [collectFee, bind_eq_ok, reads_eq_ok, orErr_ok, update_eq_ok, publish_ok, checkedAdd,
      inI128_eq_some, and_assoc, exists_and_left, exists_eq_left', exists_eq_left, exists_const] at h
    obtain ⟨_, _, _, _, rfl⟩ := h
    rw [if_pos hpos]
  · rw [if_neg hpos]

theorem creditReferrer_fees {fee : Int} (h : creditReferrer b fee env w = (.ok u, w')) :
    w'.fees = w.fees.creditedFor b fee := by
  unfold creditReferrer at h
  unfold FeeStore.creditedFor
  cases hr : b.referrer with
  | none =>
      simp only [hr, pure_eq_ok] at h
      rw [← h.2]
  | some r =>
      simp only [hr, bind_eq_ok, update_eq_ok] at h
      obtain ⟨_, v, hrew, rfl⟩ := h
      show v.fees = _
      rcases whenever_eq_ok.mp hrew with ⟨hpos, hrew⟩ | ⟨hpos, rfl⟩
      · obtain ⟨reward, hreward, rfl⟩ := addReferralReward_ok hrew
        show _ = if 0 < fee then _ else _
        rw [if_pos hpos, rewardFor, if_pos hpos, hreward]
        rfl
      · show _ = if 0 < fee then _ else _
        rw [if_neg hpos]

/-- A bet writes the fee it charges to the books, and the referrer's part of it. -/
theorem placeBet_fees (h : placeBet b env w = (.ok u, w')) :
    w'.fees = (w.fees.collected b.tokenAddress (feeCharged w b)).creditedFor b (feeCharged w b) := by
  simp only [placeBet, bind_eq_ok, requireAuth_ok, requireNotPausedForHighRisk_ok, failIf_ok,
    loadMarket_ok, checkTokenNotFrozen_ok, safeTransfer_ok, calculateTieredFee_ok, orTrap_ok,
    inI128_eq_some, publish_ok, and_assoc, exists_and_left, exists_eq_left', exists_eq_left,
    exists_const, not_le] at h
  obtain ⟨_, _, _, _, m, hm, _, v₁, hcheck, _, _, fee, hcalc, _, _, _, v₂, hcollect, _,
    v₃, hcredit, _, v₄, href, rfl⟩ := h
  obtain ⟨_, rfl⟩ := checkBet_ok hcheck
  have hcharged : feeCharged w b = fee := by
    unfold feeCharged
    rw [hm]
    exact congrArg (·.getD 0) hcalc
  rw [hcharged]
  show v₄.fees = _
  rw [creditReferrer_fees href]
  -- the stake is written between the two, to other stores
  have hbetween : v₃.fees = v₂.fees := by
    simp only [creditBet, bind_eq_ok, reads_eq_ok, orErr_ok, orTrap_ok, update_eq_ok,
      updateMarket_ok, and_assoc, exists_and_left, exists_eq_left', exists_eq_left,
      exists_const] at hcredit
    obtain ⟨_, _, _, _, _, _, _, _, _, _, rfl⟩ := hcredit
    rfl
  rw [hbetween, collectFee_fees hcollect]
  rfl

/-! ## §2. The entries after a bet. -/

/-- A fee is charged when it is positive. -/
theorem FeeStore.getRevenue_collected (s : FeeStore) (token token' : Address) (fee : Int) :
    (s.collected token fee).getRevenue token' = s.getRevenue token' + if token = token' then max 0 fee else 0 := by
  unfold FeeStore.collected
  by_cases hpos : 0 < fee
  · rw [if_pos hpos]
    show ((s.feeRevenue.insert token _).lookup token').getD 0 = _
    rw [Store.lookup_insert_eq]
    by_cases ht : token' = token
    · subst ht
      rw [if_pos rfl, if_pos rfl, max_eq_right hpos.le]
      rfl
    · rw [if_neg ht, if_neg (fun h => ht h.symm), add_zero]
      rfl
  · rw [if_neg hpos, max_eq_left (not_lt.mp hpos), ite_self, add_zero]

theorem FeeStore.total_collected (s : FeeStore) (token : Address) (fee : Int) :
    (s.collected token fee).totalFeesCollected.getD 0 = s.totalFeesCollected.getD 0 + max 0 fee := by
  unfold FeeStore.collected
  by_cases hpos : 0 < fee
  · rw [if_pos hpos, max_eq_right hpos.le]
    rfl
  · rw [if_neg hpos, max_eq_left (not_lt.mp hpos), add_zero]

@[simp] theorem FeeStore.getReferrerBalance_collected (s : FeeStore) (token r t : Address) (fee : Int) :
    (s.collected token fee).getReferrerBalance r t = s.getReferrerBalance r t := by
  unfold FeeStore.collected
  split <;> rfl

@[simp] theorem FeeStore.getRevenue_creditedFor (s : FeeStore) (b : BetParams) (fee : Int) (token : Address) :
    (s.creditedFor b fee).getRevenue token = s.getRevenue token := by
  unfold FeeStore.creditedFor
  split
  · split <;> rfl
  · rfl

@[simp] theorem FeeStore.total_creditedFor (s : FeeStore) (b : BetParams) (fee : Int) :
    (s.creditedFor b fee).totalFeesCollected = s.totalFeesCollected := by
  unfold FeeStore.creditedFor
  split
  · split <;> rfl
  · rfl

theorem FeeStore.getReferrerBalance_creditedFor (s : FeeStore) (b : BetParams) (fee : Int) (r t : Address) :
    (s.creditedFor b fee).getReferrerBalance r t
      = s.getReferrerBalance r t + if b.referrer = some r ∧ b.tokenAddress = t then rewardFor fee else 0 := by
  unfold FeeStore.creditedFor
  cases hr : b.referrer with
  | none => rw [if_neg (fun h => nomatch h.1), add_zero]
  | some r' =>
      by_cases hpos : 0 < fee
      · show FeeStore.getReferrerBalance (if 0 < fee then _ else _) r t = _
        rw [if_pos hpos]
        show ((s.referrerBalance.insert (r', b.tokenAddress) _).lookup (r, t)).getD 0 = _
        rw [Store.lookup_insert_eq]
        by_cases hkey : (r, t) = (r', b.tokenAddress)
        · obtain ⟨rfl, rfl⟩ := Prod.mk.inj hkey
          rw [if_pos rfl, if_pos ⟨rfl, rfl⟩]
          rfl
        · rw [if_neg hkey, if_neg, add_zero]
          · rfl
          · rintro ⟨hr', ht⟩
            exact hkey (by rw [Option.some.inj hr', ht])
      · -- nothing is charged, and nothing credited
        show FeeStore.getReferrerBalance (if 0 < fee then _ else _) r t = _
        rw [if_neg hpos, rewardFor, if_neg hpos, ite_self, add_zero]

end Bets

/-! ## §3. The flows of a step. -/

/-- The fee a step charged on a bet in `token`. -/
def chargedIn (X : Externs) (token : Address) (t : Transition World Action) : Int :=
  match t.act with
  | .call _ (.placeBet b) =>
      if callOk X t = true ∧ b.tokenAddress = token then max 0 (feeCharged t.pre b) else 0
  | _ => 0

/-- The fee a step charged, in whatever token. -/
def chargedInAny (X : Externs) (t : Transition World Action) : Int :=
  match t.act with
  | .call _ (.placeBet b) => if callOk X t = true then max 0 (feeCharged t.pre b) else 0
  | _ => 0

/-- The reward a step credited to a referrer. -/
def creditedIn (X : Externs) (r token : Address) (t : Transition World Action) : Int :=
  match t.act with
  | .call _ (.placeBet b) =>
      if callOk X t = true ∧ b.referrer = some r ∧ b.tokenAddress = token then
        rewardFor (feeCharged t.pre b)
      else 0
  | _ => 0

/-- The `token` a list of transfers takes out of the contract. -/
def paidOut (token : Address) (xs : List Transfer) : Int :=
  ((xs.filter fun x => x.token = token ∧ x.payer = currentContractAddress).map (·.amount)).sum

/-- The revenue a step paid out. -/
def withdrawnIn (token : Address) (t : Transition World Action) : Int :=
  match t.act with
  | .call _ (.withdrawProtocolFees _ _) => paidOut token (newTransfers t)
  | _ => 0

/-- The reward a step paid out to a referrer. -/
def claimedIn (r token : Address) (t : Transition World Action) : Int :=
  match t.act with
  | .call _ (.claimReferralRewards _ _) => paidOut token ((newTransfers t).filter fun x => x.payee = r)
  | _ => 0

/-- The flow of a whole history. -/
def sumOver (f : Transition World Action → Int) (history : List (Transition World Action)) : Int :=
  (history.map f).sum

theorem sumOver_concat (f : Transition World Action → Int) (history : List (Transition World Action))
    (t : Transition World Action) : sumOver f (history ++ [t]) = sumOver f history + f t := by
  simp [sumOver]

/-- What is on the books, and what went out, is what came in. -/
structure FeeBooks (X : Externs) (history : List (Transition World Action)) (w : World) : Prop where
  revenue : ∀ token, w.fees.getRevenue token + sumOver (withdrawnIn token) history
    = sumOver (chargedIn X token) history
  total : w.fees.totalFeesCollected.getD 0 = sumOver (chargedInAny X) history
  referrals : ∀ r token, w.fees.getReferrerBalance r token + sumOver (claimedIn r token) history
    = sumOver (creditedIn X r token) history

/-- The entries a step moves and its flows balance. -/
structure FeeStep (X : Externs) (t : Transition World Action) : Prop where
  revenue : ∀ token, t.post.fees.getRevenue token + withdrawnIn token t
    = t.pre.fees.getRevenue token + chargedIn X token t
  total : t.post.fees.totalFeesCollected.getD 0 = t.pre.fees.totalFeesCollected.getD 0 + chargedInAny X t
  referrals : ∀ r token, t.post.fees.getReferrerBalance r token + claimedIn r token t
    = t.pre.fees.getReferrerBalance r token + creditedIn X r token t

theorem FeeBooks.concat {history : List (Transition World Action)} {t : Transition World Action}
    (h : FeeBooks X history t.pre) (ht : FeeStep X t) : FeeBooks X (history ++ [t]) t.post := by
  refine ⟨fun token => ?_, ?_, fun r token => ?_⟩
  · have hbooks := h.revenue token
    have hstep := ht.revenue token
    rw [sumOver_concat, sumOver_concat]
    omega
  · have hbooks := h.total
    have hstep := ht.total
    rw [sumOver_concat]
    omega
  · have hbooks := h.referrals r token
    have hstep := ht.referrals r token
    rw [sumOver_concat, sumOver_concat]
    omega

/-! ## §4. Every step balances. -/

/-- The three entries are as they were. -/
structure SameBooks (s s' : FeeStore) : Prop where
  revenue : s'.feeRevenue = s.feeRevenue
  total : s'.totalFeesCollected = s.totalFeesCollected
  referrals : s'.referrerBalance = s.referrerBalance

theorem SameBooks.of_eq {s s' : FeeStore} (h : s' = s) : SameBooks s s' := by
  rw [h]
  exact ⟨rfl, rfl, rfl⟩

/-- A step without flows that leaves the entries balances. -/
theorem FeeStep.of_same {t : Transition World Action} (hcharged : ∀ token, chargedIn X token t = 0)
    (hany : chargedInAny X t = 0) (hcredited : ∀ r token, creditedIn X r token t = 0)
    (hwithdrawn : ∀ token, withdrawnIn token t = 0) (hclaimed : ∀ r token, claimedIn r token t = 0)
    (h : SameBooks t.pre.fees t.post.fees) : FeeStep X t := by
  refine ⟨fun token => ?_, ?_, fun r token => ?_⟩
  · unfold FeeStore.getRevenue
    rw [hcharged token, hwithdrawn token, h.revenue]
  · rw [hany, h.total, add_zero]
  · unfold FeeStore.getReferrerBalance
    rw [hcredited r token, hclaimed r token, h.referrals]

section Steps

variable {env : Env} {w w' : World} {c : Call}

/-- A call that neither bets nor pays fees out has no flows. -/
theorem FeeStep.of_kind (hbet : ∀ b, c.kind ≠ .bets b) (hpay : c.kind ≠ .paysFees)
    (h : SameBooks w.fees w'.fees) : FeeStep X ⟨w, .call env c, w'⟩ := by
  refine .of_same ?_ ?_ ?_ ?_ ?_ h <;>
    cases c <;> first | exact absurd rfl (hbet _) | exact absurd rfl hpay | intros; rfl

theorem AdminStep.kind {a : AdminStore} (h : AdminStep env w c a) : c.kind = .appoints := by
  cases h <;> rfl

theorem GovernanceStep.kind {g : GovernanceStore} (h : GovernanceStep env w c g) : c.kind = .governs := by
  cases h <;> rfl

theorem FeeStep.of_creation {p : MarketParams} (hc : c.kind = .creates p) (h : SameBooks w.fees w'.fees) :
    FeeStep X ⟨w, .call env c, w'⟩ := by
  refine .of_kind ?_ ?_ h <;> rw [hc] <;> simp

theorem paidOut_single (token token' payee : Address) (amount : Int) :
    paidOut token [⟨token', currentContractAddress, payee, amount⟩] = if token' = token then amount else 0 := by
  unfold paidOut
  by_cases h : token' = token <;> simp [h]

/-- A successful bet books its fee and its referral. -/
theorem feeStep_of_bet {b : BetParams} (hok : callOk X ⟨w, .call env (.placeBet b), w'⟩ = true)
    (hfees : w'.fees = (w.fees.collected b.tokenAddress (feeCharged w b)).creditedFor b (feeCharged w b)) :
    FeeStep X ⟨w, .call env (.placeBet b), w'⟩ := by
  refine ⟨fun token => ?_, ?_, fun r token => ?_⟩
  · show w'.fees.getRevenue token + 0
      = _ + if callOk X _ = true ∧ b.tokenAddress = token then max 0 (feeCharged w b) else 0
    rw [hfees, FeeStore.getRevenue_creditedFor, FeeStore.getRevenue_collected, add_zero]
    simp only [hok, true_and]
  · show w'.fees.totalFeesCollected.getD 0 = _ + if callOk X _ = true then max 0 (feeCharged w b) else 0
    rw [hfees, FeeStore.total_creditedFor, FeeStore.total_collected, if_pos hok]
  · show w'.fees.getReferrerBalance r token + 0
      = _ + if callOk X _ = true ∧ b.referrer = some r ∧ b.tokenAddress = token then rewardFor (feeCharged w b)
        else 0
    rw [hfees, FeeStore.getReferrerBalance_creditedFor, FeeStore.getReferrerBalance_collected, add_zero]
    simp only [hok, true_and]

/-- A withdrawal moves a token's revenue off the books. -/
theorem feeStep_of_withdrawal {token recipient : Address} {evs : List Event} :
    FeeStep X ⟨w, .call env (.withdrawProtocolFees token recipient),
      { w.pay ⟨token, currentContractAddress, recipient, w.fees.getRevenue token⟩ with
        fees.feeRevenue := w.fees.feeRevenue.insert token 0
        events := evs }⟩ := by
  refine ⟨fun token' => ?_, (add_zero _).symm, fun r token' => rfl⟩
  show ((w.fees.feeRevenue.insert token 0).lookup token').getD 0
    + paidOut token' (List.drop w.transfers.length (w.transfers ++ [_])) = w.fees.getRevenue token' + 0
  rw [List.drop_left, paidOut_single, Store.lookup_insert_eq]
  by_cases ht : token' = token
  · subst ht
    rw [if_pos rfl, if_pos rfl]
    simp
  · rw [if_neg ht, if_neg (fun h => ht h.symm)]
    rfl

/-- A claim moves a referrer's balance off the books. -/
theorem feeStep_of_claim {referrer token : Address} {evs : List Event} :
    FeeStep X ⟨w, .call env (.claimReferralRewards referrer token),
      { w.pay ⟨token, currentContractAddress, referrer, w.fees.getReferrerBalance referrer token⟩ with
        fees.referrerBalance := w.fees.referrerBalance.insert (referrer, token) 0
        events := evs }⟩ := by
  refine ⟨fun token' => rfl, (add_zero _).symm, fun r token' => ?_⟩
  show ((w.fees.referrerBalance.insert (referrer, token) 0).lookup (r, token')).getD 0
    + paidOut token' ((List.drop w.transfers.length (w.transfers ++ [_])).filter fun x => x.payee = r)
    = w.fees.getReferrerBalance r token' + 0
  rw [List.drop_left, Store.lookup_insert_eq]
  by_cases hr : referrer = r
  · subst hr
    have hfilter : ([⟨token, currentContractAddress, referrer, w.fees.getReferrerBalance referrer token⟩] :
        List Transfer).filter (fun x => x.payee = referrer)
        = [⟨token, currentContractAddress, referrer, w.fees.getReferrerBalance referrer token⟩] := by simp
    rw [hfilter, paidOut_single]
    by_cases ht : token' = token
    · subst ht
      rw [if_pos rfl, if_pos rfl]
      simp
    · rw [if_neg (fun h => ht (Prod.mk.inj h).2), if_neg (fun h => ht h.symm)]
      rfl
  · -- somebody else's claim
    have hfilter : ([⟨token, currentContractAddress, referrer, w.fees.getReferrerBalance referrer token⟩] :
        List Transfer).filter (fun x => x.payee = r) = [] := by simp [hr]
    rw [hfilter, if_neg (fun h => hr (Prod.mk.inj h).1.symm)]
    rfl

/-- **The flows of every successful call balance.** -/
theorem Succeeds.feeStep (h : Succeeds X env c w w') : FeeStep X ⟨w, .call env c, w'⟩ := by
  cases h.outcome with
  | initialized => exact .of_kind (fun _ h => nomatch h) (fun h => nomatch h) ⟨rfl, rfl, rfl⟩
  | appointed _ a ha =>
      refine .of_kind ?_ ?_ ⟨rfl, rfl, rfl⟩ <;> rw [ha.kind] <;> simp
  | created _ p dw id _ hc effect =>
      refine .of_creation hc (.of_eq ?_)
      obtain ⟨_, _, _, hw⟩ := effect.frame
      rw [hw]
  | bet b m fee _ effect =>
      obtain ⟨r, hr⟩ := id h
      exact feeStep_of_bet (callOk_of_succeeds h) (placeBet_fees (done_eq_ok.mp hr).1)
  | voted voter id outcome weight v u _ m govToken vote pass effect =>
      refine .of_kind (fun _ h => nomatch h) (fun h => nomatch h) (.of_eq ?_)
      obtain ⟨br, evs, rfl⟩ := pass.frame
      obtain ⟨_, _, _, _, rfl⟩ := effect.frame
      rfl
  | disputed disciplinarian id evs v _ pass moves =>
      refine .of_kind (fun _ h => nomatch h) (fun h => nomatch h) (.of_eq ?_)
      obtain ⟨br, evs', rfl⟩ := pass.frame
      obtain ⟨m, m', _, _, _, rfl⟩ := moves
      rfl
  | moved _ id f evs _ hc moves =>
      obtain ⟨m, m', _, _, _, rfl⟩ := moves
      refine .of_kind ?_ ?_ ⟨rfl, rfl, rfl⟩ <;> rw [hc] <;> simp
  | feesWithdrawn token recipient funded => exact feeStep_of_withdrawal
  | rewardsClaimed referrer token funded => exact feeStep_of_claim
  | governed _ g hg =>
      refine .of_kind ?_ ?_ ⟨rfl, rfl, rfl⟩ <;> rw [hg.kind] <;> simp
  | _ => exact .of_kind (fun _ h => nomatch h) (fun h => nomatch h) ⟨rfl, rfl, rfl⟩

/-- A failed call moves nothing, whatever it was to do. -/
theorem feeStep_of_not_callOk (h : ¬callOk X ⟨w, .call env c, w⟩ = true) : FeeStep X ⟨w, .call env c, w⟩ := by
  have hnone : newTransfers ⟨w, Action.call env c, w⟩ = [] := newTransfers_of_append (List.append_nil _).symm
  refine .of_same ?_ ?_ ?_ ?_ ?_ ⟨rfl, rfl, rfl⟩
  · intro token
    cases c with
    | placeBet b => exact if_neg fun h' => h h'.1
    | _ => rfl
  · cases c with
    | placeBet b => exact if_neg h
    | _ => rfl
  · intro r token
    cases c with
    | placeBet b => exact if_neg fun h' => h h'.1
    | _ => rfl
  · intro token
    cases c with
    | withdrawProtocolFees =>
        show paidOut token (newTransfers _) = 0
        rw [hnone]
        rfl
    | _ => rfl
  · intro r token
    cases c with
    | claimReferralRewards =>
        show paidOut token ((newTransfers _).filter _) = 0
        rw [hnone]
        rfl
    | _ => rfl

theorem step_feeStep (X : Externs) (w : World) (a : Action) : FeeStep X ⟨w, a, step X w a⟩ := by
  cases a with
  | call env c =>
      by_cases hok : callOk X ⟨w, .call env c, step X w (.call env c)⟩ = true
      · exact (callOk_iff.mp hok).feeStep
      · rw [step_of_not_callOk hok]
        exact feeStep_of_not_callOk hok
  | advance seconds ledgers => exact .of_same (fun _ => rfl) rfl (fun _ _ => rfl) (fun _ => rfl) (fun _ _ => rfl) ⟨rfl, rfl, rfl⟩
  | external balances => exact .of_same (fun _ => rfl) rfl (fun _ _ => rfl) (fun _ => rfl) (fun _ _ => rfl) ⟨rfl, rfl, rfl⟩

end Steps

/-- **The fee books balance in every run.**  The revenue on record and the revenue
withdrawn make up the fees charged, token by token; the overall counter is the
sum of all fees ever charged; a referrer's balance and its claims make up what
its bets' fees have credited it. -/
theorem fee_books_balance (X : Externs) (b : Address → Address → Nat) (t s : Nat) (as : List Action) :
    FeeBooks X (trace (step X) (genesis b t s) as) (run (step X) (genesis b t s) as) := by
  refine history_invariant (step X) (FeeBooks X) (fun _ => True) ⟨fun _ => rfl, rfl, fun _ _ => rfl⟩ ?_ as
    (fun _ _ => trivial)
  intro bs a hI _
  exact hI.concat (step_feeStep X _ a)

/-- Account 3 bets 1000 in token 10 at a fee of 1%, with account 4 as referrer:
10 are booked, and 1 is owed to account 4. -/
example :
    let w := sampleRun [.call (signedBy [⟨1⟩]) (.initializeContract ⟨1⟩ 100),
      .call (signedBy [⟨2⟩]) (.createMarket (sampleMarket ⟨2⟩ ⟨10⟩)),
      .call (signedBy [⟨3⟩]) (.placeBet { sampleBet ⟨3⟩ ⟨10⟩ 1 0 1000 with referrer := some ⟨4⟩ })]
    w.fees.getRevenue ⟨10⟩ = 10 ∧ w.fees.getReferrerBalance ⟨4⟩ ⟨10⟩ = 1 := by decide

end PredictIQ.Contract
