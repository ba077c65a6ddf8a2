/-
  PredictIQ.Safety.TokenFlows: whose tokens move, and why?

  Every transfer a successful call makes is covered, and is one of seven: a
  stake, a creation fee, a deposit, a vote's lock, a deposit returned, revenue
  withdrawn, a reward claimed.  The first four are signed by the payer.  The
  balances are a ledger of these transfers and of what holders do outside the
  contract, so an account that signs no call loses nothing to any run.
-/
import PredictIQ.Contract.Lifecycle
import PredictIQ.Foundation.Ledger

namespace PredictIQ.Contract

open Foundation Tx

variable {X : Externs}

/-! ## §1. Transfers as movements. -/

def Transfer.movement (x : Transfer) : Movement Address Address :=
  ⟨x.token, x.payer, x.payee, x.amount.toNat⟩

/-- The movements of a log. -/
def movements (xs : List Transfer) : List (Movement Address Address) := xs.map Transfer.movement

theorem Transferable.covered {env : Env} {w : World} {x : Transfer} (h : Transferable env w x) :
    x.movement.Covered w.balances := by
  obtain ⟨_, hle, _⟩ := h
  show x.amount.toNat ≤ w.balances x.token x.payer
  omega

/-! ## §2. Why a call moves tokens. -/

/-- Who may withdraw the revenue: the fee admin, or the admin while there is none. -/
def ByFeeAdmin (env : Env) (w : World) : Prop :=
  match w.fees.feeAdmin with
  | some feeAdmin => env.authorized feeAdmin = true
  | none => ByAdmin env w

/-- The transfers a call may make, each with the signature behind it. -/
inductive Paid (env : Env) (w : World) : Call → Transfer → Prop
  | stake (b : BetParams) (signed : env.authorized b.bettor = true) (pos : 0 < b.amount) :
      Paid env w (.placeBet b) b.payment
  | creationFee (c : Call) (p : MarketParams) (hc : c.kind = .creates p)
      (signed : env.authorized p.creator = true) (pos : 0 < w.marketConfig.getCreationFee) :
      Paid env w c
        ⟨p.nativeToken, p.creator, w.marketConfig.getProtocolTreasury, w.marketConfig.getCreationFee⟩
  | deposit (c : Call) (p : MarketParams) (hc : c.kind = .creates p)
      (signed : env.authorized p.creator = true) (pos : 0 < depositFor w p.creator) :
      Paid env w c ⟨p.nativeToken, p.creator, currentContractAddress, depositFor w p.creator⟩
  | lock (voter : Address) (id outcome : Nat) (weight : Int) (token : Address)
      (signed : env.authorized voter = true) (named : w.admin.governanceToken = some token) :
      Paid env w (.castVote voter id outcome weight) ⟨token, voter, currentContractAddress, weight⟩
  | refund (id : Nat) (token : Address) (m : Market) (lookup : w.markets.market.lookup id = some m)
      (signed : env.authorized m.creator = true) (resolved : m.status = .resolved)
      (pos : 0 < m.creationDeposit) :
      Paid env w (.releaseCreationDeposit id token)
        ⟨token, currentContractAddress, m.creator, m.creationDeposit⟩
  | revenue (token recipient : Address) (signed : ByFeeAdmin env w) :
      Paid env w (.withdrawProtocolFees token recipient)
        ⟨token, currentContractAddress, recipient, w.fees.getRevenue token⟩
  | reward (referrer token : Address) (signed : env.authorized referrer = true) :
      Paid env w (.claimReferralRewards referrer token)
        ⟨token, currentContractAddress, referrer, w.fees.getReferrerBalance referrer token⟩

/-- Who pays signed the call, unless it is the contract. -/
theorem Paid.signed {env : Env} {w : World} {c : Call} {x : Transfer} (h : Paid env w c x) :
    x.payer = currentContractAddress ∨ env.authorized x.payer = true := by
  cases h with
  | stake b signed => exact .inr signed
  | creationFee _ p hc signed => exact .inr signed
  | deposit _ p hc signed => exact .inr signed
  | lock voter id outcome weight token signed => exact .inr signed
  | refund => exact .inl rfl
  | revenue => exact .inl rfl
  | reward => exact .inl rfl

/-- A call made the transfers `xs`, each covered in its turn, and nothing else
moved the balances. -/
structure Moves (env : Env) (w : World) (c : Call) (xs : List Transfer) (w' : World) : Prop where
  log : w'.transfers = w.transfers ++ xs
  balances : w'.balances = Holdings.postAll w.balances (movements xs)
  covered : AllCovered w.balances (movements xs)
  paid : ∀ x ∈ xs, Paid env w c x

section Calls

variable {env : Env} {w w' : World} {c : Call} {u : Unit}

theorem Moves.none (htransfers : w'.transfers = w.transfers) (hbalances : w'.balances = w.balances) :
    Moves env w c [] w' :=
  ⟨by rw [htransfers, List.append_nil], hbalances, trivial, fun _ hx => absurd hx List.not_mem_nil⟩

theorem Moves.one {x : Transfer} (hx : Transferable env w x) (hpaid : Paid env w c x)
    (htransfers : w'.transfers = (w.pay x).transfers) (hbalances : w'.balances = (w.pay x).balances) :
    Moves env w c [x] w' := by
  refine ⟨htransfers, hbalances, ⟨hx.covered, trivial⟩, ?_⟩
  intro y hy
  obtain rfl := List.mem_singleton.mp hy
  exact hpaid

/-- Two parts of one call, one after the other. -/
theorem Moves.trans {v : World} {xs ys : List Transfer} (h : Moves env w c xs v)
    (hlog : w'.transfers = v.transfers ++ ys) (hbalances : w'.balances = Holdings.postAll v.balances (movements ys))
    (hcovered : AllCovered v.balances (movements ys)) (hpaid : ∀ x ∈ ys, Paid env w c x) :
    Moves env w c (xs ++ ys) w' := by
  have hmap : movements (xs ++ ys) = movements xs ++ movements ys := List.map_append
  refine ⟨?_, ?_, ?_, ?_⟩
  · rw [hlog, h.log, List.append_assoc]
  · rw [hmap, postAll_append, ← h.balances, hbalances]
  · rw [hmap, allCovered_append, ← h.balances]
    exact ⟨h.covered, hcovered⟩
  · intro x hx
    rcases List.mem_append.mp hx with hx | hx
    · exact h.paid x hx
    · exact hpaid x hx

/-! ## §3. The calls that move tokens. -/

theorem Succeeds.withdrawal_signed {token recipient : Address}
    (h : Succeeds X env (.withdrawProtocolFees token recipient) w w') : ByFeeAdmin env w := by
  obtain ⟨r, hr⟩ := h
  obtain ⟨amount, hr, _⟩ := returning_eq_ok.mp hr
  obtain ⟨_, v, hauth, _⟩ := bind_eq_ok.mp hr
  exact (requireFeeWithdrawAuth_ok hauth).1

theorem Succeeds.claim_signed {referrer token : Address}
    (h : Succeeds X env (.claimReferralRewards referrer token) w w') : env.authorized referrer = true := by
  obtain ⟨r, hr⟩ := h
  obtain ⟨amount, hr, _⟩ := returning_eq_ok.mp hr
  obtain ⟨_, v, hauth, _⟩ := bind_eq_ok.mp hr
  exact (requireAuth_ok.mp hauth).1

/-- The creation fee is the configured one. -/
theorem checkCreator_fee {p : MarketParams} {required : Bool} {deposit fee : Int}
    (h : checkCreator p env w = (.ok (required, deposit, fee), w')) :
    fee = w.marketConfig.getCreationFee := by
  simp only [checkCreator, bind_eq_ok, reads_eq_ok, failIf_ok, tokenBalance_ok, orTrap_ok,
    pure_eq_ok, Prod.mk.injEq, and_assoc, exists_and_left, exists_eq_left', exists_const] at h
  obtain ⟨_, _, _, _, _, _, hfee, _⟩ := h
  exact hfee.symm

theorem chargeCreationFee_moves {p : MarketParams} {fee : Int} (hc : c.kind = .creates p)
    (signed : env.authorized p.creator = true) (hfee : fee = w.marketConfig.getCreationFee)
    (h : chargeCreationFee p.creator p.nativeToken fee env w = (.ok u, w')) :
    ∃ xs, Moves env w c xs w' := by
  subst hfee
  rcases whenever_eq_ok.mp h with ⟨hpos, h⟩ | ⟨_, rfl⟩
  · simp only [bind_eq_ok, reads_eq_ok, tokenTransfer_ok, publish_ok, and_assoc, exists_and_left,
      exists_eq_left', exists_eq_left, exists_const] at h
    obtain ⟨hx, rfl⟩ := h
    exact ⟨_, .one hx (.creationFee c p hc signed hpos) rfl rfl⟩
  · exact ⟨[], .none rfl rfl⟩

/-- What creating a market moves: the fee to the treasury, the deposit to the contract. -/
theorem createMarketWithDisputeWindow_moves {p : MarketParams} {dw : Option Nat} {id : Nat}
    (hc : c.kind = .creates p) (h : createMarketWithDisputeWindow p dw env w = (.ok id, w')) :
    ∃ xs, Moves env w c xs w' := by
  simp only [createMarketWithDisputeWindow, bind_eq_ok, requireAuth_ok,
    requireNotPausedForHighRisk_ok, and_assoc, exists_and_left, exists_eq_left', exists_const] at h
  obtain ⟨hauth, _, _, v, hcheck, ⟨required, dep, fee⟩, v', hcreator, _, w₁, hcharge, _, w₂, hlock,
    hstore⟩ := h
  obtain ⟨_, _, _, _, rfl⟩ := checkNewMarket_ok hcheck
  have hfee := checkCreator_fee hcreator
  obtain ⟨hdep, rfl⟩ := checkCreator_ok hcreator
  obtain ⟨xs, hxs⟩ := chargeCreationFee_moves hc hauth hfee hcharge
  obtain ⟨_, _, hw'⟩ := storeMarket_ok hstore
  -- storing the record moves nothing
  have htransfers : w'.transfers = w₂.transfers := by rw [hw']
  have hbalances : w'.balances = w₂.balances := by rw [hw']
  rcases whenever_eq_ok.mp hlock with ⟨⟨hreq, hpos⟩, hlock⟩ | ⟨_, rfl⟩
  · obtain ⟨hx, rfl⟩ := tokenTransfer_ok.mp hlock
    rw [if_pos hreq] at hdep
    subst hdep
    refine ⟨xs ++ [_], hxs.trans htransfers hbalances ⟨hx.covered, trivial⟩ ?_⟩
    intro x hx
    obtain rfl := List.mem_singleton.mp hx
    exact .deposit c p hc hauth hpos
  · refine ⟨xs ++ [], hxs.trans ?_ hbalances trivial fun x hx => absurd hx List.not_mem_nil⟩
    rw [htransfers, List.append_nil]

theorem creates_cases {p : MarketParams} (hc : c.kind = .creates p) :
    c = .createMarket p ∨ ∃ dw, c = .createMarketWithDisputeWindow p dw := by
  cases c <;> simp only [Call.kind, CallKind.creates.injEq, reduceCtorEq] at hc
  · exact .inl (by rw [hc])
  · exact .inr ⟨_, by rw [hc]⟩

theorem Succeeds.creation_moves {p : MarketParams} (hc : c.kind = .creates p) (h : Succeeds X env c w w') :
    ∃ xs, Moves env w c xs w' := by
  obtain ⟨r, hr⟩ := h
  rcases creates_cases hc with rfl | ⟨dw, rfl⟩
  · obtain ⟨id, hr, _⟩ := returning_eq_ok.mp hr
    exact createMarketWithDisputeWindow_moves hc hr
  · obtain ⟨id, hr, _⟩ := returning_eq_ok.mp hr
    exact createMarketWithDisputeWindow_moves hc hr

/-- A vote moves the tokens it locks, if it locks any. -/
theorem CastVoteEffect.moves {voter govToken : Address} {id outcome : Nat} {weight : Int} {m : Market}
    {v u : World} {vote : Vote} (w : World) (hbalances : v.balances = w.balances)
    (htransfers : v.transfers = w.transfers) (hadmin : v.admin = w.admin)
    (h : CastVoteEffect env v voter id outcome weight m govToken u vote w') :
    ∃ xs, Moves env w (.castVote voter id outcome weight) xs w' := by
  obtain ⟨ledger, actual, _, hweighed, _⟩ := h.weighed
  have hpost := h.post
  have htoken : w.admin.governanceToken = some govToken := by
    rw [← hadmin]
    exact h.token
  cases hweighed with
  | snapshot => exact ⟨[], .none (by rw [hpost]; exact htransfers) (by rw [hpost]; exact hbalances)⟩
  | locked _ _ funded =>
      have hx : Transferable env w ⟨govToken, voter, currentContractAddress, weight⟩ := by
        obtain ⟨hnonneg, hle, hrefuses⟩ := funded
        refine ⟨hnonneg, ?_, hrefuses⟩
        rw [← hbalances]
        exact hle
      refine ⟨_, .one hx (.lock voter id outcome weight govToken h.auth htoken) ?_ ?_⟩
      · rw [hpost]
        show v.transfers ++ _ = _
        rw [htransfers]
        rfl
      · rw [hpost]
        show moveBalance v.balances _ = _
        rw [hbalances]
        rfl

/-- **Every transfer of a successful call is one of the seven.** -/
theorem Succeeds.moves (h : Succeeds X env c w w') : ∃ xs, Moves env w c xs w' := by
  cases h.outcome with
  | created _ p dw id _ hc => exact h.creation_moves hc
  | bet b m fee _ effect =>
      obtain ⟨_, hw⟩ := effect.frame
      exact ⟨_, .one effect.transferable (.stake b effect.auth effect.amount_pos) (by rw [hw]) (by rw [hw])⟩
  | voted voter id outcome weight v u _ m govToken vote pass effect =>
      -- the breaker may have half-opened on the way, which moves no tokens
      obtain ⟨br, evs, rfl⟩ := pass.frame
      refine CastVoteEffect.moves w ?_ ?_ ?_ effect <;> rfl
  | disputed disciplinarian id evs v _ pass moves =>
      obtain ⟨br, evs', rfl⟩ := pass.frame
      obtain ⟨m, m', _, _, _, rfl⟩ := moves
      exact ⟨[], .none rfl rfl⟩
  | moved _ id f evs _ hc moves =>
      obtain ⟨m, m', _, _, _, rfl⟩ := moves
      exact ⟨[], .none rfl rfl⟩
  | released id token m lookup auth resolved deposit funded =>
      exact ⟨_, .one funded (.refund id token m lookup auth resolved deposit) rfl rfl⟩
  | feesWithdrawn token recipient funded =>
      exact ⟨_, .one funded (.revenue token recipient h.withdrawal_signed) rfl rfl⟩
  | rewardsClaimed referrer token funded =>
      exact ⟨_, .one funded (.reward referrer token h.claim_signed) rfl rfl⟩
  | _ => exact ⟨[], .none rfl rfl⟩

/-- A call that fails moves nothing. -/
theorem step_call_moves (X : Externs) (env : Env) (c : Call) (w : World) :
    ∃ xs, Moves env w c xs (step X w (.call env c)) := by
  rcases step_call_cases X env c w with h | h
  · rw [h]
    exact ⟨[], .none rfl rfl⟩
  · exact h.moves

end Calls

/-! ## §4. Runs. -/

/-- What a holder did with a token outside the contract. -/
def outsideChange (token holder : Address) (t : Transition World Action) : Int :=
  match t.act with
  | .external _ => (t.post.balances token holder : Int) - t.pre.balances token holder
  | _ => 0

def outsideChanges (token holder : Address) (history : List (Transition World Action)) : Int :=
  (history.map (outsideChange token holder)).sum

theorem outsideChanges_concat (token holder : Address) (history : List (Transition World Action))
    (t : Transition World Action) :
    outsideChanges token holder (history ++ [t])
      = outsideChanges token holder history + outsideChange token holder t := by
  simp [outsideChanges]

theorem newTransfers_of_append {t : Transition World Action} {xs : List Transfer}
    (h : t.post.transfers = t.pre.transfers ++ xs) : newTransfers t = xs := by
  unfold newTransfers
  rw [h, List.drop_left]

/-- What one step does to the log and to what a holder has. -/
theorem step_account (X : Externs) (w : World) (a : Action) (token holder : Address) :
    (step X w a).transfers = w.transfers ++ newTransfers ⟨w, a, step X w a⟩
      ∧ ((step X w a).balances token holder : Int)
        = w.balances token holder + outsideChange token holder ⟨w, a, step X w a⟩
          + netOf (movements (newTransfers ⟨w, a, step X w a⟩)) token holder := by
  cases a with
  | call env c =>
      obtain ⟨xs, hxs⟩ := step_call_moves X env c w
      have hof : newTransfers ⟨w, .call env c, step X w (.call env c)⟩ = xs := newTransfers_of_append hxs.log
      have hout : outsideChange token holder ⟨w, .call env c, step X w (.call env c)⟩ = 0 := rfl
      rw [hof, hout, add_zero, hxs.balances]
      exact ⟨hxs.log, postAll_eq hxs.covered token holder⟩
  | advance seconds ledgers =>
      have hof : newTransfers ⟨w, .advance seconds ledgers, step X w (.advance seconds ledgers)⟩ = [] :=
        newTransfers_of_append (List.append_nil _).symm
      rw [hof]
      exact ⟨(List.append_nil _).symm, by simp [step, outsideChange, movements]⟩
  | external balances =>
      have hof : newTransfers ⟨w, .external balances, step X w (.external balances)⟩ = [] :=
        newTransfers_of_append (List.append_nil _).symm
      rw [hof]
      exact ⟨(List.append_nil _).symm, by simp [step, outsideChange, movements]⟩

/-- What a holder has now is what it had, what it moved itself, and the net of the log. -/
def Accounted (b : Address → Address → Nat) (token holder : Address)
    (history : List (Transition World Action)) (w : World) : Prop :=
  (w.balances token holder : Int)
    = b token holder + outsideChanges token holder history + netOf (movements w.transfers) token holder

theorem accounted (X : Externs) (b : Address → Address → Nat) (t s : Nat) (as : List Action)
    (token holder : Address) :
    Accounted b token holder (trace (step X) (genesis b t s) as) (run (step X) (genesis b t s) as) := by
  refine history_invariant (step X) (Accounted b token holder) (fun _ => True) ?_ ?_ as (fun _ _ => trivial)
  · show (b token holder : Int) = b token holder + 0 + netOf [] token holder
    rw [netOf_nil, add_zero, add_zero]
  · intro bs a hI _
    obtain ⟨hlog, hbal⟩ := step_account X (run (step X) (genesis b t s) bs) a token holder
    have hmap : movements (step X (run (step X) (genesis b t s) bs) a).transfers
        = movements (run (step X) (genesis b t s) bs).transfers
          ++ movements (newTransfers ⟨run (step X) (genesis b t s) bs, a,
            step X (run (step X) (genesis b t s) bs) a⟩) := by
      rw [hlog]
      exact List.map_append
    unfold Accounted at hI ⊢
    rw [outsideChanges_concat, hmap, netOf_append]
    omega

/-- A step's transfers out of an account that did not sign are the contract's. -/
theorem payer_of_newTransfers {w : World} {a : Action} {x : Transfer}
    (hx : x ∈ newTransfers ⟨w, a, step X w a⟩) :
    ∃ env c, a = .call env c ∧ Paid env w c x := by
  cases a with
  | call env c =>
      obtain ⟨xs, hxs⟩ := step_call_moves X env c w
      rw [newTransfers_of_append hxs.log] at hx
      exact ⟨env, c, rfl, hxs.paid x hx⟩
  | advance seconds ledgers =>
      have hof : newTransfers ⟨w, .advance seconds ledgers, step X w (.advance seconds ledgers)⟩ = [] :=
        newTransfers_of_append (List.append_nil _).symm
      rw [hof] at hx
      cases hx
  | external balances =>
      have hof : newTransfers ⟨w, .external balances, step X w (.external balances)⟩ = [] :=
        newTransfers_of_append (List.append_nil _).symm
      rw [hof] at hx
      cases hx

/-- **Every transfer has its reason and its signature.**  Whatever a run does, a
step that moves tokens is a call, and what it moves is a stake, a creation fee,
a deposit or a vote's lock signed by the payer; or the contract pays a market's
deposit, a token's whole revenue or a referrer's whole balance, each as the
books stood, to a call signed by the creator, the fee admin or the referrer. -/
theorem transfers_have_reasons (X : Externs) (b : Address → Address → Nat) (t s : Nat) (as : List Action)
    (tr : Transition World Action) (htr : tr ∈ trace (step X) (genesis b t s) as) (x : Transfer)
    (hx : x ∈ newTransfers tr) :
    ∃ env c, tr.act = .call env c ∧ Paid env tr.pre c x
      ∧ (x.payer = currentContractAddress ∨ env.authorized x.payer = true) := by
  obtain ⟨bs, cs, _, _, hpost⟩ := mem_trace (step X) htr
  have hx' : x ∈ newTransfers ⟨tr.pre, tr.act, step X tr.pre tr.act⟩ := by
    rw [← hpost]
    exact hx
  obtain ⟨env, c, hact, hpaid⟩ := payer_of_newTransfers hx'
  exact ⟨env, c, hact, hpaid, hpaid.signed⟩

/-- A call signed by these accounts. -/
def signedBy (signers : List Address) : Env where
  authorized := fun a => a ∈ signers

/-- Account 1 deploys and charges 1%; account 2 opens a market, on which account 3 stakes 1000. -/
def sampleStake : List Action :=
  [.call (signedBy [⟨1⟩]) (.initializeContract ⟨1⟩ 100),
    .call (signedBy [⟨2⟩]) (.createMarket (sampleMarket ⟨2⟩ ⟨10⟩)),
    .call (signedBy [⟨3⟩]) (.placeBet (sampleBet ⟨3⟩ ⟨10⟩ 1 0 1000))]

theorem transfers_have_reasons_stake :
    ∃ env c, Action.call (signedBy [⟨3⟩]) (.placeBet (sampleBet ⟨3⟩ ⟨10⟩ 1 0 1000)) = .call env c
      ∧ Paid env (sampleRun (sampleStake.take 2)) c ⟨⟨10⟩, ⟨3⟩, currentContractAddress, 1000⟩
      ∧ ((⟨3⟩ : Address) = currentContractAddress ∨ env.authorized ⟨3⟩ = true) :=
  transfers_have_reasons sampleExterns sampleBalances 0 0 sampleStake
    ⟨sampleRun (sampleStake.take 2), .call (signedBy [⟨3⟩]) (.placeBet (sampleBet ⟨3⟩ ⟨10⟩ 1 0 1000)),
      sampleRun sampleStake⟩
    (List.mem_cons_of_mem _ (List.mem_cons_of_mem _ List.mem_cons_self)) _
    (List.mem_singleton.mpr rfl)

/-- The log holds the transfers of the steps, and those only. -/
theorem mem_transfers {b : Address → Address → Nat} {t s : Nat} {as : List Action} {x : Transfer}
    (hx : x ∈ (run (step X) (genesis b t s) as).transfers) :
    ∃ tr ∈ trace (step X) (genesis b t s) as, x ∈ newTransfers tr := by
  induction as using List.reverseRecOn with
  | nil => cases hx
  | append_singleton as a ih =>
      rw [run_concat, (step_account X _ a x.token x.payer).1] at hx
      rw [trace_concat]
      rcases List.mem_append.mp hx with hx | hx
      · obtain ⟨tr, htr, hmem⟩ := ih hx
        exact ⟨tr, List.mem_append_left _ htr, hmem⟩
      · exact ⟨_, List.mem_append_right _ List.mem_cons_self, hx⟩

/-- **Who signs nothing loses nothing.**  Through any run, an account other than
the contract that signs none of the calls keeps what it had and what it moved
itself, whatever everybody else does. -/
theorem unsigned_holder_keeps (X : Externs) (b : Address → Address → Nat) (t s : Nat) (as : List Action)
    (token holder : Address) (hother : holder ≠ currentContractAddress)
    (hunsigned : ∀ env c, Action.call env c ∈ as → env.authorized holder = false) :
    (b token holder : Int) + outsideChanges token holder (trace (step X) (genesis b t s) as)
      ≤ (run (step X) (genesis b t s) as).balances token holder := by
  rw [accounted X b t s as token holder]
  have hnet : 0 ≤ netOf (movements (run (step X) (genesis b t s) as).transfers) token holder := by
    refine netOf_nonneg ?_
    intro y hy _ hpayer
    obtain ⟨x, hx, rfl⟩ := List.mem_map.mp hy
    have hpayer : x.payer = holder := hpayer
    -- the transfer was made by a call, and its payer signed that call
    obtain ⟨tr, htr, hmem⟩ := mem_transfers hx
    obtain ⟨bs, cs, has, _, hpost⟩ := mem_trace (step X) htr
    have htr' : x ∈ newTransfers ⟨tr.pre, tr.act, step X tr.pre tr.act⟩ := by
      rw [← hpost]
      exact hmem
    obtain ⟨env, c, hact, hpaid⟩ := payer_of_newTransfers htr'
    have hcall : Action.call env c ∈ as := by
      rw [has, ← hact]
      exact List.mem_append_right _ List.mem_cons_self
    rcases hpaid.signed with hcontract | hsigned
    · exact hother (hpayer.symm.trans hcontract)
    · rw [hpayer, hunsigned env c hcall] at hsigned
      cases hsigned
  omega

theorem unsigned_holder_keeps_sample :
    (1000000 : Int) + outsideChanges ⟨10⟩ ⟨4⟩ (trace (step sampleExterns) sampleGenesis sampleStake)
      ≤ (sampleRun sampleStake).balances ⟨10⟩ ⟨4⟩ := by
  refine unsigned_holder_keeps sampleExterns sampleBalances 0 0 sampleStake ⟨10⟩ ⟨4⟩ (by decide) ?_
  intro env c hcall
  simp only [sampleStake, List.mem_cons, List.not_mem_nil, or_false] at hcall
  rcases hcall with h | h | h <;> cases h <;> decide

end PredictIQ.Contract
