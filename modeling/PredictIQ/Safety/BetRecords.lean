/-
  PredictIQ.Safety.BetRecords: a bet record is its bettor's bets.

  The record under a market, a bettor and an outcome is there exactly when a
  `place_bet` on them succeeded, and holds what these bets came to: the sum of
  their net amounts and the sum of their fees.  The referrer on record is the
  last one named.  Nothing else writes a record, so a bettor's records are the
  bets it signed, and no others.
-/
import PredictIQ.Contract.Lifecycle

namespace PredictIQ.Contract

open Foundation Tx

variable {X : Externs}

/-! ## §1. The bets of a history. -/

/-- What a bet was: its signer's environment, its parameters, and the fee charged. -/
structure PlacedBet where
  env : Env
  bet : BetParams
  fee : Int

/-- The bet on `key` a step placed, if it placed one. -/
def placedOn (X : Externs) (key : Nat × Address × Nat) (t : Transition World Action) : Option PlacedBet :=
  match t.act with
  | .call env (.placeBet b) => if callOk X t = true ∧ b.key = key then some ⟨env, b, feeCharged t.pre b⟩ else none
  | _ => none

def betsOn (X : Externs) (key : Nat × Address × Nat) (history : List (Transition World Action)) : List PlacedBet :=
  history.filterMap (placedOn X key)

theorem betsOn_concat (key : Nat × Address × Nat) (history : List (Transition World Action))
    (t : Transition World Action) :
    betsOn X key (history ++ [t]) = betsOn X key history ++ (placedOn X key t).toList := by
  unfold betsOn
  rw [List.filterMap_append]
  cases h : placedOn X key t <;> simp [h]

/-- What a list of bets comes to, net of fees. -/
def netTotal (xs : List PlacedBet) : Int := (xs.map fun x => x.bet.amount - x.fee).sum

def feeTotal (xs : List PlacedBet) : Int := (xs.map (·.fee)).sum

/-- The record a list of bets amounts to. -/
def recordOf (key : Nat × Address × Nat) (xs : List PlacedBet) : Option Bet :=
  if xs = [] then none else
    some { marketId := key.1, bettor := key.2.1, outcome := key.2.2, amount := netTotal xs, feePaid := feeTotal xs }

/-- The last referrer a list of bets names. -/
def lastReferrer (xs : List PlacedBet) : Option Address := (xs.filterMap (·.bet.referrer)).getLast?

theorem netTotal_concat (xs : List PlacedBet) (x : PlacedBet) :
    netTotal (xs ++ [x]) = netTotal xs + (x.bet.amount - x.fee) := by
  simp [netTotal]

theorem feeTotal_concat (xs : List PlacedBet) (x : PlacedBet) : feeTotal (xs ++ [x]) = feeTotal xs + x.fee := by
  simp [feeTotal]

theorem lastReferrer_concat (xs : List PlacedBet) (x : PlacedBet) :
    lastReferrer (xs ++ [x]) = x.bet.referrer.orElse fun _ => lastReferrer xs := by
  unfold lastReferrer
  rw [List.filterMap_append]
  cases h : x.bet.referrer with
  | none => simp [h]
  | some r => simp [h]

/-! ## §2. One bet. -/

section Bet

variable {env : Env} {w w' : World} {b : BetParams} {u : Unit}

/-- The referrer named is the one on record. -/
theorem creditReferrer_records {fee : Int} (h : creditReferrer b fee env w = (.ok u, w')) :
    w'.bets.betReferrer = match b.referrer with
      | some r => w.bets.betReferrer.insert b.key r
      | none => w.bets.betReferrer := by
  unfold creditReferrer at h
  cases hr : b.referrer with
  | none =>
      simp only [hr, pure_eq_ok] at h
      rw [← h.2]
  | some r =>
      simp only [hr, bind_eq_ok, update_eq_ok] at h
      obtain ⟨_, v, hrew, rfl⟩ := h
      -- the reward is written to the fee ledger alone
      have hv : v.bets = w.bets := by
        rcases whenever_eq_ok.mp hrew with ⟨hf, hrew⟩ | ⟨_, rfl⟩
        · obtain ⟨reward, _, rfl⟩ := addReferralReward_ok hrew
          rfl
        · rfl
      show v.bets.betReferrer.insert b.key r = _
      rw [hv]

theorem placeBet_records (h : placeBet b env w = (.ok u, w')) :
    w'.bets.betReferrer = match b.referrer with
      | some r => w.bets.betReferrer.insert b.key r
      | none => w.bets.betReferrer := by
  simp only [placeBet, bind_eq_ok, requireAuth_ok, requireNotPausedForHighRisk_ok, failIf_ok,
    loadMarket_ok, checkTokenNotFrozen_ok, safeTransfer_ok, calculateTieredFee_ok, orTrap_ok,
    inI128_eq_some, publish_ok, and_assoc, exists_and_left, exists_eq_left', exists_eq_left,
    exists_const, not_le] at h
  obtain ⟨_, _, _, _, m, hm, _, v₁, hcheck, _, _, fee, _, _, _, _, v₂, hcollect, _,
    v₃, hcredit, _, v₄, href, rfl⟩ := h
  obtain ⟨_, rfl⟩ := checkBet_ok hcheck
  obtain ⟨overall, evs, rfl, _⟩ := collectFee_whenever hcollect
  obtain rfl := creditBet_ok hcredit
  show v₄.bets.betReferrer = _
  rw [creditReferrer_records href]
  rfl

/-- A bet's own entry after it. -/
theorem PlaceBetEffect.lookup_bet {m : Market} {fee : Int} (h : PlaceBetEffect env w b m fee w')
    (key : Nat × Address × Nat) :
    w'.bets.bet.lookup key = if key = b.key then some (b.record w.bets fee) else w.bets.bet.lookup key := by
  rw [h.bet, Store.lookup_insert_eq]

end Bet

/-! ## §3. Records and history. -/

/-- The records of all keys are what the history's bets amount to. -/
structure RecordsKept (X : Externs) (history : List (Transition World Action)) (w : World) : Prop where
  record : ∀ key, w.bets.bet.lookup key = recordOf key (betsOn X key history)
  referrer : ∀ key, w.bets.betReferrer.lookup key = lastReferrer (betsOn X key history)
  placed : ∀ key, ∀ x ∈ betsOn X key history,
    x.bet.key = key ∧ x.env.authorized key.2.1 = true ∧ 0 < x.bet.amount

theorem placedOn_of_idle {w w' : World} {a : Action} (key : Nat × Address × Nat) (h : IdleStep w a w')
    (hok : callOk X ⟨w, a, w'⟩ = false) : placedOn X key ⟨w, a, w'⟩ = none := by
  cases h with
  | failed env c =>
      cases c with
      | placeBet b =>
          refine if_neg ?_
          rintro ⟨hb, _⟩
          rw [hok] at hb
          cases hb
      | _ => rfl
  | _ => rfl

/-- A step that places no bet and leaves the bet store keeps the records. -/
theorem RecordsKept.skip {history : List (Transition World Action)} {w : World} {t : Transition World Action}
    (h : RecordsKept X history w) (hnone : ∀ key, placedOn X key t = none) {w' : World}
    (hbets : w'.bets = w.bets) : RecordsKept X (history ++ [t]) w' := by
  have hsame : ∀ key, betsOn X key (history ++ [t]) = betsOn X key history := by
    intro key
    rw [betsOn_concat, hnone key, Option.toList_none, List.append_nil]
  refine ⟨fun key => ?_, fun key => ?_, fun key => ?_⟩
  · rw [hsame, hbets, h.record]
  · rw [hsame, hbets, h.referrer]
  · rw [hsame]
    exact h.placed key

theorem placedOn_of_bet {env : Env} {w w' : World} {b : BetParams}
    (hok : callOk X ⟨w, .call env (.placeBet b), w'⟩ = true) (key : Nat × Address × Nat) :
    placedOn X key ⟨w, .call env (.placeBet b), w'⟩ = if b.key = key then some ⟨env, b, feeCharged w b⟩ else none := by
  show (if callOk X _ = true ∧ b.key = key then _ else _) = _
  simp only [hok, true_and]

/-- A bet is added to its own record, and to no other. -/
theorem RecordsKept.bet {history : List (Transition World Action)} {env : Env} {w w' : World} {b : BetParams}
    (h : RecordsKept X history w) (hsucc : Succeeds X env (.placeBet b) w w') :
    RecordsKept X (history ++ [⟨w, .call env (.placeBet b), w'⟩]) w' := by
  obtain ⟨m, fee, heff⟩ := hsucc.effect.places
  obtain ⟨r, hr⟩ := id hsucc
  have hreferrer := placeBet_records (done_eq_ok.mp hr).1
  have hfee : feeCharged w b = fee := heff.feeCharged_eq
  have hplaced := placedOn_of_bet (callOk_of_succeeds hsucc)
  refine ⟨fun key => ?_, fun key => ?_, fun key => ?_⟩ <;> rw [betsOn_concat, hplaced key, hfee]
  · rw [heff.lookup_bet]
    by_cases hkey : key = b.key
    · subst hkey
      rw [if_pos rfl, if_pos rfl, Option.toList_some]
      -- the old record, or the empty one before the first bet
      have hold := h.record b.key
      have hexisting : w.bets.existingBet b = ⟨b.marketId, b.bettor, b.outcome,
          netTotal (betsOn X b.key history), feeTotal (betsOn X b.key history)⟩ := by
        unfold BetStore.existingBet
        rw [hold, recordOf]
        split
        · rename_i hnil
          rw [hnil]
          rfl
        · rfl
      unfold BetParams.record
      rw [hexisting, recordOf, if_neg (by simp), netTotal_concat, feeTotal_concat]
      rfl
    · rw [if_neg hkey, if_neg (fun h => hkey h.symm), Option.toList_none, List.append_nil, h.record]
  · rw [hreferrer]
    by_cases hkey : b.key = key
    · subst hkey
      rw [if_pos rfl, Option.toList_some, lastReferrer_concat]
      cases b.referrer with
      | none => exact h.referrer b.key
      | some r => exact Store.lookup_insert_eq _ _ _ _ |>.trans (if_pos rfl)
    · rw [if_neg hkey, Option.toList_none, List.append_nil]
      cases b.referrer with
      | none => exact h.referrer key
      | some r =>
          refine (Store.lookup_insert_eq _ _ _ _).trans ?_
          rw [if_neg (fun h => hkey h.symm)]
          exact h.referrer key
  · intro x hx
    rcases List.mem_append.mp hx with hx | hx
    · exact h.placed key x hx
    · split at hx
      · rename_i hkey
        obtain rfl := List.mem_singleton.mp hx
        subst hkey
        exact ⟨rfl, heff.auth, heff.amount_pos⟩
      · cases hx

/-- **Bet records are the bets.**  After every run, the record under a market, a
bettor and an outcome is there exactly when bets on them succeeded; it holds the
sum of their net amounts and the sum of their fees, and the referrer on record
is the last one they named.  Each of these bets was signed by the bettor. -/
theorem bet_records_are_bets (X : Externs) (b : Address → Address → Nat) (t s : Nat) (as : List Action) :
    RecordsKept X (trace (step X) (genesis b t s) as) (run (step X) (genesis b t s) as) := by
  have h0 : RecordsKept X [] (genesis b t s) :=
    ⟨fun key => rfl, fun key => rfl, fun key x hx => absurd hx List.not_mem_nil⟩
  refine history_ok_invariant (RecordsKept X) h0 ?_ ?_ as
  · intro history v env c v' h hsucc
    rcases hsucc.effect.bets with ⟨b, m, fee, rfl, _⟩ | ⟨hc, hbets⟩
    · exact h.bet hsucc
    · refine h.skip (fun key => ?_) hbets
      cases c with
      | placeBet b => exact absurd rfl (hc b)
      | _ => rfl
  · intro history v a v' h hidle hok
    refine h.skip (fun key => placedOn_of_idle key hidle hok) ?_
    obtain ⟨_, _, _, rfl⟩ := hidle.frame
    rfl

/-- Two bets of 1000 and 500 at 1% on one outcome: 1485 net, 15 in fees. -/
example :
    (sampleRun (sampleOpening 100 1000 ++ [.call everybody (.placeBet (sampleBet ⟨3⟩ ⟨10⟩ 1 0 500))])).bets.bet.lookup
        (1, ⟨3⟩, 0)
      = some ⟨1, ⟨3⟩, 0, 1485, 15⟩ := by decide

end PredictIQ.Contract
