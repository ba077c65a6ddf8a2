/-
  PredictIQ.Safety.Referrals: does a reversal take back what was credited?

  `add_referral_reward` credits a tenth of each fee, rounded down.
  `reverse_referral_reward` takes back a tenth of the accumulated fee, rounded
  down once.  The remainders lost bet by bet can add up to whole units, which
  the reversal takes although they were never credited; and it takes them from
  a balance that a claim may have paid out before.
-/
import PredictIQ.Contract.Fees
import PredictIQ.Foundation.Run
import Mathlib.Algebra.Order.BigOperators.Group.List

namespace PredictIQ.Contract

open Foundation Tx

/-! ## §1. Rewards as floors. -/

/-- The rewards of the parts and the remainders they lose make up the whole. -/
theorem sum_rewards (fees : List Int) :
    10 * (fees.map (· / 10)).sum + (fees.map (· % 10)).sum = fees.sum := by
  induction fees with
  | nil => rfl
  | cons fee fees ih =>
      simp only [List.map_cons, List.sum_cons]
      omega

theorem sum_remainders_nonneg (fees : List Int) : 0 ≤ (fees.map (· % 10)).sum := by
  refine List.sum_nonneg fun r hr => ?_
  obtain ⟨fee, -, rfl⟩ := List.mem_map.mp hr
  omega

theorem sum_rewards_nonneg {fees : List Int} (h : ∀ fee ∈ fees, 0 ≤ fee) : 0 ≤ (fees.map (· / 10)).sum := by
  refine List.sum_nonneg fun r hr => ?_
  obtain ⟨fee, hfee, rfl⟩ := List.mem_map.mp hr
  have hnn := h fee hfee
  show 0 ≤ fee / 10
  omega

/-- Nothing is credited exactly when every fee is below ten. -/
theorem sum_rewards_eq_zero {fees : List Int} (h : ∀ fee ∈ fees, 0 ≤ fee) :
    (fees.map (· / 10)).sum = 0 ↔ ∀ fee ∈ fees, fee < 10 := by
  induction fees with
  | nil => simp
  | cons fee fees ih =>
      have hfee := h fee List.mem_cons_self
      have hfees : ∀ fee' ∈ fees, 0 ≤ fee' := fun fee' hfee' => h fee' (List.mem_cons_of_mem _ hfee')
      have hrest := sum_rewards_nonneg hfees
      simp only [List.map_cons, List.sum_cons, List.forall_mem_cons, ← ih hfees]
      omega

/-- A reward is a tenth of the fee, rounded towards zero. -/
theorem referralReward_cases {fee reward : Int} (h : referralReward fee = some reward) :
    (0 ≤ fee ∧ reward = fee / 10) ∨ (fee < 0 ∧ reward = -(-fee / 10)) := by
  rw [referralReward_eq h]
  rcases lt_or_ge fee 0 with hneg | hnn
  · refine Or.inr ⟨hneg, ?_⟩
    rw [← neg_neg (fee * 10), Int.neg_tdiv, Int.tdiv_eq_ediv_of_nonneg (by omega)]
    omega
  · refine Or.inl ⟨hnn, ?_⟩
    rw [Int.tdiv_eq_ediv_of_nonneg (by omega)]
    omega

/-! ## §2. Credits, and one reversal. -/

/-- The fees of one bettor's bets, credited in turn. -/
def creditAll (referrer token : Address) : List Int → Body Unit
  | [] => pure ()
  | fee :: fees => do
      addReferralReward referrer token fee
      creditAll referrer token fees

/-- The reversal of the accumulated fee takes exactly what was credited: the
remainders do not add up to a unit, or nothing can be taken; where ten times
the fee overflows nothing is taken, and nothing must have been credited. -/
def Restores (balance : Int) (fees : List Int) : Prop :=
  if fees.sum * 10 < 2 ^ 127 then (fees.map (· % 10)).sum < 10 ∨ balance = -2 ^ 127
  else ∀ fee ∈ fees, fee < 10

instance (balance : Int) (fees : List Int) : Decidable (Restores balance fees) := by
  unfold Restores
  infer_instance

section Reversal

variable {env : Env} {w w' : World} {u : Unit} {referrer token : Address}

theorem FeeStore.getReferrerBalance_insert (s : FeeStore) (referrer token referrer' token' : Address) (balance : Int) :
    ({ s with referrerBalance := s.referrerBalance.insert (referrer, token) balance } : FeeStore).getReferrerBalance
        referrer' token'
      = if (referrer', token') = (referrer, token) then balance else s.getReferrerBalance referrer' token' := by
  unfold FeeStore.getReferrerBalance
  rw [Store.lookup_insert_eq]
  split <;> rfl

/-- Nothing written, put the same way. -/
theorem FeeStore.getReferrerBalance_same (s : FeeStore) (referrer token referrer' token' : Address) :
    s.getReferrerBalance referrer' token'
      = if (referrer', token') = (referrer, token) then s.getReferrerBalance referrer token
        else s.getReferrerBalance referrer' token' := by
  split
  · rename_i heq
    obtain ⟨rfl, rfl⟩ := Prod.mk.inj heq
    rfl
  · rfl

theorem addReferralReward_fits {fee : Int} (h : addReferralReward referrer token fee env w = (.ok u, w')) :
    ∃ reward, referralReward fee = some reward
      ∧ w'.fees.getReferrerBalance referrer token = w.fees.getReferrerBalance referrer token + reward
      ∧ -2 ^ 127 ≤ w'.fees.getReferrerBalance referrer token
      ∧ w'.fees.getReferrerBalance referrer token < 2 ^ 127 := by
  simp only [addReferralReward, bind_eq_ok, reads_eq_ok, orErr_ok, update_eq_ok, publish_ok,
    checkedAdd, inI128_eq_some, and_assoc, exists_and_left, exists_eq_left', exists_eq_left,
    exists_const] at h
  obtain ⟨reward, hr, hlo, hhi, rfl⟩ := h
  refine ⟨reward, hr, ?_⟩
  show FeeStore.getReferrerBalance { w.fees with referrerBalance := _ } referrer token = _ ∧ _ ∧ _
  rw [FeeStore.getReferrerBalance_insert, if_pos rfl]
  exact ⟨rfl, hlo, hhi⟩

/-- The credits add the rewards up, and stay within `i128`. -/
theorem creditAll_balance {fees : List Int} (hfees : ∀ fee ∈ fees, 0 ≤ fee)
    (h : creditAll referrer token fees env w = (.ok u, w')) :
    w'.fees.getReferrerBalance referrer token
        = w.fees.getReferrerBalance referrer token + (fees.map (· / 10)).sum
      ∧ (fees = [] ∨ w'.fees.getReferrerBalance referrer token < 2 ^ 127) := by
  induction fees generalizing w with
  | nil =>
      obtain ⟨-, rfl⟩ := pure_eq_ok.mp h
      exact ⟨(add_zero _).symm, Or.inl rfl⟩
  | cons fee fees ih =>
      obtain ⟨_, v, hadd, hrest⟩ := bind_eq_ok.mp h
      obtain ⟨reward, hr, hbal, -, hhi⟩ := addReferralReward_fits hadd
      obtain ⟨hbal', hfits⟩ := ih (fun fee' hfee' => hfees fee' (List.mem_cons_of_mem _ hfee')) hrest
      have hreward : reward = fee / 10 := by
        have hnn := hfees fee List.mem_cons_self
        rcases referralReward_cases hr with ⟨-, hr⟩ | ⟨hneg, -⟩ <;> omega
      refine ⟨?_, Or.inr ?_⟩
      · simp only [List.map_cons, List.sum_cons]
        omega
      · rcases hfits with rfl | hfits
        · obtain ⟨-, rfl⟩ := pure_eq_ok.mp hrest
          exact hhi
        · exact hfits

/-- A reversal never fails. -/
theorem reverseReferralReward_returns (referrer token : Address) (fee : Int) (env : Env) (w : World) :
    ∃ v, reverseReferralReward referrer token fee env w = (.ok (), v) := by
  unfold reverseReferralReward
  cases referralReward fee with
  | none => exact ⟨w, rfl⟩
  | some reward =>
      by_cases hzero : reward = 0
      · exact ⟨w, by simp only [hzero]; rfl⟩
      · simp only [whenever_of_pos hzero]
        exact ⟨_, rfl⟩

/-- The balance a reversal leaves under its own key and every other. -/
theorem reverseReferralReward_balance (referrer token : Address) (fee : Int) (env : Env) (w : World)
    (referrer' token' : Address) :
    (reverseReferralReward referrer token fee env w).2.fees.getReferrerBalance referrer' token'
      = if (referrer', token') = (referrer, token) then
          ((referralReward fee).map fun reward =>
            if reward = 0 then w.fees.getReferrerBalance referrer token
            else saturatingSub (w.fees.getReferrerBalance referrer token) reward).getD
          (w.fees.getReferrerBalance referrer token)
        else w.fees.getReferrerBalance referrer' token' := by
  have hsame := w.fees.getReferrerBalance_same referrer token referrer' token'
  unfold reverseReferralReward
  cases referralReward fee with
  | none => exact hsame
  | some reward =>
      by_cases hzero : reward = 0
      · simp only [hzero, Option.map_some, if_true]
        exact hsame
      · simp only [Option.map_some, if_neg hzero, whenever_of_pos hzero]
        exact FeeStore.getReferrerBalance_insert _ _ _ _ _ _

/-- A reversal of the accumulated fee restores the balance from before the
credits exactly when `Restores` says so. -/
theorem reverse_creditAll_iff {fees : List Int} (hfees : ∀ fee ∈ fees, 0 ≤ fee)
    (hlo : -2 ^ 127 ≤ w.fees.getReferrerBalance referrer token)
    (h : creditAll referrer token fees env w = (.ok u, w')) :
    (reverseReferralReward referrer token fees.sum env w').2.fees.getReferrerBalance referrer token
        = w.fees.getReferrerBalance referrer token
      ↔ Restores (w.fees.getReferrerBalance referrer token) fees := by
  obtain ⟨hbal, hfits⟩ := creditAll_balance hfees h
  have hsum := sum_rewards fees
  have hrem := sum_remainders_nonneg fees
  have hrew := sum_rewards_nonneg hfees
  have hhi : 0 < fees.sum → w'.fees.getReferrerBalance referrer token < 2 ^ 127 := by
    intro hpos
    rcases hfits with rfl | hhi
    · exact absurd hpos (lt_irrefl 0)
    · exact hhi
  rw [reverseReferralReward_balance, if_pos rfl]
  unfold Restores
  cases hr : referralReward fees.sum with
  | none =>
      have hover : ¬fees.sum * 10 < 2 ^ 127 := by
        intro hlt
        exact referralReward_eq_none.mp hr ⟨by omega, hlt⟩
      rw [if_neg hover, ← sum_rewards_eq_zero hfees]
      show w'.fees.getReferrerBalance referrer token = _ ↔ _
      omega
  | some reward =>
      obtain ⟨hrange, -⟩ := referralReward_eq_some.mp hr
      have hreward : reward = fees.sum / 10 := by
        rcases referralReward_cases hr with ⟨-, hr⟩ | ⟨hneg, -⟩ <;> omega
      rw [if_pos hrange.2]
      show (if reward = 0 then _ else saturatingSub _ reward) = _ ↔ _
      -- more is taken than was credited only where the remainders carry
      unfold saturatingSub
      split <;> omega

end Reversal

/-! ## §3. Credits, claims and reversals in any order. -/

/-- The three functions that write a referrer's balance. -/
inductive ReferralCall where
  | add (referrer token : Address) (fee : Int)
  | claim (address token : Address)
  | reverse (referrer token : Address) (fee : Int)

def ReferralCall.body : ReferralCall → Body Unit
  | .add referrer token fee => addReferralReward referrer token fee
  | .claim address token => do
      let _ ← claimReferralRewards address token
      pure ()
  | .reverse referrer token fee => reverseReferralReward referrer token fee

/-- A call, committed or rolled back. -/
def referralStep (w : World) (a : Env × ReferralCall) : World := (commit a.2.body a.1 w).2

/-- No referrer owes the contract. -/
def NoDebt (w : World) : Prop := ∀ referrer token, 0 ≤ w.fees.getReferrerBalance referrer token

/-- The balance covers what the call takes from it, if the call computes a reward. -/
def Covered (w : World) : ReferralCall → Prop
  | .add referrer token fee =>
      -2 ^ 127 ≤ fee * 10 → fee * 10 < 2 ^ 127 → -10 * (w.fees.getReferrerBalance referrer token + 1) < fee
  | .claim _ _ => True
  | .reverse referrer token fee =>
      -2 ^ 127 ≤ fee * 10 → fee * 10 < 2 ^ 127 → fee < 10 * (w.fees.getReferrerBalance referrer token + 1)

section Debts

variable {env : Env} {w w' : World} {referrer token : Address} {fee : Int}

/-- One balance written: only it can be a debt. -/
theorem NoDebt.written_iff (hI : NoDebt w) {balance : Int}
    (h : ∀ referrer' token', w'.fees.getReferrerBalance referrer' token'
      = if (referrer', token') = (referrer, token) then balance else w.fees.getReferrerBalance referrer' token') :
    NoDebt w' ↔ 0 ≤ balance := by
  constructor
  · intro h'
    have hkey := h' referrer token
    rwa [h, if_pos rfl] at hkey
  · intro hnn referrer' token'
    rw [h]
    split
    · exact hnn
    · exact hI referrer' token'

/-- The balance a committed credit leaves under its own key and every other; one
that overflows is rolled back. -/
theorem addReferralReward_balance (referrer token : Address) (fee : Int) (env : Env) (w : World)
    (referrer' token' : Address) :
    (referralStep w (env, .add referrer token fee)).fees.getReferrerBalance referrer' token'
      = if (referrer', token') = (referrer, token) then
          ((referralReward fee).bind (checkedAdd (w.fees.getReferrerBalance referrer token))).getD
            (w.fees.getReferrerBalance referrer token)
        else w.fees.getReferrerBalance referrer' token' := by
  show (commit (addReferralReward referrer token fee) env w).2.fees.getReferrerBalance referrer' token' = _
  cases hnew : (referralReward fee).bind (checkedAdd (w.fees.getReferrerBalance referrer token)) with
  | none =>
      have hfailed : ∀ v, addReferralReward referrer token fee env w ≠ (.ok (), v) := by
        intro v hok
        simp only [addReferralReward, bind_eq_ok, reads_eq_ok, orErr_ok, and_assoc, exists_and_left,
          exists_eq_left'] at hok
        obtain ⟨reward, hr, balance, hfits, -⟩ := hok
        rw [hr, Option.bind_some, hfits] at hnew
        cases hnew
      rcases commit_state_cases (addReferralReward referrer token fee) env w with hsame | ⟨_, hok⟩
      · rw [hsame]
        exact FeeStore.getReferrerBalance_same _ _ _ _ _
      · exact absurd hok (hfailed _)
  | some balance =>
      obtain ⟨reward, hr, hfits⟩ := Option.bind_eq_some_iff.mp hnew
      have hok : addReferralReward referrer token fee env w = (.ok (), { w with
          fees.referrerBalance := w.fees.referrerBalance.insert (referrer, token) balance
          events := w.events ++ [.refRwrd 0 referrer reward] }) := by
        simp only [addReferralReward, bind_eq_ok, reads_eq_ok, orErr_ok, update_eq_ok, publish_ok, and_assoc,
          exists_and_left, exists_eq_left', exists_eq_left, exists_const]
        exact ⟨reward, hr, balance, hfits, rfl⟩
      rw [commit_eq_ok.mpr hok]
      exact FeeStore.getReferrerBalance_insert _ _ _ _ _ _

theorem noDebt_add_iff (hI : NoDebt w) :
    NoDebt (referralStep w (env, .add referrer token fee)) ↔ Covered w (.add referrer token fee) := by
  have hold := hI referrer token
  rw [hI.written_iff (addReferralReward_balance referrer token fee env w)]
  show _ ↔ (_ → _ → _)
  cases hr : referralReward fee with
  | none =>
      -- the overflow is an error, and the condition asks nothing
      have hrange := referralReward_eq_none.mp hr
      refine iff_of_true hold fun hlo hhi => ?_
      exact absurd ⟨hlo, hhi⟩ hrange
  | some reward =>
      obtain ⟨hrange, -⟩ := referralReward_eq_some.mp hr
      have hcases := referralReward_cases hr
      show 0 ≤ (checkedAdd _ reward).getD _ ↔ _
      -- only a positive reward can find no room
      unfold checkedAdd inI128
      split
      · show 0 ≤ w.fees.getReferrerBalance referrer token + reward ↔ _
        omega
      · show 0 ≤ w.fees.getReferrerBalance referrer token ↔ _
        omega

theorem noDebt_claim (hI : NoDebt w) : NoDebt (referralStep w (env, .claim referrer token)) := by
  rcases commit_state_cases (ReferralCall.claim referrer token).body env w with hsame | ⟨_, hok⟩
  · show NoDebt (commit _ env w).2
    rwa [hsame]
  · obtain ⟨amount, v, hclaim, hpure⟩ := bind_eq_ok.mp hok
    obtain ⟨-, hpost⟩ := pure_eq_ok.mp hpure
    obtain ⟨-, -, rfl⟩ := claimReferralRewards_ok hclaim
    show NoDebt (commit _ env w).2
    rw [← hpost]
    exact (hI.written_iff (FeeStore.getReferrerBalance_insert w.fees referrer token · · 0)).mpr (le_refl 0)

theorem noDebt_reverse_iff (hI : NoDebt w) :
    NoDebt (referralStep w (env, .reverse referrer token fee)) ↔ Covered w (.reverse referrer token fee) := by
  have hold := hI referrer token
  have hpost := reverseReferralReward_balance referrer token fee env w
  obtain ⟨v, hv⟩ := reverseReferralReward_returns referrer token fee env w
  rw [hv] at hpost
  have hcommit : referralStep w (env, .reverse referrer token fee) = v := by
    show (commit (reverseReferralReward referrer token fee) env w).2 = v
    rw [commit_eq_ok.mpr hv]
  rw [hcommit, hI.written_iff hpost]
  show _ ↔ (_ → _ → _)
  cases hr : referralReward fee with
  | none =>
      have hrange := referralReward_eq_none.mp hr
      refine iff_of_true hold fun hlo hhi => ?_
      exact absurd ⟨hlo, hhi⟩ hrange
  | some reward =>
      obtain ⟨hrange, -⟩ := referralReward_eq_some.mp hr
      have hcases := referralReward_cases hr
      show 0 ≤ (if reward = 0 then _ else saturatingSub _ reward) ↔ _
      unfold saturatingSub
      split <;> omega

/-- One step keeps the referrers out of debt exactly when it is covered. -/
theorem noDebt_step_iff (hI : NoDebt w) (a : Env × ReferralCall) : NoDebt (referralStep w a) ↔ Covered w a.2 := by
  obtain ⟨env, c⟩ := a
  cases c with
  | add referrer token fee => exact noDebt_add_iff hI
  | claim address token => exact iff_of_true (noDebt_claim hI) trivial
  | reverse referrer token fee => exact noDebt_reverse_iff hI

end Debts

def sampleReferralEnv : Env where
  authorized _ := true

/-- Two bets with a fee of 5 each, and the cancellation. -/
def sampleReferralRun : List (Env × ReferralCall) :=
  [(sampleReferralEnv, .add ⟨7⟩ ⟨1⟩ 5), (sampleReferralEnv, .add ⟨7⟩ ⟨1⟩ 5), (sampleReferralEnv, .reverse ⟨7⟩ ⟨1⟩ 10)]

/-- **A reversal undoes its credits exactly where the remainders do not carry.**
The balance from before the credits is restored if and only if `Restores`, and
in a run no balance ever is negative if and only if every call was covered. -/
theorem referral_reversal_iff (referrer token : Address) :
    (∀ env w w' fees, -2 ^ 127 ≤ w.fees.getReferrerBalance referrer token → (∀ fee ∈ fees, 0 ≤ fee) →
        creditAll referrer token fees env w = (.ok (), w') →
        ((reverseReferralReward referrer token fees.sum env w').2.fees.getReferrerBalance referrer token
            = w.fees.getReferrerBalance referrer token
          ↔ Restores (w.fees.getReferrerBalance referrer token) fees))
      ∧ ∀ w as, NoDebt w →
        ((∀ bs, bs <+: as → NoDebt (run referralStep w bs)) ↔ ∀ t ∈ trace referralStep w as, Covered t.pre t.act.2) := by
  refine ⟨?_, ?_⟩
  · intro env w w' fees hlo hfees h
    exact reverse_creditAll_iff hfees hlo h
  · intro w as hI
    constructor
    · intro h t ht
      obtain ⟨bs, hbs, hpre, hpost⟩ := prefix_of_mem_trace referralStep ht
      have hnow : NoDebt t.pre := by
        rw [hpre]
        exact h bs ((List.prefix_append bs _).trans hbs)
      refine (noDebt_step_iff hnow t.act).mp ?_
      have hnext := h _ hbs
      rwa [run_concat, ← hpre] at hnext
    · intro h bs hbs
      refine run_invariant_of referralStep NoDebt (fun t => Covered t.pre t.act.2) hI ?_ bs fun t ht =>
        h t (mem_trace_of_isPrefix referralStep hbs ht)
      intro v a hv hcovered
      exact (noDebt_step_iff hv a).mpr hcovered

theorem referral_reversal_iff_sample :
    ((reverseReferralReward ⟨7⟩ ⟨1⟩ 15 sampleReferralEnv
          (creditAll ⟨7⟩ ⟨1⟩ [10, 5] sampleReferralEnv {}).2).2.fees.getReferrerBalance ⟨7⟩ ⟨1⟩ = 0
        ↔ Restores 0 [10, 5])
      ∧ ((∀ bs, bs <+: sampleReferralRun → NoDebt (run referralStep {} bs))
        ↔ ∀ t ∈ trace referralStep {} sampleReferralRun, Covered t.pre t.act.2) :=
  ⟨(referral_reversal_iff ⟨7⟩ ⟨1⟩).1 sampleReferralEnv {} _ [10, 5] (by decide) (by decide) rfl,
    (referral_reversal_iff ⟨7⟩ ⟨1⟩).2 {} _ fun _ _ => le_refl 0⟩

/-- **Two fees of 5 earn nothing, and their reversal takes 1.** -/
theorem sampleReferralRun_debt :
    ¬(∀ env w w' fees, -2 ^ 127 ≤ w.fees.getReferrerBalance ⟨7⟩ ⟨1⟩ → (∀ fee ∈ fees, 0 ≤ fee) →
        creditAll ⟨7⟩ ⟨1⟩ fees env w = (.ok (), w') →
        (reverseReferralReward ⟨7⟩ ⟨1⟩ fees.sum env w').2.fees.getReferrerBalance ⟨7⟩ ⟨1⟩
          = w.fees.getReferrerBalance ⟨7⟩ ⟨1⟩)
      ∧ ¬∀ bs, bs <+: sampleReferralRun → NoDebt (run referralStep {} bs) := by
  constructor
  · intro h
    exact absurd (h sampleReferralEnv {} _ [5, 5] (by decide) (by decide) rfl) (by decide)
  · intro h
    exact absurd (h _ (List.prefix_refl _) ⟨7⟩ ⟨1⟩) (by decide)

end PredictIQ.Contract
