/-
  PredictIQ.Foundation.Ledger: holdings that change by logged movements.

  A ledger says what each holder has of each asset.  A movement takes its
  amount from the payer and gives it to the payee; it is covered when the
  payer has that much.  A list of movements, each covered in its turn, leaves
  every holder with what it had, plus what it received, less what it paid.

  Main results:
    * `postAll_eq`: holdings are the opening holdings and the net of the log.
    * `netOf_nonneg`: who pays nothing loses nothing.
-/
import Mathlib.Tactic.Ring

namespace Foundation

variable {τ α : Type} [DecidableEq τ] [DecidableEq α]

/-! ## §1. Movements. -/

structure Movement (τ α : Type) where
  asset : τ
  payer : α
  payee : α
  amount : Nat

/-- What each holder has of each asset. -/
abbrev Holdings (τ α : Type) : Type := τ → α → Nat

/-- What a movement leaves with every holder. -/
def Holdings.post (b : Holdings τ α) (x : Movement τ α) : Holdings τ α :=
  fun asset holder =>
    if asset = x.asset then
      -- out of the payer first, so that a movement to oneself changes nothing
      (if holder = x.payer then b asset holder - x.amount else b asset holder)
        + (if holder = x.payee then x.amount else 0)
    else b asset holder

/-- The movements of a list, in order. -/
def Holdings.postAll (b : Holdings τ α) (xs : List (Movement τ α)) : Holdings τ α :=
  xs.foldl Holdings.post b

/-- The payer has the amount. -/
def Movement.Covered (b : Holdings τ α) (x : Movement τ α) : Prop := x.amount ≤ b x.asset x.payer

/-- Every movement of a list is covered in its turn. -/
def AllCovered : Holdings τ α → List (Movement τ α) → Prop
  | _, [] => True
  | b, x :: xs => x.Covered b ∧ AllCovered (b.post x) xs

/-- What a movement means to one holder of one asset. -/
def Movement.net (x : Movement τ α) (asset : τ) (holder : α) : Int :=
  if x.asset = asset then
    (if holder = x.payee then (x.amount : Int) else 0) - (if holder = x.payer then (x.amount : Int) else 0)
  else 0

/-- What a list of movements means to one holder of one asset. -/
def netOf (xs : List (Movement τ α)) (asset : τ) (holder : α) : Int :=
  (xs.map (·.net asset holder)).sum

@[simp] theorem netOf_nil (asset : τ) (holder : α) : netOf ([] : List (Movement τ α)) asset holder = 0 := rfl

theorem netOf_cons (x : Movement τ α) (xs : List (Movement τ α)) (asset : τ) (holder : α) :
    netOf (x :: xs) asset holder = x.net asset holder + netOf xs asset holder := by
  unfold netOf
  rw [List.map_cons, List.sum_cons]

theorem netOf_append (xs ys : List (Movement τ α)) (asset : τ) (holder : α) :
    netOf (xs ++ ys) asset holder = netOf xs asset holder + netOf ys asset holder := by
  unfold netOf
  rw [List.map_append, List.sum_append]

/-! ## §2. What they leave. -/

/-- A covered movement adds its net to what a holder has. -/
theorem post_eq {b : Holdings τ α} {x : Movement τ α} (hx : x.Covered b) (asset : τ) (holder : α) :
    (b.post x asset holder : Int) = b asset holder + x.net asset holder := by
  unfold Movement.Covered at hx
  unfold Holdings.post Movement.net
  by_cases hasset : asset = x.asset
  · subst hasset
    rw [if_pos rfl, if_pos rfl]
    -- the payer is debited what it has, so the subtraction does not truncate
    by_cases hpayer : holder = x.payer
    · subst hpayer
      rw [if_pos rfl, if_pos rfl]
      split <;> omega
    · rw [if_neg hpayer, if_neg hpayer]
      split <;> omega
  · rw [if_neg hasset, if_neg (fun h => hasset h.symm), add_zero]

/-- **Holdings are the opening holdings and the net of the log.** -/
theorem postAll_eq {b : Holdings τ α} {xs : List (Movement τ α)} (hxs : AllCovered b xs) (asset : τ) (holder : α) :
    (b.postAll xs asset holder : Int) = b asset holder + netOf xs asset holder := by
  induction xs generalizing b with
  | nil => exact (add_zero _).symm
  | cons x xs ih =>
      obtain ⟨hx, hrest⟩ := hxs
      have hhead := post_eq hx asset holder
      show ((b.post x).postAll xs asset holder : Int) = _
      rw [ih hrest, hhead, netOf_cons]
      ring

/-- A movement is no loss to who does not pay it. -/
theorem net_nonneg {x : Movement τ α} {asset : τ} {holder : α} (h : x.asset = asset → x.payer ≠ holder) :
    0 ≤ x.net asset holder := by
  unfold Movement.net
  by_cases hasset : x.asset = asset
  · have hpayer : ¬holder = x.payer := fun heq => h hasset heq.symm
    rw [if_pos hasset, if_neg hpayer]
    split <;> omega
  · rw [if_neg hasset]

/-- **Who pays nothing loses nothing.** -/
theorem netOf_nonneg {xs : List (Movement τ α)} {asset : τ} {holder : α}
    (h : ∀ x ∈ xs, x.asset = asset → x.payer ≠ holder) : 0 ≤ netOf xs asset holder := by
  induction xs with
  | nil => exact le_refl _
  | cons x xs ih =>
      rw [netOf_cons]
      have hx := net_nonneg (h x List.mem_cons_self)
      have hxs := ih fun y hy => h y (List.mem_cons_of_mem _ hy)
      omega

/-! ## §3. Joining lists of movements. -/

theorem postAll_append (b : Holdings τ α) (xs ys : List (Movement τ α)) :
    b.postAll (xs ++ ys) = (b.postAll xs).postAll ys := List.foldl_append

theorem allCovered_append {b : Holdings τ α} {xs ys : List (Movement τ α)} :
    AllCovered b (xs ++ ys) ↔ AllCovered b xs ∧ AllCovered (b.postAll xs) ys := by
  induction xs generalizing b with
  | nil => simp [Holdings.postAll, AllCovered]
  | cons x xs ih =>
      show (_ ∧ AllCovered (b.post x) (xs ++ ys)) ↔ (_ ∧ _) ∧ AllCovered ((b.post x).postAll xs) ys
      rw [ih, and_assoc]

end Foundation
