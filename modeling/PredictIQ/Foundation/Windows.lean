/-
  PredictIQ.Foundation.Windows: lists that fall into windows, in which the
  items are counted from 1 on.

  What an interval holds of an ordered list is a segment of it.  A segment is
  cut at the first item that opens a window; the items of one window have
  counts that follow one another, so at most `m` of them have counts up to `m`.
-/
import Mathlib.Data.List.Infix
import Mathlib.Data.List.Chain

namespace Foundation

variable {α : Type}

/-! ## §1. Segments. -/

/-- What meets a condition is a beginning when whatever precedes it meets it too. -/
theorem filter_initial {p : α → Bool} {xs : List α} (h : xs.Pairwise fun x y => p y = true → p x = true) :
    xs.filter p <+: xs := by
  induction xs with
  | nil => exact List.prefix_rfl
  | cons x xs ih =>
      obtain ⟨hx, hxs⟩ := List.pairwise_cons.mp h
      by_cases hp : p x = true
      · rw [List.filter_cons_of_pos hp]
        exact List.prefix_cons_inj x |>.mpr (ih hxs)
      · have hnone : xs.filter p = [] := List.filter_eq_nil_iff.mpr fun y hy hpy => hp (hx y hy hpy)
        rw [List.filter_cons_of_neg hp, hnone]
        exact List.nil_prefix

/-- **What an interval holds** of an ordered list is a segment of it. -/
theorem filter_segment {r : α → α → Prop} {p : α → Bool} {xs : List α} (h : xs.Pairwise r)
    (hconvex : ∀ x y z, r x y → r y z → p x = true → p z = true → p y = true) : xs.filter p <:+: xs := by
  induction xs with
  | nil => exact List.infix_rfl
  | cons x xs ih =>
      obtain ⟨hx, hxs⟩ := List.pairwise_cons.mp h
      by_cases hp : p x = true
      · rw [List.filter_cons_of_pos hp]
        have hrest : xs.Pairwise fun y z => p z = true → p y = true :=
          hxs.imp_of_mem fun {y z} hy _ hyz hz => hconvex x y z (hx y hy) hyz hp hz
        exact (List.prefix_cons_inj x |>.mpr (filter_initial hrest)).isInfix
      · rw [List.filter_cons_of_neg hp]
        exact List.infix_cons (ih hxs)

/-- A list is cut before the first item of a kind, if it has one. -/
theorem exists_cut (p : α → Prop) (xs : List α) :
    (∀ x ∈ xs, ¬p x) ∨ ∃ front x back, xs = front ++ x :: back ∧ (∀ y ∈ front, ¬p y) ∧ p x := by
  induction xs with
  | nil => exact .inl nofun
  | cons x xs ih =>
      by_cases hx : p x
      · exact .inr ⟨[], x, xs, rfl, nofun, hx⟩
      · rcases ih with hnone | ⟨front, y, back, rfl, hfront, hy⟩
        · exact .inl (List.forall_mem_cons.mpr ⟨hx, hnone⟩)
        · exact .inr ⟨x :: front, y, back, rfl, List.forall_mem_cons.mpr ⟨hx, hfront⟩, hy⟩

/-! ## §2. Counts. -/

/-- **Counts that follow one another** reach a bound once. -/
theorem countP_le_of_isChain {count : α → Nat} {m : Nat} {xs : List α}
    (hchain : xs.IsChain fun x y => count y = count x + 1) (hhead : ∀ x ∈ xs.head?, 1 ≤ count x) :
    xs.countP (fun x => decide (count x ≤ m)) ≤ m := by
  -- from a count on, what is left to the bound
  suffices hfrom : ∀ xs : List α, xs.IsChain (fun x y => count y = count x + 1) → ∀ x ∈ xs.head?,
      xs.countP (fun x => decide (count x ≤ m)) ≤ m + 1 - count x by
    cases xs with
    | nil => exact Nat.zero_le _
    | cons x xs =>
        have hx := hhead x rfl
        have hcount := hfrom _ hchain x rfl
        omega
  intro xs
  induction xs with
  | nil => exact fun _ _ => nofun
  | cons x xs ih =>
      rintro hchain y hy
      obtain rfl := Option.some.inj hy
      obtain ⟨hnext, hrest⟩ := List.isChain_cons.mp hchain
      cases xs with
      | nil =>
          rw [List.countP_singleton]
          by_cases hx : count x ≤ m
          · rw [if_pos (decide_eq_true hx)]
            omega
          · rw [if_neg (by simpa using hx)]
            exact Nat.zero_le _
      | cons z zs =>
          have hz := hnext z rfl
          have hcount := ih hrest z rfl
          by_cases hx : count x ≤ m
          · rw [List.countP_cons_of_pos (by simpa using hx)]
            omega
          · rw [List.countP_cons_of_neg (by simpa using hx)]
            omega

end Foundation
