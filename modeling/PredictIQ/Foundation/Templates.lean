/-
  PredictIQ.Foundation.Templates: texts with a word to be filled in.

  `pieces w` cuts a list at the occurrences of a word, from the left and not
  overlapping; filling in puts a value between the pieces.  A template that
  has the word somewhere tells any two values apart.
-/
import Mathlib.Data.List.Infix
import Mathlib.Data.List.ModifyLast
import Mathlib.Algebra.Order.Group.Nat

namespace Foundation

section Templates

variable {α : Type} [DecidableEq α]

/-- What stands between the occurrences of `w`, `skip` items of one of them being
passed over first. -/
def pieces (w : List α) : Nat → List α → List (List α)
  | _, [] => [[]]
  | skip + 1, _ :: xs => pieces w skip xs
  | 0, x :: xs =>
      if w <+: x :: xs then [] :: pieces w (w.length - 1) xs else (pieces w 0 xs).modifyHead (x :: ·)

/-- Every occurrence of `w` replaced by `value`. -/
def filled (w value xs : List α) : List α := value.intercalate (pieces w 0 xs)

theorem pieces_ne_nil (w : List α) (skip : Nat) (xs : List α) : pieces w skip xs ≠ [] := by
  induction xs generalizing skip with
  | nil => cases skip <;> simp [pieces]
  | cons x xs ih =>
      cases skip with
      | succ skip => exact ih skip
      | zero =>
          rw [pieces]
          split
          · exact List.cons_ne_nil _ _
          · exact fun h => ih 0 (List.modifyHead_eq_nil_iff.mp h)

/-- A word that occurs cuts the list in two or more. -/
theorem two_le_length_pieces {w xs : List α} (hw : w ≠ []) (h : w <:+: xs) : 2 ≤ (pieces w 0 xs).length := by
  induction xs with
  | nil => exact absurd (List.infix_nil.mp h) hw
  | cons x xs ih =>
      rw [pieces]
      split
      · have hrest := List.length_pos_iff.mpr (pieces_ne_nil w (w.length - 1) xs)
        rw [List.length_cons]
        omega
      · rename_i hprefix
        rw [List.length_modifyHead]
        exact ih ((List.infix_cons_iff.mp h).resolve_left hprefix)

omit [DecidableEq α] in
theorem intercalate_cons (value p q : List α) (ps : List (List α)) :
    value.intercalate (p :: q :: ps) = p ++ (value ++ value.intercalate (q :: ps)) := by
  simp [List.intercalate]

omit [DecidableEq α] in
/-- The value stands between any two pieces. -/
theorem length_intercalate (value p : List α) (ps : List (List α)) :
    (value.intercalate (p :: ps)).length = (p :: ps).flatten.length + ps.length * value.length := by
  induction ps generalizing p with
  | nil => simp [List.intercalate]
  | cons q ps ih =>
      rw [intercalate_cons, List.length_append, List.length_append, ih q]
      simp only [List.flatten_cons, List.length_append, List.length_cons, Nat.succ_mul]
      omega

/-- **A filled template tells its values apart.** -/
theorem filled_inj {w xs value value' : List α} (hw : w ≠ []) (h : w <:+: xs)
    (heq : filled w value xs = filled w value' xs) : value = value' := by
  have htwo := two_le_length_pieces hw h
  unfold filled at heq
  match hps : pieces w 0 xs with
  | [] => exact absurd hps (pieces_ne_nil w 0 xs)
  | [p] =>
      rw [hps] at htwo
      simp at htwo
  | p :: q :: ps =>
      rw [hps] at heq
      -- as many copies of either, so the values have one length
      have hlen := congrArg List.length heq
      rw [length_intercalate, length_intercalate, Nat.add_left_cancel_iff] at hlen
      have hsame : value.length = value'.length := Nat.eq_of_mul_eq_mul_left (by simp) hlen
      rw [intercalate_cons, intercalate_cons] at heq
      exact (List.append_inj (List.append_cancel_left heq) hsame).1

end Templates

end Foundation
