/-
  PredictIQ.Foundation.Padding: lists filled up to one length.

  Two lists that are filled up with `d` to the longer one's length are equal
  exactly when they are equal without the `d`s at their ends.
-/
import Mathlib.Data.List.DropRight

namespace Foundation

variable {α β : Type} [DecidableEq α] {d : α} {xs ys : List α}

/-- A list filled up with `d` to a length. -/
def padTo (d : α) (len : Nat) (xs : List α) : List α := xs ++ List.replicate (len - xs.length) d

/-- A list without the `d`s at its end. -/
def trimEnd (d : α) (xs : List α) : List α := xs.rdropWhile (· = d)

/-- **What is trimmed** are `d`s. -/
theorem exists_trimEnd (d : α) (xs : List α) : ∃ k, xs = trimEnd d xs ++ List.replicate k d := by
  have hall : ∀ x ∈ xs.rtakeWhile (· = d), x = d := fun x hx => by
    simpa using List.mem_rtakeWhile_imp hx
  refine ⟨(xs.rtakeWhile (· = d)).length, ?_⟩
  rw [← List.eq_replicate_iff.mpr ⟨rfl, hall⟩]
  exact List.rdropWhile_append_rtakeWhile.symm

theorem trimEnd_concat_self (xs : List α) : trimEnd d (xs ++ [d]) = trimEnd d xs :=
  List.rdropWhile_concat_pos _ _ _ (by simp)

theorem trimEnd_concat_of_ne {x : α} (xs : List α) (h : x ≠ d) : trimEnd d (xs ++ [x]) = xs ++ [x] :=
  List.rdropWhile_concat_neg _ _ _ (by simpa using h)

theorem trimEnd_append_replicate (xs : List α) (k : Nat) : trimEnd d (xs ++ List.replicate k d) = trimEnd d xs := by
  induction k with
  | zero => rw [List.replicate_zero, List.append_nil]
  | succ k ih => rw [List.replicate_succ', ← List.append_assoc, trimEnd_concat_self, ih]

/-- A list without `d` is not trimmed. -/
theorem trimEnd_eq_self (h : d ∉ xs) : trimEnd d xs = xs := by
  refine List.rdropWhile_eq_self_iff.mpr fun hne hlast => h ?_
  have hmem := List.getLast_mem hne
  rwa [of_decide_eq_true hlast] at hmem

/-- **Filled up to one length**, lists are equal when they are equal without their ends. -/
theorem padTo_eq_iff :
    padTo d (max xs.length ys.length) xs = padTo d (max xs.length ys.length) ys ↔ trimEnd d xs = trimEnd d ys := by
  unfold padTo
  constructor
  · intro h
    rw [← trimEnd_append_replicate (d := d) xs, h, trimEnd_append_replicate]
  · intro h
    obtain ⟨j, hj⟩ := exists_trimEnd d xs
    obtain ⟨k, hk⟩ := exists_trimEnd d ys
    have hxs := congrArg List.length hj
    have hys := congrArg List.length hk
    rw [List.length_append, List.length_replicate, h] at hxs
    rw [List.length_append, List.length_replicate] at hys
    have hfill : j + (max xs.length ys.length - xs.length) = k + (max xs.length ys.length - ys.length) := by omega
    calc xs ++ List.replicate (max xs.length ys.length - xs.length) d
        = trimEnd d ys ++ List.replicate (j + (max xs.length ys.length - xs.length)) d := by
          rw [List.replicate_add, ← List.append_assoc, ← h, ← hj]
      _ = ys ++ List.replicate (max xs.length ys.length - ys.length) d := by
          rw [hfill, List.replicate_add, ← List.append_assoc, ← hk]

/-- The end of a text is trimmed where it is written, when only one letter is
written as `d`, and no other ends in it. -/
theorem trimEnd_flatMap [DecidableEq β] {e : β} {f : β → List α} (he : f e = [d])
    (hother : ∀ b, b ≠ e → ∃ front a, f b = front ++ [a] ∧ a ≠ d) (bs : List β) :
    trimEnd d (bs.flatMap f) = (trimEnd e bs).flatMap f := by
  induction bs using List.reverseRecOn with
  | nil => rfl
  | append_singleton bs b ih =>
      rw [List.flatMap_append, List.flatMap_singleton]
      by_cases hb : b = e
      · subst hb
        rw [he, trimEnd_concat_self, trimEnd_concat_self, ih]
      · obtain ⟨front, a, hf, ha⟩ := hother b hb
        rw [hf, ← List.append_assoc, trimEnd_concat_of_ne _ ha, trimEnd_concat_of_ne _ hb, List.flatMap_append,
          List.flatMap_singleton, hf, List.append_assoc]

end Foundation
