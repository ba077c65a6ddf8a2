/-
  PredictIQ.Foundation.Strips: lists that are stripped, at both ends or here
  and there.

  `strip p` takes the items with `p` off both ends.  `keptFrom` passes over
  items, as what stands before each of them says, and writes the others in any
  number of letters; a word in what it writes was there before, or it lies
  across an item that is passed over.
-/
import Mathlib.Data.List.DropRight
import Mathlib.Data.List.Infix

namespace Foundation

variable {α β : Type}

/-! ## §1. Both ends. -/

/-- Without the items with `p` at the front and at the back. -/
def strip (p : α → Bool) (xs : List α) : List α := (xs.dropWhile p).rdropWhile p

section Ends

variable {p : α → Bool} {xs : List α}

/-- **What is stripped** are items with `p`, on both sides. -/
theorem exists_strip (p : α → Bool) (xs : List α) :
    ∃ front back, xs = front ++ strip p xs ++ back ∧ (∀ x ∈ front, p x = true) ∧ ∀ x ∈ back, p x = true := by
  refine ⟨xs.takeWhile p, (xs.dropWhile p).rtakeWhile p, ?_, ?_, ?_⟩
  · unfold strip
    rw [List.append_assoc, List.rdropWhile_append_rtakeWhile, List.takeWhile_append_dropWhile]
  · exact fun x hx => List.mem_takeWhile_imp hx
  · exact fun x hx => List.mem_rtakeWhile_imp hx

theorem strip_segment (p : α → Bool) (xs : List α) : strip p xs <:+: xs :=
  (List.rdropWhile_prefix p (xs.dropWhile p)).isInfix.trans (List.dropWhile_suffix p).isInfix

theorem strip_sublist (p : α → Bool) (xs : List α) : (strip p xs).Sublist xs := (strip_segment p xs).sublist

/-- Nothing is left of a list of items with `p`, and of no other. -/
theorem strip_eq_nil_iff : strip p xs = [] ↔ ∀ x ∈ xs, p x = true := by
  constructor
  · intro h
    obtain ⟨front, back, hxs, hfront, hback⟩ := exists_strip p xs
    rw [h, List.append_nil] at hxs
    intro x hx
    rw [hxs] at hx
    exact (List.mem_append.mp hx).elim (hfront x) (hback x)
  · intro h
    unfold strip
    rw [List.dropWhile_eq_nil_iff.mpr h, List.rdropWhile_nil]

theorem head?_strip {x : α} (h : x ∈ (strip p xs).head?) : p x = false := by
  have hhead : x ∈ (xs.dropWhile p).head? := by
    obtain ⟨rest, hrest⟩ := List.rdropWhile_prefix p (xs.dropWhile p)
    have hstrip : ((xs.dropWhile p).rdropWhile p).head? = some x := h
    rw [← hrest, List.head?_append, hstrip]
    rfl
  have hnot := List.head?_dropWhile_not p xs
  rw [Option.mem_def.mp hhead] at hnot
  simpa using hnot

theorem getLast?_strip {x : α} (h : x ∈ (strip p xs).getLast?) : p x = false := by
  have hne : strip p xs ≠ [] := by
    rintro hnil
    rw [hnil] at h
    cases h
  rw [List.getLast?_eq_some_getLast hne, Option.mem_def, Option.some.injEq] at h
  subst h
  exact Bool.eq_false_iff.mpr (List.rdropWhile_last_not p _ hne)

/-- A list without items with `p` at its ends stays as it is. -/
theorem strip_eq_self (hhead : ∀ x ∈ xs.head?, p x = false) (hlast : ∀ x ∈ xs.getLast?, p x = false) :
    strip p xs = xs := by
  have hfront : xs.dropWhile p = xs := by
    cases xs with
    | nil => rfl
    | cons x xs =>
        have hx := hhead x rfl
        exact List.dropWhile_cons_of_neg (by simp [hx])
  unfold strip
  rw [hfront, List.rdropWhile_eq_self_iff]
  intro hne
  have hend := hlast _ (List.getLast?_eq_some_getLast hne)
  simp [hend]

theorem strip_strip (p : α → Bool) (xs : List α) : strip p (strip p xs) = strip p xs :=
  strip_eq_self (fun _ => head?_strip) fun _ => getLast?_strip

/-- A word whose ends are no items with `p` is not touched by items with `p` at either end. -/
theorem infix_of_padded {w front back : List α} (hw : w ≠ []) (hhead : ∀ x ∈ w.head?, p x = false)
    (hlast : ∀ x ∈ w.getLast?, p x = false) (hfront : ∀ x ∈ front, p x = true) (hback : ∀ x ∈ back, p x = true)
    (h : w <:+: front ++ xs ++ back) : w <:+: xs := by
  -- the first item of the word is in no list of items with `p`, and neither is the last
  have hfirst : ∀ {u ys : List α}, u ≠ [] → u <+: w → u <:+: ys → ¬∀ x ∈ ys, p x = true := by
    intro u ys hu hprefix hin hall
    obtain ⟨x, hx⟩ := Option.ne_none_iff_exists'.mp (mt List.head?_eq_none_iff.mp hu)
    obtain ⟨rest, rfl⟩ := hprefix
    have hpx := hhead x (by rw [List.head?_append, hx]; rfl)
    exact absurd (hall x (hin.subset (List.mem_of_head? hx))) (by simp [hpx])
  have hend : ∀ {u ys : List α}, u ≠ [] → u <:+ w → u <:+: ys → ¬∀ x ∈ ys, p x = true := by
    intro u ys hu hsuffix hin hall
    obtain ⟨x, hx⟩ := Option.ne_none_iff_exists'.mp (mt List.getLast?_eq_none_iff.mp hu)
    obtain ⟨rest, rfl⟩ := hsuffix
    have hpx := hlast x (by rw [List.getLast?_append, hx]; rfl)
    exact absurd (hall x (hin.subset (List.mem_of_getLast? hx))) (by simp [hpx])
  rw [List.append_assoc] at h
  rcases List.infix_append_iff_ne_nil.mp h with h | h | ⟨u, v, hu, -, rfl, hsuffix, -⟩
  · exact absurd hfront (hfirst hw List.prefix_rfl h)
  · rcases List.infix_append_iff_ne_nil.mp h with h | h | ⟨u, v, -, hv, rfl, -, hprefix⟩
    · exact h
    · exact absurd hback (hend hw List.suffix_rfl h)
    · exact absurd hback (hend hv (List.suffix_append u v) hprefix.isInfix)
  · exact absurd hfront (hfirst hu (List.prefix_append u v) hsuffix.isInfix)

end Ends

/-! ## §2. Here and there. -/

/-- What begins two lists put together ends in the first, or goes on in the second. -/
theorem prefix_append_cases {w xs ys : List α} (h : w <+: xs ++ ys) :
    w <+: xs ∨ ∃ rest, w = xs ++ rest ∧ rest <+: ys := by
  obtain ⟨t, ht⟩ := h
  rcases List.append_eq_append_iff.mp ht with ⟨a, hxs, -⟩ | ⟨a, hw, hys⟩
  · exact .inl ⟨a, hxs.symm⟩
  · exact .inr ⟨a, hw, t, hys.symm⟩

section Kept

variable (keep : List α → α → Bool) (write : α → List β)

/-- The items that are kept, as they are written; `before` is what has been passed. -/
def keptFrom (before : List α) : List α → List β
  | [] => []
  | x :: xs => (if keep before x then write x else []) ++ keptFrom (before ++ [x]) xs

theorem keptFrom_append (before xs ys : List α) :
    keptFrom keep write before (xs ++ ys)
      = keptFrom keep write before xs ++ keptFrom keep write (before ++ xs) ys := by
  induction xs generalizing before with
  | nil => rw [List.nil_append, List.append_nil, keptFrom, List.nil_append]
  | cons x xs ih =>
      rw [List.cons_append, keptFrom, keptFrom, ih, List.append_assoc, List.append_assoc, List.singleton_append]

theorem flatMap_keptFrom {γ : Type} (g : β → List γ) (before xs : List α) :
    (keptFrom keep write before xs).flatMap g = keptFrom keep (fun x => (write x).flatMap g) before xs := by
  induction xs generalizing before with
  | nil => rfl
  | cons x xs ih =>
      rw [keptFrom, keptFrom, List.flatMap_append, ih]
      split <;> rfl

/-- Two parts of a word on the two sides of an item that is passed over. -/
def LiesAcross (before : List α) (w : List β) (xs : List α) : Prop :=
  ∃ front x back u v, xs = front ++ x :: back ∧ keep (before ++ front) x = false ∧ w = u ++ v ∧ u ≠ [] ∧ v ≠ []
    ∧ u <:+ keptFrom keep write before front ∧ v <+: keptFrom keep write (before ++ front ++ [x]) back

variable {keep write} {before : List α} {w : List β} {xs : List α}

/-- A word at the front of what is kept. -/
theorem prefix_of_kept (h : w <+: keptFrom keep write before xs) : w <+: xs.flatMap write
    ∨ ∃ front x back v, xs = front ++ x :: back ∧ keep (before ++ front) x = false ∧ v ≠ []
      ∧ w = keptFrom keep write before front ++ v ∧ v <+: keptFrom keep write (before ++ front ++ [x]) back := by
  induction xs generalizing before w with
  | nil => exact .inl h
  | cons x xs ih =>
      unfold keptFrom at h
      by_cases hkeep : keep before x = true
      · rw [if_pos hkeep] at h
        rcases prefix_append_cases h with h | ⟨rest, rfl, hrest⟩
        · exact .inl (h.trans (List.prefix_append _ _))
        · rcases ih hrest with hplain | ⟨front, y, back, v, rfl, hy, hv, rfl, hback⟩
          · exact .inl ((List.prefix_append_right_inj _).mpr hplain)
          · refine .inr ⟨x :: front, y, back, v, rfl, ?_, hv, ?_, ?_⟩
            · rwa [List.append_assoc] at hy
            · rw [keptFrom, if_pos hkeep, List.append_assoc]
            · rwa [List.append_assoc before [x] front] at hback
      · rw [if_neg hkeep, List.nil_append] at h
        by_cases hw : w = []
        · exact .inl (hw ▸ List.nil_prefix)
        · exact .inr ⟨[], x, xs, w, rfl, by rw [List.append_nil]; exact Bool.eq_false_iff.mpr hkeep, hw, rfl,
            by rwa [List.append_nil]⟩

/-- **A word in what is kept** was there before, or lies across an item that is passed over. -/
theorem infix_of_kept (h : w <:+: keptFrom keep write before xs) :
    w <:+: xs.flatMap write ∨ LiesAcross keep write before w xs := by
  induction xs generalizing before with
  | nil => exact .inl h
  | cons x xs ih =>
      unfold keptFrom at h
      -- in the first item, behind it, or beginning in it
      rcases List.infix_append_iff_ne_nil.mp h with h | h | ⟨u, v, hu, hv, rfl, hsuffix, hprefix⟩
      · split at h
        · exact .inl (h.trans (List.prefix_append _ _).isInfix)
        · exact .inl (List.eq_nil_of_infix_nil h ▸ List.nil_infix)
      · rcases ih h with h | ⟨front, y, back, u, v, rfl, hy, rfl, hu, hv, hfront, hback⟩
        · exact .inl (h.trans (List.suffix_append _ _).isInfix)
        · refine .inr ⟨x :: front, y, back, u, v, rfl, ?_, rfl, hu, hv, ?_, ?_⟩
          · rwa [List.append_assoc] at hy
          · exact hfront.trans (List.suffix_append _ _)
          · rwa [List.append_assoc before [x] front] at hback
      · by_cases hkeep : keep before x = true
        · rw [if_pos hkeep] at hsuffix
          rcases prefix_of_kept hprefix with hplain | ⟨front, y, back, v', rfl, hy, hv', rfl, hback⟩
          · exact .inl (List.infix_append_iff.mpr (.inr (.inr ⟨u, v, rfl, hsuffix, hplain⟩)))
          · refine .inr ⟨x :: front, y, back, u ++ keptFrom keep write (before ++ [x]) front, v', rfl, ?_,
              by rw [List.append_assoc], List.append_ne_nil_of_left_ne_nil hu _, hv', ?_, ?_⟩
            · rwa [List.append_assoc] at hy
            · rw [keptFrom, if_pos hkeep]
              exact List.suffix_append_self_iff.mpr hsuffix
            · rwa [List.append_assoc before [x] front] at hback
        · rw [if_neg hkeep] at hsuffix
          exact absurd (List.suffix_nil.mp hsuffix) hu

/-- A word that lies across such an item is in what is kept. -/
theorem LiesAcross.isWord (h : LiesAcross keep write before w xs) : w <:+: keptFrom keep write before xs := by
  obtain ⟨front, x, back, u, v, rfl, hx, rfl, -, -, hfront, hback⟩ := h
  rw [keptFrom_append, keptFrom, hx]
  exact List.infix_append_iff.mpr (.inr (.inr ⟨u, v, rfl, hfront, hback⟩))

end Kept

end Foundation
