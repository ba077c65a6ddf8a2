/-
  PredictIQ.Foundation.Slices: reading a list by offset and length.

  `slice offset n xs` is what a page at `offset` of `n` items holds.  Pages at
  the multiples of `n` put one after the other are a prefix of the list
  (`flatten_slices`), so a reader loses nothing exactly when the list is no
  longer than that prefix.  `readAll` puts together the pages of a query that
  may fail.
-/
import Mathlib.Data.List.TakeDrop

namespace Foundation

variable {α : Type}

/-- `n` items from `offset` on. -/
def slice (offset n : Nat) (xs : List α) : List α := (xs.drop offset).take n

theorem slice_of_length_le {offset n : Nat} {xs : List α} (h : xs.length ≤ offset) :
    slice offset n xs = [] := by
  unfold slice
  rw [List.drop_eq_nil_of_le h, List.take_nil]

theorem slice_map {β : Type} (f : α → β) (offset n : Nat) (xs : List α) :
    slice offset n (xs.map f) = (slice offset n xs).map f := by
  unfold slice
  rw [← List.map_drop, ← List.map_take]

/-- Reading the positions of a range gives a slice. -/
theorem filterMap_getElem?_range' (offset n : Nat) (xs : List α) :
    ((List.range' offset n).filterMap fun i => xs[i]?) = slice offset n xs := by
  induction n generalizing offset with
  | zero =>
      unfold slice
      rw [List.take_zero]
      rfl
  | succ n ih =>
      rw [List.range'_succ]
      by_cases hlt : offset < xs.length
      · rw [List.filterMap_cons_some (List.getElem?_eq_getElem hlt), ih]
        unfold slice
        rw [List.drop_eq_getElem_cons hlt, List.take_succ_cons]
      · have hnone : xs[offset]? = none := List.getElem?_eq_none (by omega)
        rw [List.filterMap_cons_none hnone, ih, slice_of_length_le (by omega),
          slice_of_length_le (by omega)]

/-- Clamping both ends of a page to the list changes nothing. -/
theorem slice_clamp (offset n : Nat) (xs : List α) :
    slice (min offset xs.length) (min (min offset xs.length + n) xs.length - min offset xs.length) xs
      = slice offset n xs := by
  rcases Nat.le_total xs.length offset with hpast | hin
  · rw [slice_of_length_le hpast, Nat.min_eq_right hpast, slice_of_length_le (Nat.le_refl _)]
  · rw [Nat.min_eq_left hin]
    unfold slice
    have hlen : (xs.drop offset).length = xs.length - offset := List.length_drop
    rcases Nat.le_total n (xs.length - offset) with hfull | hshort
    · rw [Nat.min_eq_left (by omega), Nat.add_sub_cancel_left]
    · rw [Nat.min_eq_right (by omega), List.take_of_length_le (by omega),
        List.take_of_length_le (by omega)]

/-- Consecutive pages make a prefix. -/
theorem flatten_slices (n k : Nat) (xs : List α) :
    ((List.range k).map fun i => slice (i * n) n xs).flatten = xs.take (k * n) := by
  induction k with
  | zero => rw [Nat.zero_mul, List.take_zero, List.range_zero, List.map_nil, List.flatten_nil]
  | succ k ih =>
      rw [List.range_succ, List.map_append, List.flatten_append, ih, Nat.succ_mul, List.take_add,
        List.map_singleton, List.flatten_singleton]
      rfl

/-- The pages of a query at the given offsets, one after the other; `none` when
one of them fails. -/
def readAll (page : Nat → Option (List α)) (offsets : List Nat) : Option (List α) :=
  (offsets.mapM page).map List.flatten

theorem mapM_some_map (f : Nat → List α) (offsets : List Nat) :
    offsets.mapM (fun o => some (f o)) = some (offsets.map f) := by
  induction offsets with
  | nil => rfl
  | cons o offsets ih =>
      rw [List.mapM_cons, ih]
      rfl

/-- A query that never fails. -/
theorem readAll_some (f : Nat → List α) (offsets : List Nat) :
    readAll (fun o => some (f o)) offsets = some (offsets.map f).flatten := by
  unfold readAll
  rw [mapM_some_map]
  rfl

/-- One failing page spoils the reading. -/
theorem readAll_eq_none {page : Nat → Option (List α)} {offsets : List Nat} {o : Nat}
    (ho : o ∈ offsets) (h : page o = none) : readAll page offsets = none := by
  have hm : offsets.mapM page = none := by
    induction offsets with
    | nil => cases ho
    | cons o' offsets ih =>
        rw [List.mapM_cons]
        rcases List.mem_cons.mp ho with rfl | ho
        · rw [h]
          rfl
        · cases page o' with
          | none => rfl
          | some xs =>
              rw [ih ho]
              rfl
  unfold readAll
  rw [hm]
  rfl

theorem readAll_congr {page page' : Nat → Option (List α)} {offsets : List Nat}
    (h : ∀ o ∈ offsets, page o = page' o) : readAll page offsets = readAll page' offsets := by
  unfold readAll
  congr 1
  induction offsets with
  | nil => rfl
  | cons o offsets ih =>
      rw [List.mapM_cons, List.mapM_cons, h o List.mem_cons_self,
        ih fun o' ho' => h o' (List.mem_cons_of_mem _ ho')]

end Foundation
