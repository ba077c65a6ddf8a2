/-
  PredictIQ.Foundation.Store: finite keyed storage and totals over it.

  A `Store κ ν` is a finite map with distinct keys (Mathlib's `AList`, with a
  value type that does not depend on the key).  `total f s` adds `f k v` over
  the entries; `total_insert` and `total_erase` say how one write moves a
  total, which is all that a conservation argument about a ledger needs.
-/
import Mathlib.Data.List.AList
import Mathlib.Algebra.BigOperators.Group.List.Basic
import Mathlib.Algebra.Order.BigOperators.Group.List
import Mathlib.Algebra.Order.Group.Int
import Mathlib.Tactic.Ring

namespace Foundation

/-- Finite keyed storage. -/
abbrev Store (κ ν : Type) : Type := AList fun _ : κ => ν

namespace Store

variable {κ ν : Type}

/-- The sum of `f k v` over the entries of a store. -/
def total (f : κ → ν → Int) (s : Store κ ν) : Int :=
  (s.entries.map fun e => f e.1 e.2).sum

/-- Totals of a sum of weights. -/
theorem total_add (f g : κ → ν → Int) (s : Store κ ν) :
    total (fun k v => f k v + g k v) s = total f s + total g s :=
  List.sum_map_add

/-! ## §1. Entries and lookups. -/

variable [DecidableEq κ]

theorem mem_entries {s : Store κ ν} {k : κ} {v : ν} :
    (⟨k, v⟩ : (_ : κ) × ν) ∈ s.entries ↔ s.lookup k = some v :=
  AList.mem_lookup_iff.symm

/-- What a write leaves under every key. -/
theorem lookup_insert_eq (s : Store κ ν) (k k' : κ) (v : ν) :
    (s.insert k v).lookup k' = if k' = k then some v else s.lookup k' := by
  by_cases h : k' = k
  · subst h
    simp
  · simp [h, AList.lookup_insert_ne h]

/-- What a removal leaves under every key. -/
theorem lookup_erase_eq (s : Store κ ν) (k k' : κ) :
    (s.erase k).lookup k' = if k' = k then none else s.lookup k' := by
  by_cases h : k' = k
  · subst h
    simp
  · simp [h, AList.lookup_erase_ne h]

/-- The keys in use after a write. -/
theorem mem_insert_iff (s : Store κ ν) (k k' : κ) (v : ν) :
    (s.insert k v).lookup k' ≠ none ↔ k' = k ∨ s.lookup k' ≠ none := by
  rw [lookup_insert_eq]
  split <;> simp_all

/-- The keys in use after a removal. -/
theorem mem_erase_iff (s : Store κ ν) (k k' : κ) :
    (s.erase k).lookup k' ≠ none ↔ k' ≠ k ∧ s.lookup k' ≠ none := by
  rw [lookup_erase_eq]
  split <;> simp_all

/-- Remove a list of keys. -/
def eraseAll (s : Store κ ν) (ks : List κ) : Store κ ν := ks.foldl (fun t k => t.erase k) s

/-- There is nothing to remove from an empty store. -/
@[simp] theorem eraseAll_empty (ks : List κ) : eraseAll (∅ : Store κ ν) ks = ∅ := by
  induction ks with
  | nil => rfl
  | cons k ks ih => exact ih

/-- Keys that are not on the list stay. -/
theorem lookup_eraseAll_of_not_mem {s : Store κ ν} {k : κ} {ks : List κ} (h : k ∉ ks) :
    (eraseAll s ks).lookup k = s.lookup k := by
  induction ks generalizing s with
  | nil => rfl
  | cons k' ks ih =>
      rw [List.mem_cons, not_or] at h
      show (eraseAll (s.erase k') ks).lookup k = _
      rw [ih h.2, lookup_erase_eq, if_neg h.1]

/-- Keys that are on the list go. -/
theorem lookup_eraseAll_of_mem {s : Store κ ν} {k : κ} {ks : List κ} (h : k ∈ ks) :
    (eraseAll s ks).lookup k = none := by
  induction ks generalizing s with
  | nil => cases h
  | cons k' ks ih =>
      show (eraseAll (s.erase k') ks).lookup k = _
      by_cases hks : k ∈ ks
      · exact ih hks
      · have hk : k = k' := (List.mem_cons.mp h).resolve_right hks
        rw [lookup_eraseAll_of_not_mem hks, lookup_erase_eq, if_pos hk]

/-- What a removal of keys leaves under every key. -/
theorem lookup_eraseAll (s : Store κ ν) (ks : List κ) (k : κ) :
    (eraseAll s ks).lookup k = if k ∈ ks then none else s.lookup k := by
  split
  · exact lookup_eraseAll_of_mem ‹_›
  · exact lookup_eraseAll_of_not_mem ‹_›

/-- What is left was there before. -/
theorem lookup_of_lookup_eraseAll {s : Store κ ν} {k : κ} {v : ν} {ks : List κ}
    (h : (eraseAll s ks).lookup k = some v) : s.lookup k = some v := by
  induction ks generalizing s with
  | nil => exact h
  | cons k' ks ih =>
      have h : (s.erase k').lookup k = some v := ih h
      rw [lookup_erase_eq] at h
      split at h
      · cases h
      · exact h

/-! ## §2. How one write moves a total. -/

private theorem sum_kerase (f : κ → ν → Int) (k : κ) (l : List ((_ : κ) × ν)) :
    ((l.kerase k).map fun e => f e.1 e.2).sum
      = (l.map fun e => f e.1 e.2).sum - (l.dlookup k).elim 0 (f k) := by
  induction l with
  | nil => simp
  | cons e l ih =>
      obtain ⟨k', v⟩ := e
      by_cases h : k = k'
      · subst h
        rw [show ((⟨k, v⟩ : (_ : κ) × ν) :: l).kerase k = l from List.kerase_cons_eq rfl, List.dlookup_cons_eq]
        simp
      · rw [show ((⟨k', v⟩ : (_ : κ) × ν) :: l).kerase k = ⟨k', v⟩ :: l.kerase k from
          List.kerase_cons_ne h, List.dlookup_cons_ne _ _ h]
        -- the head stays and the key goes from the tail
        simp only [List.map_cons, List.sum_cons, ih]
        ring

/-- Removing a key takes its contribution out of a total. -/
theorem total_erase (f : κ → ν → Int) (s : Store κ ν) (k : κ) :
    total f (s.erase k) = total f s - (s.lookup k).elim 0 (f k) :=
  sum_kerase f k s.entries

/-- Removing keys that contribute nothing. -/
theorem total_eraseAll {f : κ → ν → Int} {s : Store κ ν} {ks : List κ}
    (h : ∀ k ∈ ks, ∀ v, f k v = 0) : total f (eraseAll s ks) = total f s := by
  induction ks generalizing s with
  | nil => rfl
  | cons k ks ih =>
      have hrest : ∀ k' ∈ ks, ∀ v, f k' v = 0 := fun k' hk' => h k' (List.mem_cons_of_mem _ hk')
      have hzero : (s.lookup k).elim 0 (f k) = 0 := by
        cases s.lookup k with
        | none => rfl
        | some v => exact h k List.mem_cons_self v
      show total f (eraseAll (s.erase k) ks) = _
      rw [ih hrest, total_erase, hzero, sub_zero]

/-- Writing a key replaces its contribution to a total. -/
theorem total_insert (f : κ → ν → Int) (s : Store κ ν) (k : κ) (v : ν) :
    total f (s.insert k v) = total f s - (s.lookup k).elim 0 (f k) + f k v := by
  have h := sum_kerase f k s.entries
  unfold total
  rw [AList.entries_insert, List.map_cons, List.sum_cons, h]
  -- inserting puts the new entry in front of the store without the key
  show f k v + (_ - (s.lookup k).elim 0 (f k)) = _
  ring

/-- The same, for an entry that counts as `d` while it is absent. -/
theorem total_insert_getD (f : κ → ν → Int) (s : Store κ ν) (k : κ) (v d : ν) (hd : f k d = 0) :
    total f (s.insert k v) = total f s - f k ((s.lookup k).getD d) + f k v := by
  rw [total_insert]
  cases s.lookup k with
  | none =>
      show _ - 0 + _ = _ - f k d + _
      rw [hd]
  | some old => rfl

/-! ## §3. Comparing totals. -/

/-- Two weights that agree on the entries of a store have the same total. -/
theorem total_congr {f g : κ → ν → Int} {s : Store κ ν}
    (h : ∀ k v, s.lookup k = some v → f k v = g k v) : total f s = total g s := by
  unfold total
  congr 1
  refine List.map_congr_left fun e he => ?_
  exact h e.1 e.2 (mem_entries.mp he)

/-- A total is read off the lookups. -/
theorem total_eq_of_lookup (f : κ → ν → Int) {s t : Store κ ν}
    (h : ∀ k, s.lookup k = t.lookup k) : total f s = total f t := by
  have hperm : s.entries.Perm t.entries := by
    rw [List.perm_ext_iff_of_nodup s.nodupKeys.nodup t.nodupKeys.nodup]
    intro e
    obtain ⟨k, v⟩ := e
    rw [mem_entries, mem_entries, h k]
  unfold total
  exact (hperm.map fun e => f e.1 e.2).sum_eq

/-- A weight that vanishes on every entry has total zero. -/
theorem total_eq_zero {f : κ → ν → Int} {s : Store κ ν}
    (h : ∀ k v, s.lookup k = some v → f k v = 0) : total f s = 0 := by
  rw [total_congr (g := fun _ _ => 0) h]
  unfold total
  simp

/-- A weight on one key counts its entry. -/
theorem total_at (f : ν → Int) (s : Store κ ν) (k : κ) :
    total (fun k' v => if k' = k then f v else 0) s = (s.lookup k).elim 0 f := by
  have herase := total_erase (fun k' v => if k' = k then f v else 0) s k
  have hzero : total (fun k' v => if k' = k then f v else 0) (s.erase k) = 0 := by
    refine total_eq_zero fun k' v hv => if_neg ?_
    rintro rfl
    rw [lookup_erase_eq, if_pos rfl] at hv
    cases hv
  rw [hzero] at herase
  simp only [if_true] at herase
  change 0 = _ - (s.lookup k).elim 0 f at herase
  omega

end Store

end Foundation
