/-
  PredictIQ.Foundation.OrderedMap: maps that keep the order of insertion.

  A key that is set again keeps its place; one that is deleted and set again
  goes to the end.  That no key is there twice is a field of the map.
-/
import Mathlib.Algebra.BigOperators.Group.List.Basic
import Mathlib.Algebra.Order.Group.Int
import Mathlib.Algebra.Order.BigOperators.Group.List
import Mathlib.Data.List.Nodup
import Mathlib.Tactic.Ring

namespace Foundation

structure OrderedMap (κ ν : Type) where
  entries : List (κ × ν)
  nodup : (entries.map Prod.fst).Nodup

namespace OrderedMap

variable {κ ν : Type} [DecidableEq κ]

/-! ## §1. Operations. -/

omit [DecidableEq κ] in
theorem nodup_nil : (([] : List (κ × ν)).map Prod.fst).Nodup := List.nodup_nil

def empty : OrderedMap κ ν := ⟨[], nodup_nil⟩

def size (m : OrderedMap κ ν) : Nat := m.entries.length

def keys (m : OrderedMap κ ν) : List κ := m.entries.map Prod.fst

def lookup (m : OrderedMap κ ν) (k : κ) : Option ν := m.entries.lookup k

/-- Another value at the place of a key. -/
def put (k : κ) (v : ν) (l : List (κ × ν)) : List (κ × ν) := l.map fun e => if e.1 = k then (k, v) else e

theorem map_fst_put (k : κ) (v : ν) (l : List (κ × ν)) : (put k v l).map Prod.fst = l.map Prod.fst := by
  unfold put
  rw [List.map_map]
  refine List.map_congr_left fun e _ => ?_
  by_cases he : e.1 = k <;> simp [he]

omit [DecidableEq κ] in
theorem nodup_append {m : OrderedMap κ ν} {k : κ} (h : k ∉ m.keys) (v : ν) :
    ((m.entries ++ [(k, v)]).map Prod.fst).Nodup := by
  rw [List.map_append]
  refine m.nodup.append (List.nodup_singleton k) fun x hx hk => ?_
  obtain rfl : x = k := List.mem_singleton.mp hk
  exact h hx

def set (m : OrderedMap κ ν) (k : κ) (v : ν) : OrderedMap κ ν :=
  if h : k ∈ m.keys then ⟨put k v m.entries, by rw [map_fst_put]; exact m.nodup⟩
  else ⟨m.entries ++ [(k, v)], nodup_append h v⟩

def delete (m : OrderedMap κ ν) (k : κ) : OrderedMap κ ν :=
  ⟨m.entries.filter fun e => e.1 ≠ k, m.nodup.sublist (List.filter_sublist.map _)⟩

def total (f : ν → Int) (m : OrderedMap κ ν) : Int := (m.entries.map fun e => f e.2).sum

/-! ## §2. What is found. -/

variable {m : OrderedMap κ ν} {k k' : κ} {v : ν}

theorem lookup_eq_some_iff : m.lookup k = some v ↔ (k, v) ∈ m.entries := by
  obtain ⟨l, hl⟩ := m
  show l.lookup k = some v ↔ (k, v) ∈ l
  induction l with
  | nil => simp
  | cons e l ih =>
      obtain ⟨k', v'⟩ := e
      obtain ⟨hnew, hrest⟩ := List.nodup_cons.mp hl
      by_cases hk : k = k'
      · subst hk
        have hout : (k, v) ∉ l := fun hmem => hnew (List.mem_map.mpr ⟨(k, v), hmem, rfl⟩)
        simp [hout, eq_comm]
      · have hbeq : (k == k') = false := by simpa using hk
        simp [List.lookup_cons, hbeq, hk, ih hrest]

theorem lookup_eq_none_iff : m.lookup k = none ↔ k ∉ m.keys := by
  rw [← not_iff_not, ← ne_eq, Option.ne_none_iff_exists', not_not]
  simp [lookup_eq_some_iff, keys]

theorem mem_put {l : List (κ × ν)} {e : κ × ν} : e ∈ put k v l ↔ (e ∈ l ∧ e.1 ≠ k) ∨ (e = (k, v) ∧ k ∈ l.map Prod.fst) := by
  unfold put
  simp only [List.mem_map]
  constructor
  · rintro ⟨x, hx, rfl⟩
    by_cases hxk : x.1 = k
    · exact .inr ⟨if_pos hxk, x, hx, hxk⟩
    · exact .inl (by simp [hxk, hx])
  · rintro (⟨he, hk⟩ | ⟨rfl, x, hx, hxk⟩)
    · exact ⟨e, he, if_neg hk⟩
    · exact ⟨x, hx, if_pos hxk⟩

theorem lookup_set (m : OrderedMap κ ν) (k k' : κ) (v : ν) :
    (m.set k v).lookup k' = if k' = k then some v else m.lookup k' := by
  refine Option.ext fun w => ?_
  have hset : (k', w) ∈ (m.set k v).entries ↔ if k' = k then w = v else (k', w) ∈ m.entries := by
    unfold set
    split
    · rename_i hmem
      rw [mem_put]
      split
      · rename_i hk
        subst hk
        constructor
        · intro h
          rcases h with ⟨-, hne⟩ | ⟨heq, -⟩
          · exact absurd rfl hne
          · exact congrArg Prod.snd heq
        · intro hw
          exact .inr ⟨by rw [hw], hmem⟩
      · rename_i hk
        simp [hk]
    · rename_i hmem
      rw [List.mem_append, List.mem_singleton]
      split
      · rename_i hk
        subst hk
        have hout : (k', w) ∉ m.entries := fun h => hmem (List.mem_map_of_mem h)
        simp [hout]
      · rename_i hk
        simp [hk]
  rw [lookup_eq_some_iff, hset]
  split
  · simp [eq_comm]
  · exact lookup_eq_some_iff.symm

theorem lookup_delete (m : OrderedMap κ ν) (k k' : κ) :
    (m.delete k).lookup k' = if k' = k then none else m.lookup k' := by
  refine Option.ext fun w => ?_
  rw [lookup_eq_some_iff]
  unfold delete
  simp only [List.mem_filter, decide_eq_true_eq]
  split
  · rename_i hk
    simp [hk]
  · rename_i hk
    simp [hk, lookup_eq_some_iff]

/-! ## §3. Sizes and totals. -/

theorem entries_set_of_not_mem (h : k ∉ m.keys) (v : ν) : (m.set k v).entries = m.entries ++ [(k, v)] := by
  unfold set
  rw [dif_neg h]

theorem entries_set_of_mem (h : k ∈ m.keys) (v : ν) : (m.set k v).entries = put k v m.entries := by
  unfold set
  rw [dif_pos h]

theorem size_set_of_mem (h : k ∈ m.keys) (v : ν) : (m.set k v).size = m.size := by
  unfold size
  rw [entries_set_of_mem h]
  exact List.length_map _

omit [DecidableEq κ] in
theorem total_eq_of_entries {f : ν → Int} {m' : OrderedMap κ ν} {l : List (κ × ν)} (h : m'.entries = m.entries ++ l) :
    m'.total f = m.total f + (l.map fun e => f e.2).sum := by
  unfold total
  rw [h, List.map_append, List.sum_append]

/-- A value that counts the same in the place of another. -/
theorem total_set_of_eq {f : ν → Int} {w : ν} (hw : m.lookup k = some w) (h : f v = f w) :
    (m.set k v).total f = m.total f := by
  have hmem : k ∈ m.keys := List.mem_map.mpr ⟨(k, w), lookup_eq_some_iff.mp hw, rfl⟩
  unfold total
  rw [entries_set_of_mem hmem]
  unfold put
  rw [List.map_map]
  refine congrArg List.sum (List.map_congr_left fun e he => ?_)
  by_cases hk : e.1 = k
  · subst hk
    have hvalue : some e.2 = some w := (lookup_eq_some_iff.mpr he).symm.trans hw
    simp [h, Option.some.inj hvalue]
  · simp [hk]

/-- Deleting a key takes one entry out. -/
theorem delete_of_lookup (hv : m.lookup k = some v) (f : ν → Int) :
    (m.delete k).size + 1 = m.size ∧ (m.delete k).total f + f v = m.total f := by
  obtain ⟨l, hl⟩ := m
  have hmem : (k, v) ∈ l := lookup_eq_some_iff.mp hv
  obtain ⟨before, after, rfl⟩ := List.append_of_mem hmem
  have hsplit : ((k, v) :: (before ++ after)).map Prod.fst = k :: (before ++ after).map Prod.fst := rfl
  have hnodup : (k :: (before ++ after).map Prod.fst).Nodup := by
    rw [← hsplit]
    exact (List.perm_middle.map _).nodup_iff.mp hl
  have hout : ∀ e ∈ before ++ after, e.1 ≠ k := fun e he hk =>
    (List.nodup_cons.mp hnodup).1 (List.mem_map.mpr ⟨e, he, hk⟩)
  have hfilter : (before ++ (k, v) :: after).filter (fun e => e.1 ≠ k) = before ++ after := by
    rw [List.filter_append, List.filter_cons_of_neg (by simp), ← List.filter_append]
    exact List.filter_eq_self.mpr fun e he => by simpa using hout e he
  unfold delete size total
  simp only [hfilter]
  refine ⟨by simp only [List.length_append, List.length_cons]; omega, ?_⟩
  simp only [List.map_append, List.map_cons, List.sum_append, List.sum_cons]
  omega

/-- The first entry goes, and the others stay as they are. -/
theorem entries_delete_head {l : List (κ × ν)} (h : m.entries = (k, v) :: l) : (m.delete k).entries = l := by
  have hnodup := m.nodup
  rw [h] at hnodup
  have hout : ∀ e ∈ l, e.1 ≠ k := fun e he hk => (List.nodup_cons.mp hnodup).1 (List.mem_map.mpr ⟨e, he, hk⟩)
  unfold delete
  simp only [h]
  rw [List.filter_cons_of_neg (by simp)]
  exact List.filter_eq_self.mpr fun e he => by simpa using hout e he

end OrderedMap

end Foundation
