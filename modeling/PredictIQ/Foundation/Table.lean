/-
  PredictIQ.Foundation.Table: statements over the rows of a keyed table.

  A table is a `Store` of rows under a unique column.  A statement with a
  WHERE clause on other columns changes, lists or removes the rows that meet
  it; without an ORDER BY it meets them in an order that is left open, so that
  a LIMIT may keep any of them.
-/
import PredictIQ.Foundation.Store

namespace Foundation

/-- The order in which a statement walks the rows it selects: any. -/
structure RowOrder (κ : Type) where
  walk : List κ → List κ
  perm : ∀ ks, (walk ks).Perm ks

/-- Rows as they lie. -/
def RowOrder.asStored (κ : Type) : RowOrder κ := ⟨id, fun _ => .rfl⟩

namespace Store

variable {κ ν : Type}

/-! ## §1. Rows that meet a condition. -/

/-- `UPDATE … SET … WHERE p`. -/
def updateWhere (p : ν → Bool) (set : ν → ν) (s : Store κ ν) : Store κ ν where
  entries := s.entries.map fun e => ⟨e.1, if p e.2 then set e.2 else e.2⟩
  nodupKeys := by
    unfold List.NodupKeys List.keys
    rw [List.map_map]
    exact s.nodupKeys

/-- How many rows meet `p`: what an update of them reports. -/
def countWhere (p : ν → Bool) (s : Store κ ν) : Nat := s.entries.countP fun e => p e.2

/-- `SELECT key … WHERE p LIMIT limit`. -/
def selectWhere (order : RowOrder κ) (p : ν → Bool) (limit : Nat) (s : Store κ ν) : List κ :=
  (order.walk ((s.entries.filter fun e => p e.2).map (·.1))).take limit

/-- `DELETE … WHERE p`. -/
def deleteWhere (p : ν → Bool) (s : Store κ ν) : Store κ ν where
  entries := s.entries.filter fun e => !p e.2
  nodupKeys := (List.filter_sublist.map Sigma.fst).nodup s.nodupKeys

variable [DecidableEq κ]

private theorem dlookup_updateWhere (p : ν → Bool) (set : ν → ν) (l : List ((_ : κ) × ν)) (k : κ) :
    (l.map fun e => (⟨e.1, if p e.2 then set e.2 else e.2⟩ : (_ : κ) × ν)).dlookup k
      = (l.dlookup k).map fun v => if p v then set v else v := by
  induction l with
  | nil => rfl
  | cons e l ih =>
      obtain ⟨k', v⟩ := e
      by_cases h : k = k'
      · subst h
        simp [List.dlookup_cons_eq]
      · rw [List.map_cons, List.dlookup_cons_ne _ _ h, List.dlookup_cons_ne _ _ h]
        exact ih

theorem lookup_updateWhere (p : ν → Bool) (set : ν → ν) (s : Store κ ν) (k : κ) :
    (s.updateWhere p set).lookup k = (s.lookup k).map fun v => if p v then set v else v :=
  dlookup_updateWhere p set s.entries k

/-- What a statement selects are rows that meet its condition. -/
theorem exists_of_mem_selectWhere {order : RowOrder κ} {p : ν → Bool} {limit : Nat} {s : Store κ ν}
    {k : κ} (h : k ∈ s.selectWhere order p limit) : ∃ v, s.lookup k = some v ∧ p v = true := by
  have hwalk := (order.perm _).mem_iff.mp (List.mem_of_mem_take h)
  obtain ⟨e, he, rfl⟩ := List.mem_map.mp hwalk
  obtain ⟨he, hp⟩ := List.mem_filter.mp he
  exact ⟨e.2, mem_entries.mp he, hp⟩

/-- A statement that may select a row selects one if a row meets its condition. -/
theorem selectWhere_ne_nil {order : RowOrder κ} {p : ν → Bool} {limit : Nat} {s : Store κ ν} {k : κ} {v : ν}
    (hv : s.lookup k = some v) (hp : p v = true) (hlimit : 0 < limit) : s.selectWhere order p limit ≠ [] := by
  have hmem : k ∈ order.walk ((s.entries.filter fun e => p e.2).map (·.1)) :=
    (order.perm _).mem_iff.mpr (List.mem_map.mpr ⟨⟨k, v⟩, List.mem_filter.mpr ⟨mem_entries.mpr hv, hp⟩, rfl⟩)
  unfold selectWhere
  rw [ne_eq, List.take_eq_nil_iff, not_or]
  exact ⟨hlimit.ne', List.ne_nil_of_mem hmem⟩

/-- An update reports a row when one meets its condition. -/
theorem countWhere_pos_iff {p : ν → Bool} {s : Store κ ν} :
    0 < s.countWhere p ↔ ∃ k v, s.lookup k = some v ∧ p v = true := by
  unfold countWhere
  rw [List.countP_pos_iff]
  constructor
  · rintro ⟨⟨k, v⟩, hmem, hp⟩
    exact ⟨k, v, mem_entries.mp hmem, hp⟩
  · rintro ⟨k, v, hv, hp⟩
    exact ⟨⟨k, v⟩, mem_entries.mpr hv, hp⟩

/-! ## §2. Removing rows. -/

/-- What a removal of the rows that meet a condition leaves under every key. -/
theorem lookup_deleteWhere (p : ν → Bool) (s : Store κ ν) (k : κ) :
    (s.deleteWhere p).lookup k = (s.lookup k).filter fun v => !p v := by
  ext v
  rw [← mem_entries, Option.filter_eq_some_iff, ← mem_entries]
  exact List.mem_filter

end Store

end Foundation
