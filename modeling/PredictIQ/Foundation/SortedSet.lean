/-
  PredictIQ.Foundation.SortedSet: sets whose members carry a score.

  A `SortedSet α` lists its members in ascending order of score and, where
  scores are equal, of member; no member is listed twice.  The operations
  are those of a sorted-set store: `zadd` (which moves a member that is
  already there), `zrem`, `zremrangebyscore`, `zpopmin`, `zcard`, `zrange` and
  `zrangebyscore`.  Those that write come with the lemma that says who is a
  member afterwards.
-/
import Mathlib.Data.List.Sort
import Mathlib.Data.Prod.Lex
import Mathlib.Algebra.Order.Ring.Int

namespace Foundation

/-- Members with scores, in ascending order. -/
structure SortedSet (α : Type) [LinearOrder α] where
  entries : List (Int ×ₗ α)
  sorted : entries.Pairwise (· ≤ ·)
  distinct : (entries.map fun e => (ofLex e).2).Nodup

namespace SortedSet

variable {α : Type} [LinearOrder α]

/-! ## §1. The operations. -/

/-- The members, lowest score first. -/
def zrange (s : SortedSet α) : List α := s.entries.map fun e => (ofLex e).2

instance : Membership α (SortedSet α) := ⟨fun s a => a ∈ s.zrange⟩

instance (a : α) (s : SortedSet α) : Decidable (a ∈ s) :=
  inferInstanceAs (Decidable (a ∈ s.zrange))

def empty : SortedSet α := ⟨[], List.Pairwise.nil, List.nodup_nil⟩

/-- Drop a member. -/
def zrem (s : SortedSet α) (a : α) : SortedSet α where
  entries := s.entries.filter fun e => (ofLex e).2 ≠ a
  sorted := s.sorted.filter _
  distinct := s.distinct.sublist (List.filter_sublist.map _)

theorem not_mem_zrem (s : SortedSet α) (a : α) : a ∉ (s.zrem a).zrange := by
  simp [zrange, zrem]

/-- Give a member a score, be it new or not. -/
def zadd (s : SortedSet α) (score : Int) (a : α) : SortedSet α where
  entries := (s.zrem a).entries.orderedInsert (· ≤ ·) (toLex (score, a))
  sorted := (s.zrem a).sorted.orderedInsert _ _
  distinct := by
    have hperm := List.perm_orderedInsert (· ≤ ·) (toLex (score, a)) (s.zrem a).entries
    rw [(hperm.map fun e => (ofLex e).2).nodup_iff]
    exact List.nodup_cons.mpr ⟨not_mem_zrem s a, (s.zrem a).distinct⟩

/-- All entries but the lowest. -/
def tail (s : SortedSet α) : SortedSet α where
  entries := s.entries.tail
  sorted := s.sorted.sublist (List.tail_sublist _)
  distinct := s.distinct.sublist ((List.tail_sublist _).map _)

/-- Drop the members of score at most `max`. -/
def zremrangebyscore (s : SortedSet α) (max : Int) : SortedSet α where
  entries := s.entries.filter fun e => max < (ofLex e).1
  sorted := s.sorted.filter _
  distinct := s.distinct.sublist (List.filter_sublist.map _)

/-- How many members there are. -/
def zcard (s : SortedSet α) : Nat := s.entries.length

/-- Take out the member of lowest score. -/
def zpopmin (s : SortedSet α) : Option ((α × Int) × SortedSet α) :=
  s.entries.head?.map fun e => (((ofLex e).2, (ofLex e).1), s.tail)

/-- The members of score at most `max`, lowest first. -/
def zrangebyscore (s : SortedSet α) (max : Int) : List α :=
  (s.entries.filter fun e => (ofLex e).1 ≤ max).map fun e => (ofLex e).2

/-! ## §2. Who is a member afterwards. -/

theorem mem_def {s : SortedSet α} {a : α} : a ∈ s ↔ a ∈ s.zrange := Iff.rfl

@[simp] theorem mem_zrem {s : SortedSet α} {a b : α} : b ∈ s.zrem a ↔ b ≠ a ∧ b ∈ s := by
  simp only [mem_def, zrange, zrem, List.mem_map, List.mem_filter, decide_eq_true_eq]
  constructor
  · rintro ⟨e, ⟨he, hne⟩, rfl⟩
    exact ⟨hne, e, he, rfl⟩
  · rintro ⟨hne, e, he, rfl⟩
    exact ⟨e, ⟨he, hne⟩, rfl⟩

@[simp] theorem mem_zadd {s : SortedSet α} {score : Int} {a b : α} :
    b ∈ s.zadd score a ↔ b = a ∨ b ∈ s := by
  have hperm := List.perm_orderedInsert (· ≤ ·) (toLex (score, a)) (s.zrem a).entries
  have hmem : b ∈ s.zadd score a ↔ b = a ∨ b ∈ s.zrem a :=
    (hperm.map fun e => (ofLex e).2).mem_iff.trans List.mem_cons
  rw [hmem, mem_zrem]
  by_cases hb : b = a <;> simp [hb]

/-- The entries of the other members stay. -/
theorem mem_entries_zrem {s : SortedSet α} {a : α} {e : Int ×ₗ α} :
    e ∈ (s.zrem a).entries ↔ e ∈ s.entries ∧ (ofLex e).2 ≠ a := by
  simp only [zrem, List.mem_filter, decide_eq_true_eq]

theorem mem_entries_zadd {s : SortedSet α} {score : Int} {a : α} {e : Int ×ₗ α} :
    e ∈ (s.zadd score a).entries ↔ e = toLex (score, a) ∨ e ∈ s.entries ∧ (ofLex e).2 ≠ a := by
  have hperm := List.perm_orderedInsert (· ≤ ·) (toLex (score, a)) (s.zrem a).entries
  rw [← mem_entries_zrem]
  exact hperm.mem_iff.trans List.mem_cons

theorem mem_entries_zremrangebyscore {s : SortedSet α} {max : Int} {e : Int ×ₗ α} :
    e ∈ (s.zremrangebyscore max).entries ↔ e ∈ s.entries ∧ max < (ofLex e).1 := by
  simp only [zremrangebyscore, List.mem_filter, decide_eq_true_eq]

theorem entries_nodup (s : SortedSet α) : s.entries.Nodup := s.distinct.of_map

theorem mem_zrangebyscore {s : SortedSet α} {max : Int} {a : α} :
    a ∈ s.zrangebyscore max ↔ ∃ e ∈ s.entries, (ofLex e).1 ≤ max ∧ (ofLex e).2 = a := by
  simp only [zrangebyscore, List.mem_map, List.mem_filter, decide_eq_true_eq, and_assoc]

/-- A pop takes the lowest entry. -/
theorem entries_of_zpopmin {s t : SortedSet α} {e : α × Int} (h : s.zpopmin = some (e, t)) :
    s.entries = toLex (e.2, e.1) :: t.entries := by
  obtain ⟨e₀, hhead, heq⟩ := Option.map_eq_some_iff.mp h
  obtain ⟨rfl, rfl⟩ := Prod.mk.inj heq
  obtain ⟨rest, hrest⟩ := List.head?_eq_some_iff.mp hhead
  show s.entries = e₀ :: s.entries.tail
  rw [hrest]
  rfl

/-- No entry has a lower score than the first one. -/
theorem score_le_of_head {s : SortedSet α} {e first : Int ×ₗ α} (hfirst : s.entries.head? = some first)
    (he : e ∈ s.entries) : (ofLex first).1 ≤ (ofLex e).1 := by
  obtain ⟨rest, hrest⟩ := List.head?_eq_some_iff.mp hfirst
  have hsorted := hrest ▸ s.sorted
  rcases List.mem_cons.mp (hrest ▸ he) with rfl | he
  · exact le_refl _
  · exact Prod.Lex.monotone_fst _ _ (List.rel_of_pairwise_cons hsorted he)

/-- A member has one score. -/
theorem eq_of_mem_entries {s : SortedSet α} {e e' : Int ×ₗ α} (he : e ∈ s.entries) (he' : e' ∈ s.entries)
    (h : (ofLex e).2 = (ofLex e').2) : e = e' :=
  List.inj_on_of_nodup_map s.distinct he he' h

/-- A pop takes the first member off the range. -/
theorem zrange_of_zpopmin {s t : SortedSet α} {e : α × Int} (h : s.zpopmin = some (e, t)) :
    s.zrange = e.1 :: t.zrange := by
  obtain ⟨e₀, hhead, heq⟩ := Option.map_eq_some_iff.mp h
  obtain ⟨rfl, rfl⟩ := Prod.mk.inj heq
  show s.entries.map _ = _ :: s.entries.tail.map _
  obtain ⟨rest, hrest⟩ := List.head?_eq_some_iff.mp hhead
  rw [hrest]
  rfl

/-- The popped member was there and is gone; the others stay. -/
theorem mem_of_zpopmin {s t : SortedSet α} {e : α × Int} (h : s.zpopmin = some (e, t)) :
    e.1 ∈ s ∧ ∀ b, b ∈ t ↔ b ≠ e.1 ∧ b ∈ s := by
  have hrange := zrange_of_zpopmin h
  have hnodup : (e.1 :: t.zrange).Nodup := hrange ▸ s.distinct
  have hmem : ∀ b, b ∈ s ↔ b = e.1 ∨ b ∈ t := fun b => by
    rw [mem_def, hrange]
    exact List.mem_cons
  refine ⟨(hmem _).mpr (.inl rfl), fun b => ?_⟩
  rw [hmem]
  constructor
  · intro hb
    refine ⟨?_, .inr hb⟩
    rintro rfl
    exact (List.nodup_cons.mp hnodup).1 hb
  · rintro ⟨hne, hb⟩
    exact hb.resolve_left hne

end SortedSet

end Foundation
