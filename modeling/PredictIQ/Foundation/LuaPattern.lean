/-
  PredictIQ.Foundation.LuaPattern: `string.find` of Lua 5.1 on plain patterns.

  The fragment is that of patterns without `%`, `.`, brackets, `*`, `+`, `?`
  or a leading `^`: a character stands for itself, a character followed by
  `-` for as few repetitions of it as the rest allows, and a `$` that ends
  the pattern for the end of the subject.
-/
import Mathlib.Data.List.Basic
import Mathlib.Data.List.Infix

namespace Foundation

namespace LuaPattern

/-- As few `c` as possible, then `rest`. -/
def minExpand (c : Char) (rest : List Char → Bool) : List Char → Bool
  | [] => rest []
  | d :: s => rest (d :: s) || (d == c && minExpand c rest s)

/-- Whether the pattern matches at the head of the subject. -/
def matchHere : List Char → List Char → Bool
  | [], _ => true
  | ['$'], s => s.isEmpty
  | c :: '-' :: p, s => minExpand c (matchHere p) s
  | _ :: _, [] => false
  | c :: p, d :: s => c == d && matchHere p s

/-- Whether the pattern matches anywhere in the subject. -/
def find (p s : List Char) : Bool := s.tails.any (matchHere p)

/-- A lazy repetition takes some of its character off the subject. -/
theorem exists_of_minExpand {c : Char} {rest : List Char → Bool} {s : List Char}
    (h : minExpand c rest s = true) :
    ∃ n t, s = List.replicate n c ++ t ∧ rest t = true := by
  induction s with
  | nil => exact ⟨0, [], rfl, h⟩
  | cons d s ih =>
      rcases Bool.or_eq_true_iff.mp h with h | h
      · exact ⟨0, d :: s, rfl, h⟩
      · obtain ⟨hd, h⟩ := Bool.and_eq_true_iff.mp h
        obtain ⟨n, t, rfl, ht⟩ := ih h
        refine ⟨n + 1, t, ?_, ht⟩
        rw [beq_iff_eq.mp hd, List.replicate_succ, List.cons_append]

theorem matchHere_plain {c d e : Char} {p s : List Char} (hd : d ≠ '-') :
    matchHere (c :: d :: p) (e :: s) = (c == e && matchHere (d :: p) s) := by
  rw [matchHere]
  · rintro rfl h
    cases h
  · intro p' h
    exact hd (List.cons.inj h).1

/-- A character that no `-` follows is compared with the head of the subject. -/
theorem exists_of_matchHere_cons {c : Char} {p s : List Char} (hp : p ≠ [])
    (hhead : p.head? ≠ some '-') (h : matchHere (c :: p) s = true) :
    ∃ t, s = c :: t ∧ matchHere p t = true := by
  cases p with
  | nil => exact absurd rfl hp
  | cons d p =>
      have hd : d ≠ '-' := fun hd => hhead (by rw [hd]; rfl)
      cases s with
      | nil => simp [matchHere, hd] at h
      | cons e s =>
          rw [matchHere_plain hd, Bool.and_eq_true, beq_iff_eq] at h
          exact ⟨s, by rw [h.1], h.2⟩

/-- A run of plain characters must stand at the head of the subject. -/
theorem exists_of_matchHere_append {u p s : List Char} (hu : '-' ∉ u) (hp : p ≠ [])
    (hhead : p.head? ≠ some '-') (h : matchHere (u ++ p) s = true) :
    ∃ t, s = u ++ t ∧ matchHere p t = true := by
  induction u generalizing s with
  | nil => exact ⟨s, rfl, h⟩
  | cons c u ih =>
      rw [List.mem_cons, not_or] at hu
      -- what follows `c` is the rest of the run, or the head of `p`
      have hnext : (u ++ p).head? ≠ some '-' := by
        cases u with
        | nil => exact hhead
        | cons d u => exact fun hd => hu.2 (List.mem_cons.mpr (.inl (Option.some.inj hd).symm))
      obtain ⟨s, rfl, hs⟩ :=
        exists_of_matchHere_cons (List.append_ne_nil_of_right_ne_nil u hp) hnext h
      obtain ⟨t, rfl, ht⟩ := ih hu.2 hs
      exact ⟨t, rfl, ht⟩

end LuaPattern

end Foundation
