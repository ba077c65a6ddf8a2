/-
  PredictIQ.Foundation.Separator: texts joined by a separator.

  Two joined texts can be equal in three ways: their parts are equal, or the
  first part of one goes on with the separator where the other's ends.
  `joined_inj` is the case where the first parts are free of the separator.
-/
import Mathlib.Data.List.Basic

namespace Foundation

section Lists

variable {α : Type} {x x' z z' : List α} {a : α}

/-- Two lists with a separator in them. -/
theorem append_cons_eq_iff : x ++ a :: z = x' ++ a :: z' ↔ x = x' ∧ z = z'
    ∨ (∃ w, x' = x ++ a :: w ∧ z = w ++ a :: z') ∨ ∃ w, x = x' ++ a :: w ∧ z' = w ++ a :: z := by
  constructor
  · intro h
    rcases List.append_eq_append_iff.mp h with ⟨w, rfl, hw⟩ | ⟨w, rfl, hw⟩
    · cases w with
      | nil =>
          simp only [List.nil_append, List.cons.injEq, true_and] at hw
          exact .inl ⟨(List.append_nil x).symm, hw⟩
      | cons b w =>
          obtain ⟨rfl, rfl⟩ := List.cons.inj hw
          exact .inr (.inl ⟨w, rfl, rfl⟩)
    · cases w with
      | nil =>
          simp only [List.nil_append, List.cons.injEq, true_and] at hw
          exact .inl ⟨List.append_nil x', hw.symm⟩
      | cons b w =>
          obtain ⟨rfl, rfl⟩ := List.cons.inj hw
          exact .inr (.inr ⟨w, rfl, rfl⟩)
  · rintro (⟨rfl, rfl⟩ | ⟨w, rfl, rfl⟩ | ⟨w, rfl, rfl⟩)
    · rfl
    · simp only [List.append_assoc, List.cons_append]
    · simp only [List.append_assoc, List.cons_append]

end Lists

/-- A text of one character. -/
def IsSeparator (s : String) (c : Char) : Prop := s.toList = [c]

variable {a a' b b' s : String} {c : Char}

/-- One text goes on with the separator where the other ends. -/
def Continues (s a a' : String) : Prop := ∃ w, a' = a ++ s ++ w

/-- **Joined texts** are equal when their parts are, or one goes on where the other ends. -/
theorem joined_eq_iff (hs : IsSeparator s c) : a ++ s ++ b = a' ++ s ++ b' ↔ a = a' ∧ b = b'
    ∨ (∃ w, a' = a ++ s ++ w ∧ b = w ++ s ++ b') ∨ ∃ w, a = a' ++ s ++ w ∧ b' = w ++ s ++ b := by
  have hjoin : ∀ x y : String, (x ++ s ++ y).toList = x.toList ++ c :: y.toList := by
    intro x y
    rw [String.toList_append, String.toList_append, hs, List.append_assoc]
    rfl
  have hex : ∀ {p : List Char → Prop}, (∃ w, p w) ↔ ∃ w : String, p w.toList := by
    intro p
    refine ⟨fun ⟨w, hw⟩ => ⟨String.ofList w, ?_⟩, fun ⟨w, hw⟩ => ⟨w.toList, hw⟩⟩
    rwa [String.toList_ofList]
  simp only [← String.toList_inj, hjoin]
  rw [append_cons_eq_iff, hex, hex]

/-- A text without the separator is not continued by itself, and nothing continues to it. -/
theorem not_continues (hs : IsSeparator s c) (ha' : c ∉ a'.toList) : ¬Continues s a a' := by
  rintro ⟨w, rfl⟩
  refine ha' ?_
  rw [String.toList_append, String.toList_append, hs]
  simp

/-- **Joined texts can be taken apart** at the first separator. -/
theorem joined_inj (hs : IsSeparator s c) (ha : c ∉ a.toList) (ha' : c ∉ a'.toList)
    (h : a ++ s ++ b = a' ++ s ++ b') : a = a' ∧ b = b' := by
  rcases (joined_eq_iff hs).mp h with h | ⟨w, hw, -⟩ | ⟨w, hw, -⟩
  · exact h
  · exact absurd ⟨w, hw⟩ (not_continues hs ha')
  · exact absurd ⟨w, hw⟩ (not_continues hs ha)

/-- They can be taken apart at the last separator too. -/
theorem joined_inj_right (hs : IsSeparator s c) (hb : c ∉ b.toList) (hb' : c ∉ b'.toList)
    (h : a ++ s ++ b = a' ++ s ++ b') : a = a' ∧ b = b' := by
  have hmem : ∀ w x : String, c ∈ (w ++ s ++ x).toList := fun w x => by
    rw [String.toList_append, String.toList_append, hs]
    simp
  rcases (joined_eq_iff hs).mp h with h | ⟨w, -, hw⟩ | ⟨w, -, hw⟩
  · exact h
  · exact absurd (hw ▸ hmem w b') hb
  · exact absurd (hw ▸ hmem w b) hb'

/-- **Joined texts that are equal** have equal parts, or their first parts continue one another. -/
theorem eq_iff_of_joined (hs : IsSeparator s c) (h : a ++ s ++ b = a' ++ s ++ b') :
    a = a' ∧ b = b' ↔ ¬Continues s a a' ∧ ¬Continues s a' a := by
  have hself : ∀ x w : String, x ≠ x ++ s ++ w := by
    intro x w hx
    have hlen := congrArg (List.length ∘ String.toList) hx
    simp only [Function.comp_apply, String.toList_append, List.length_append, show s.toList = [c] from hs,
      List.length_singleton] at hlen
    omega
  constructor
  · rintro ⟨rfl, -⟩
    exact ⟨fun ⟨w, hw⟩ => hself a w hw, fun ⟨w, hw⟩ => hself a w hw⟩
  · rintro ⟨hforth, hback⟩
    rcases (joined_eq_iff hs).mp h with h | ⟨w, hw, -⟩ | ⟨w, hw, -⟩
    · exact h
    · exact absurd ⟨w, hw⟩ hforth
    · exact absurd ⟨w, hw⟩ hback

end Foundation
