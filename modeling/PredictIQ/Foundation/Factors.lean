/-
  PredictIQ.Foundation.Factors: words in a text, and texts out of which a word
  is taken.

  `beforeFirst p xs` is what stands before the first `p` in `xs`.  Two words
  are apart when they cannot overlap; taking one of them out of a text then
  leaves every occurrence of the other.
-/
import Mathlib.Data.List.Infix

namespace Foundation

variable {α : Type} [DecidableEq α]

/-! ## §1. The first occurrence. -/

/-- What stands before the first `p`. -/
def beforeFirst (p : List α) : List α → Option (List α)
  | [] => if p.isPrefixOf [] then some [] else none
  | x :: xs => if p.isPrefixOf (x :: xs) then some [] else (beforeFirst p xs).map (x :: ·)

theorem prefix_of_beforeFirst {p xs front : List α} (h : beforeFirst p xs = some front) :
    front ++ p <+: xs := by
  induction xs generalizing front with
  | nil =>
      unfold beforeFirst at h
      split at h
      · cases h
        exact List.isPrefixOf_iff_prefix.mp ‹_›
      · cases h
  | cons x xs ih =>
      unfold beforeFirst at h
      split at h
      · cases h
        exact List.isPrefixOf_iff_prefix.mp ‹_›
      · obtain ⟨front', hfront, rfl⟩ := Option.map_eq_some_iff.mp h
        exact List.cons_prefix_cons.mpr ⟨rfl, ih hfront⟩

/-- **Nothing stands before it** when it is not there. -/
theorem beforeFirst_eq_none_iff {p xs : List α} : beforeFirst p xs = none ↔ ¬p <:+: xs := by
  induction xs with
  | nil =>
      unfold beforeFirst
      rw [ite_eq_right_iff, List.isPrefixOf_iff_prefix, List.prefix_nil, List.infix_nil]
      simp only [reduceCtorEq, imp_false]
  | cons x xs ih =>
      unfold beforeFirst
      rw [List.infix_cons_iff, not_or, ← ih, ← List.isPrefixOf_iff_prefix]
      split
      case isTrue h => simp [h]
      case isFalse h => simp [h]

/-! ## §2. Words that are apart. -/

/-- No suffix of `p` but the empty one begins `q`, or begins with it. -/
def SuffixApart (p q : List α) : Prop := ∀ w ∈ p.tails, w ≠ [] → ¬w <+: q ∧ ¬q <+: w

instance (p q : List α) : Decidable (SuffixApart p q) :=
  inferInstanceAs (Decidable (∀ w ∈ p.tails, w ≠ [] → ¬w <+: q ∧ ¬q <+: w))

/-- Two words that cannot overlap. -/
def Apart (p q : List α) : Prop := SuffixApart p q ∧ SuffixApart q p

instance (p q : List α) : Decidable (Apart p q) := inferInstanceAs (Decidable (_ ∧ _))

omit [DecidableEq α] in
theorem SuffixApart.of_suffix {p q w : List α} (h : SuffixApart p q) (hw : w <:+ p) (hne : w ≠ []) :
    ¬w <+: q ∧ ¬q <+: w :=
  h w ((List.mem_tails w p).mpr hw) hne

omit [DecidableEq α] in
/-- **An occurrence next to a word that is apart** is on one of its sides. -/
theorem infix_side_of_apart {p q x z : List α} (h : Apart p q) (hp : p <:+: x ++ q ++ z) :
    p <:+: x ∨ p <:+: z := by
  obtain ⟨u, v, huv⟩ := hp
  rw [List.append_assoc x] at huv
  rcases List.append_eq_append_iff.mp huv with ⟨a, hx, -⟩ | ⟨a, hup, hqz⟩
  · exact .inl ⟨u, a, hx.symm⟩
  · -- the occurrence ends behind `x`
    rcases List.append_eq_append_iff.mp hup with ⟨b, hx, hp⟩ | ⟨b, hu, ha⟩
    · -- it begins in `x`, and its end `a` lies on `q`
      by_cases ha : a = []
      · subst ha
        rw [List.append_nil] at hp
        exact .inl ⟨u, [], by rw [List.append_nil, hx, hp]⟩
      · have hsuffix := h.1.of_suffix ⟨b, hp.symm⟩ ha
        rcases List.append_eq_append_iff.mp hqz with ⟨c, haq, -⟩ | ⟨c, hqa, -⟩
        · exact absurd ⟨c, haq.symm⟩ hsuffix.2
        · exact absurd ⟨c, hqa.symm⟩ hsuffix.1
    · -- it begins in `q`, or behind it
      rw [ha, List.append_assoc] at hqz
      rcases List.append_eq_append_iff.mp hqz with ⟨c, -, hz⟩ | ⟨c, hq, hpc⟩
      · exact .inr ⟨c, v, by rw [List.append_assoc, hz]⟩
      · by_cases hc : c = []
        · subst hc
          exact .inr ⟨[], v, by rw [List.nil_append]; exact hpc⟩
        · have hsuffix := h.2.of_suffix ⟨b, hq.symm⟩ hc
          rcases List.append_eq_append_iff.mp hpc with ⟨d, hpd, -⟩ | ⟨d, hcd, -⟩
          · exact absurd ⟨d, hpd.symm⟩ hsuffix.2
          · exact absurd ⟨d, hcd.symm⟩ hsuffix.1

omit [DecidableEq α] in
/-- **Taking a word out** leaves the words that are apart from it. -/
theorem infix_removed_of_apart {p q x z : List α} (h : Apart p q) (hp : p <:+: x ++ q ++ z) : p <:+: x ++ z := by
  rcases infix_side_of_apart h hp with hx | hz
  · exact hx.trans (List.prefix_append x z).isInfix
  · exact hz.trans (List.suffix_append x z).isInfix

end Foundation
