/-
  PredictIQ.Foundation.Text: decimal numbers in texts, and texts cut in two.

  `parseUnsigned` and `parseSigned` read a decimal number below a bound, with
  a sign or without; a number that is written is read back.  `splitOnce` cuts
  a text at the first of its separators, `cutFirst` and `cutLast` a list at the
  first or last occurrence of an item.
-/
import Mathlib.Data.List.TakeWhile
import Mathlib.Data.Nat.Basic

namespace Foundation

/-! ## §1. Decimal numbers. -/

/-- The number that digits write, if it is below a bound. -/
def readDigits (bound : Nat) (digits : List Char) : Option Nat :=
  if !digits.isEmpty && digits.all Char.isDigit && Nat.ofDigitChars 10 digits 0 < bound then
    some (Nat.ofDigitChars 10 digits 0)
  else none

/-- A natural number below a bound: digits, after a plus or not. -/
def parseUnsigned (bound : Nat) (text : String) : Option Nat :=
  readDigits bound (if text.toList.head? = some '+' then text.toList.tail else text.toList)

/-- An integer from `-bound` on and below it. -/
def parseSigned (bound : Nat) (text : String) : Option Int :=
  if text.toList.head? = some '-' then
    (readDigits (bound + 1) text.toList.tail).map fun n : Nat => -(n : Int)
  else (parseUnsigned bound text).map Int.ofNat

theorem readDigits_eq_some {bound n : Nat} {digits : List Char}
    (h : readDigits bound digits = some n) : n < bound := by
  unfold readDigits at h
  split at h
  case isTrue hcond =>
    obtain rfl := Option.some.inj h
    simp only [Bool.and_eq_true, decide_eq_true_eq] at hcond
    exact hcond.2
  case isFalse => cases h

theorem lt_of_parseUnsigned {bound n : Nat} {text : String}
    (h : parseUnsigned bound text = some n) : n < bound :=
  readDigits_eq_some h

theorem range_of_parseSigned {bound : Nat} {i : Int} {text : String} (hpos : 0 < bound)
    (h : parseSigned bound text = some i) : -(bound : Int) ≤ i ∧ i < bound := by
  unfold parseSigned at h
  split at h
  · obtain ⟨n, hn, rfl⟩ := Option.map_eq_some_iff.mp h
    have := readDigits_eq_some hn
    omega
  · obtain ⟨n, hn, rfl⟩ := Option.map_eq_some_iff.mp h
    have := lt_of_parseUnsigned hn
    rw [Int.ofNat_eq_natCast]
    omega

/-- A number is written in digits. -/
theorem isDigit_of_mem_toString {n : Nat} {c : Char} (h : c ∈ (toString n).toList) : c.isDigit := by
  refine Nat.isDigit_of_mem_toDigits (b := 10) (n := n) (by decide) (by decide) ?_
  rwa [Nat.toString_eq_repr, Nat.toList_repr] at h

theorem not_mem_toString {n : Nat} {c : Char} (hc : c.isDigit = false) :
    c ∉ (toString n).toList := fun h => by
  rw [isDigit_of_mem_toString h] at hc
  cases hc

theorem toString_ne_nil (n : Nat) : (toString n).toList ≠ [] := by
  rw [Nat.toString_eq_repr, Nat.toList_repr]
  exact Nat.toDigits_ne_nil

/-- **What is written is read back.** -/
theorem parseUnsigned_toString {bound n : Nat} (h : n < bound) :
    parseUnsigned bound (toString n) = some n := by
  have hplus : (toString n).toList.head? ≠ some '+' := fun hhead =>
    not_mem_toString (n := n) (c := '+') rfl (List.mem_of_head? hhead)
  have hall : (toString n).toList.all Char.isDigit = true :=
    List.all_eq_true.mpr fun c hc => isDigit_of_mem_toString hc
  have hempty : (toString n).toList.isEmpty = false := by
    rw [List.isEmpty_eq_false_iff]
    exact toString_ne_nil n
  have hvalue : Nat.ofDigitChars 10 (toString n).toList 0 = n := by
    rw [Nat.toString_eq_repr, Nat.toList_repr]
    exact Nat.ofDigitChars_toDigits (by decide) (by decide)
  unfold parseUnsigned
  rw [if_neg hplus]
  unfold readDigits
  rw [hvalue, hall, hempty]
  simp [h]

/-- Numbers that are written alike are equal. -/
theorem toString_nat_inj {m n : Nat} (h : toString m = toString n) : m = n := by
  have hm : m < max m n + 1 := by omega
  have hn : n < max m n + 1 := by omega
  have hread := parseUnsigned_toString hm
  rw [h, parseUnsigned_toString hn] at hread
  exact (Option.some.inj hread).symm

/-- The same with a sign. -/
theorem toString_int_inj {m n : Int} (h : toString m = toString n) : m = n := by
  -- a number below zero is written with a minus, and no other is
  have hminus : ∀ (j k : Nat), toString j ≠ "-" ++ toString k := by
    intro j k heq
    refine not_mem_toString (n := j) (c := '-') rfl ?_
    rw [heq, String.toList_append]
    exact List.mem_append_left _ (by simp)
  cases m with
  | ofNat m =>
      cases n with
      | ofNat n => exact congrArg Int.ofNat (toString_nat_inj h)
      | negSucc n => exact absurd h (hminus m (n + 1))
  | negSucc m =>
      cases n with
      | ofNat n => exact absurd h.symm (hminus n (m + 1))
      | negSucc n =>
          change "-" ++ toString (m + 1) = "-" ++ toString (n + 1) at h
          have hsame := toString_nat_inj (String.append_right_inj "-" |>.mp h)
          rw [Nat.succ.inj hsame]

/-- A number from zero on is read back with or without a sign. -/
theorem parseSigned_toString {bound n : Nat} (h : n < bound) :
    parseSigned bound (toString n) = some (n : Int) := by
  have hminus : (toString n).toList.head? ≠ some '-' := fun hhead =>
    not_mem_toString (n := n) (c := '-') rfl (List.mem_of_head? hhead)
  unfold parseSigned
  rw [if_neg hminus, parseUnsigned_toString h]
  rfl

/-! ## §2. The first of the separators. -/

/-- What stands before and after the first `c`. -/
def splitOnce (c : Char) (s : String) : Option (String × String) :=
  match s.toList.dropWhile (· ≠ c) with
  | [] => none
  | _ :: rest => some (.ofList (s.toList.takeWhile (· ≠ c)), .ofList rest)

/-- A text is cut where its first part has no separator. -/
theorem splitOnce_of_toList {c : Char} {s : String} {a b : List Char}
    (h : s.toList = a ++ c :: b) (ha : c ∉ a) : splitOnce c s = some (.ofList a, .ofList b) := by
  have hpass : ∀ x ∈ a, decide (x ≠ c) = true := fun x hx => by
    rw [decide_eq_true_eq]
    rintro rfl
    exact ha hx
  unfold splitOnce
  rw [h, List.dropWhile_append_of_pos hpass, List.takeWhile_append_of_pos hpass,
    List.dropWhile_cons_of_neg (by simp), List.takeWhile_cons_of_neg (by simp), List.append_nil]

/-- A text is cut after a first part without the separator. -/
theorem splitOnce_append {c : Char} {a s : String} (b : String) (hs : s.toList = [c])
    (ha : c ∉ a.toList) : splitOnce c (a ++ s ++ b) = some (a, b) := by
  have hlist : (a ++ s ++ b).toList = a.toList ++ c :: b.toList := by
    rw [String.toList_append, String.toList_append, hs, List.append_assoc]
    rfl
  rw [splitOnce_of_toList hlist ha, String.ofList_toList, String.ofList_toList]

/-! ## §3. Lists cut at an item. -/

section Cuts

variable {α : Type} [DecidableEq α]

/-- What stands before and after the first `a`. -/
def cutFirst (a : α) (xs : List α) : Option (List α × List α) :=
  match xs.dropWhile (· ≠ a) with
  | [] => none
  | _ :: back => some (xs.takeWhile (· ≠ a), back)

/-- What stands before and after the last `a`. -/
def cutLast (a : α) (xs : List α) : Option (List α × List α) :=
  (cutFirst a xs.reverse).map fun parts => (parts.2.reverse, parts.1.reverse)

variable {a : α} {xs front back : List α}

theorem cutFirst_append (h : a ∉ front) : cutFirst a (front ++ a :: back) = some (front, back) := by
  have hpass : ∀ x ∈ front, decide (x ≠ a) = true := fun x hx => decide_eq_true (ne_of_mem_of_not_mem hx h)
  unfold cutFirst
  rw [List.dropWhile_append_of_pos hpass, List.takeWhile_append_of_pos hpass, List.dropWhile_cons_of_neg (by simp),
    List.takeWhile_cons_of_neg (by simp), List.append_nil]

theorem cutFirst_of_not_mem (h : a ∉ xs) : cutFirst a xs = none := by
  have hpass : xs.dropWhile (· ≠ a) = [] :=
    List.dropWhile_eq_nil_iff.mpr fun x hx => decide_eq_true (ne_of_mem_of_not_mem hx h)
  unfold cutFirst
  rw [hpass]

theorem cutLast_append (h : a ∉ back) : cutLast a (front ++ a :: back) = some (front, back) := by
  unfold cutLast
  rw [List.reverse_append, List.reverse_cons, List.append_assoc, List.singleton_append,
    cutFirst_append (mt List.mem_reverse.mp h), Option.map_some, List.reverse_reverse, List.reverse_reverse]

theorem cutLast_of_not_mem (h : a ∉ xs) : cutLast a xs = none := by
  unfold cutLast
  rw [cutFirst_of_not_mem (mt List.mem_reverse.mp h)]
  rfl

omit [DecidableEq α] in
/-- A list with an item is cut at the first of them. -/
theorem exists_cutFirst (h : a ∈ xs) : ∃ front back, xs = front ++ a :: back ∧ a ∉ front := by
  obtain ⟨front, back, rfl, hfront⟩ := List.eq_append_cons_of_mem h
  exact ⟨front, back, rfl, hfront⟩

omit [DecidableEq α] in
/-- And at the last. -/
theorem exists_cutLast (h : a ∈ xs) : ∃ front back, xs = front ++ a :: back ∧ a ∉ back := by
  obtain ⟨front, back, hxs, hfront⟩ := exists_cutFirst (List.mem_reverse.mpr h)
  refine ⟨back.reverse, front.reverse, ?_, mt List.mem_reverse.mp hfront⟩
  rw [← List.reverse_reverse xs, hxs, List.reverse_append, List.reverse_cons, List.append_assoc, List.singleton_append]

end Cuts

end Foundation
