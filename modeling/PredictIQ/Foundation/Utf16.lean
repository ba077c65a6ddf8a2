/-
  PredictIQ.Foundation.Utf16: texts as lists of 16-bit units.

  `text` reads units as characters: a high and a low surrogate are one
  character together, and each of them alone is U+FFFD.  `bytes` are the
  units in UTF-8.
-/
import PredictIQ.Foundation.Padding
import PredictIQ.Foundation.Utf8

namespace Foundation

namespace Utf16

/-! ## §1. Units and characters. -/

def isHigh (u : UInt16) : Bool := 0xD800 ≤ u.toNat && u.toNat ≤ 0xDBFF

def isLow (u : UInt16) : Bool := 0xDC00 ≤ u.toNat && u.toNat ≤ 0xDFFF

/-- The character of one unit. -/
def single (u : UInt16) : Char := if isHigh u || isLow u then Char.ofNat 0xFFFD else Char.ofNat u.toNat

/-- The character of two surrogates. -/
def pair (high low : UInt16) : Char :=
  Char.ofNat (0x10000 + (high.toNat - 0xD800) * 0x400 + (low.toNat - 0xDC00))

def text : List UInt16 → List Char
  | [] => []
  | [u] => [single u]
  | u :: v :: rest => if isHigh u && isLow v then pair u v :: text rest else single u :: text (v :: rest)

/-- `Buffer.from` of a string. -/
def bytes (us : List UInt16) : List UInt8 := (text us).flatMap String.utf8EncodeChar

/-- The units of characters below U+0080. -/
def ascii (cs : List Char) : List UInt16 := cs.map fun c => UInt16.ofNat c.toNat

/-! ## §2. Characters of one unit. -/

theorem toNat_ofNat_of_isValidChar {n : Nat} (h : n.isValidChar) : (Char.ofNat n).toNat = n := by
  have hchar : Char.ofNat n = Char.ofNatAux n h := dif_pos h
  rw [hchar]
  rfl

/-- A unit that reads as an ASCII character is that character's. -/
theorem toNat_single_of_lt {u : UInt16} (h : (single u).toNat < 128) : u.toNat = (single u).toNat := by
  unfold single at h ⊢
  split
  · next hsurrogate =>
      rw [if_pos hsurrogate] at h
      exact absurd h (by decide)
  · next hplain =>
      have hlt := u.toNat_lt
      have hvalid : u.toNat.isValidChar := by
        unfold isHigh isLow at hplain
        simp only [Bool.or_eq_true, Bool.and_eq_true, decide_eq_true_eq, not_or, not_and_or, not_le] at hplain
        unfold Nat.isValidChar
        omega
      exact (toNat_ofNat_of_isValidChar hvalid).symm

theorem toNat_unit {c : Char} (h : c.toNat < 128) : (UInt16.ofNat c.toNat).toNat = c.toNat :=
  UInt16.toNat_ofNat_of_lt' (h.trans (by decide))

/-- An ASCII character's unit reads as that character. -/
theorem single_ofNat {c : Char} (h : c.toNat < 128) : single (UInt16.ofNat c.toNat) = c := by
  have hunit := toNat_unit h
  have hplain : ¬(isHigh (UInt16.ofNat c.toNat) || isLow (UInt16.ofNat c.toNat)) = true := by
    unfold isHigh isLow
    rw [hunit]
    simp only [Bool.or_eq_true, Bool.and_eq_true, decide_eq_true_eq]
    omega
  unfold single
  rw [if_neg hplain, hunit, Char.ofNat_toNat]

theorem not_lt_toNat_pair {u v : UInt16} (hu : isHigh u = true) (hv : isLow v = true) : ¬(pair u v).toNat < 128 := by
  unfold isHigh at hu
  unfold isLow at hv
  simp only [Bool.and_eq_true, decide_eq_true_eq] at hu hv
  unfold pair
  rw [toNat_ofNat_of_isValidChar (by unfold Nat.isValidChar; omega)]
  omega

/-- **Units read as ASCII characters** exactly when they are those characters'. -/
theorem text_eq_iff {us : List UInt16} {cs : List Char} (h : ∀ c ∈ cs, c.toNat < 128) : text us = cs ↔ us = ascii cs := by
  have hunit : ∀ (u : UInt16) (c : Char), c.toNat < 128 → (single u = c ↔ u = UInt16.ofNat c.toNat) := fun u c hc => by
    constructor
    · rintro rfl
      rw [← toNat_single_of_lt hc, UInt16.ofNat_toNat]
    · rintro rfl
      exact single_ofNat hc
  induction us using text.induct generalizing cs with
  | case1 =>
      unfold ascii
      rw [eq_comm, eq_comm (a := []), List.map_eq_nil_iff]
      rfl
  | case2 u =>
      cases cs with
      | nil => exact iff_of_false (List.cons_ne_nil _ _) (List.cons_ne_nil _ _)
      | cons c cs =>
          show single u :: [] = c :: cs ↔ u :: [] = UInt16.ofNat c.toNat :: ascii cs
          rw [List.cons.injEq, List.cons.injEq, hunit u c (h c List.mem_cons_self)]
          unfold ascii
          rw [eq_comm (a := []), eq_comm (a := []), List.map_eq_nil_iff]
  | case3 u v rest hpair ih =>
      have hsplit : text (u :: v :: rest) = pair u v :: text rest := by
        rw [text, if_pos hpair]
      obtain ⟨hu, hv⟩ := Bool.and_eq_true_iff.mp hpair
      rw [hsplit]
      constructor
      · rintro rfl
        exact absurd (h _ List.mem_cons_self) (not_lt_toNat_pair hu hv)
      · intro heq
        -- the unit of a character is no surrogate
        cases cs with
        | nil => cases heq
        | cons c cs =>
            obtain ⟨rfl, -⟩ := List.cons.inj heq
            have hc := h c List.mem_cons_self
            unfold isHigh at hu
            rw [toNat_unit hc] at hu
            simp only [Bool.and_eq_true, decide_eq_true_eq] at hu
            omega
  | case4 u v rest hpair ih =>
      have hsplit : text (u :: v :: rest) = single u :: text (v :: rest) := by
        rw [text, if_neg hpair]
      rw [hsplit]
      cases cs with
      | nil => exact iff_of_false (List.cons_ne_nil _ _) (List.cons_ne_nil _ _)
      | cons c cs =>
          show _ ↔ u :: v :: rest = UInt16.ofNat c.toNat :: ascii cs
          have hrest : text (v :: rest) = cs ↔ v :: rest = ascii cs := ih fun c hc => h c (List.mem_cons_of_mem _ hc)
          rw [List.cons.injEq, List.cons.injEq, hunit u c (h c List.mem_cons_self), hrest]

/-! ## §3. Bytes filled up with zeros. -/

/-- No character but U+0000 ends in a zero. -/
theorem exists_utf8EncodeChar {c : Char} (h : c ≠ Char.ofNat 0) :
    ∃ front b, String.utf8EncodeChar c = front ++ [b] ∧ b ≠ 0 := by
  have hcontinuation : UInt8.ofNat (c.val.toNat % 0x40 + 0x80) ≠ 0 := fun hzero => by
    have htoNat := congrArg UInt8.toNat hzero
    rw [UInt8.toNat_ofNat', UInt8.toNat_zero] at htoNat
    omega
  unfold String.utf8EncodeChar
  dsimp only
  split
  · next hle =>
      refine ⟨[], _, rfl, fun hzero => h ?_⟩
      have htoNat := congrArg UInt8.toNat hzero
      rw [UInt8.toNat_ofNat', UInt8.toNat_zero] at htoNat
      apply Char.ext
      apply UInt32.toNat_inj.mp
      show c.val.toNat = 0
      omega
  · split
    · exact ⟨[_], _, rfl, hcontinuation⟩
    · split
      · exact ⟨[_, _], _, rfl, hcontinuation⟩
      · exact ⟨[_, _, _], _, rfl, hcontinuation⟩

/-- **Strings that are filled up with zero bytes** are equal when their
characters are, without the U+0000 at the end. -/
theorem padTo_bytes_eq_iff {us vs : List UInt16} :
    padTo 0 (max (bytes us).length (bytes vs).length) (bytes us)
        = padTo 0 (max (bytes us).length (bytes vs).length) (bytes vs)
      ↔ trimEnd (Char.ofNat 0) (text us) = trimEnd (Char.ofNat 0) (text vs) := by
  have htrim : ∀ us, trimEnd 0 (bytes us) = utf8 (.ofList (trimEnd (Char.ofNat 0) (text us))) := fun us => by
    unfold bytes utf8
    rw [String.toList_ofList]
    exact trimEnd_flatMap (by decide) (fun _ => exists_utf8EncodeChar) _
  rw [padTo_eq_iff, htrim, htrim]
  constructor
  · intro h
    exact String.ofList_injective (utf8_injective h)
  · intro h
    rw [h]

end Utf16

end Foundation
