/-
  PredictIQ.Foundation.Base64: bytes written in base 64.

  Three bytes are four characters, and what is left of them is padded with
  equals signs.  `decode` accepts a text exactly when it is the one that its
  bytes are written as, with its padding and no bit to spare.  `encodeUrl` is
  the way bytes are written in addresses.
-/
import Mathlib.Data.List.Basic
import Mathlib.Data.Nat.Basic

namespace Foundation

namespace Base64

/-! ## §1. Characters. -/

/-- The character of a value below 64. -/
def char (v : Nat) : Char :=
  if v < 26 then Char.ofNat (v + 65)
  else if v < 52 then Char.ofNat (v + 71)
  else if v < 62 then Char.ofNat (v - 4)
  else if v = 62 then '+'
  else '/'

/-- The value of a character. -/
def value (c : Char) : Nat :=
  if c.isUpper then c.toNat - 65
  else if c.isLower then c.toNat - 71
  else if c.isDigit then c.toNat + 4
  else if c = '+' then 62
  else 63

theorem value_char {v : Nat} (h : v < 64) : value (char v) = v := by
  have hall : ∀ v : Fin 64, value (char v) = v := by decide
  exact hall ⟨v, h⟩

theorem char_ne_pad {v : Nat} (h : v < 64) : char v ≠ '=' := by
  have hall : ∀ v : Fin 64, char v ≠ '=' := by decide
  exact hall ⟨v, h⟩

/-! ## §2. Bytes. -/

/-- The characters of bytes, three at a time. -/
def encodeList : List UInt8 → List Char
  | [] => []
  | [a] => [char (a.toNat / 4), char (a.toNat % 4 * 16), '=', '=']
  | [a, b] => [char (a.toNat / 4), char (a.toNat % 4 * 16 + b.toNat / 16), char (b.toNat % 16 * 4), '=']
  | a :: b :: c :: rest =>
      char (a.toNat / 4) :: char (a.toNat % 4 * 16 + b.toNat / 16)
        :: char (b.toNat % 16 * 4 + c.toNat / 64) :: char (c.toNat % 64) :: encodeList rest

/-- The bytes that characters write, four at a time, whatever they are. -/
def decodeList : List Char → List UInt8
  | p :: q :: r :: s :: rest =>
      UInt8.ofNat (value p * 4 + value q / 16) ::
        if r = '=' then []
        else UInt8.ofNat (value q % 16 * 16 + value r / 4) ::
          if s = '=' then []
          else UInt8.ofNat (value r % 4 * 64 + value s) :: decodeList rest
  | _ => []

def encode (bs : List UInt8) : String := .ofList (encodeList bs)

/-- `none` for a text that is not the one of its bytes. -/
def decode (s : String) : Option (List UInt8) :=
  if encodeList (decodeList s.toList) = s.toList then some (decodeList s.toList) else none

theorem decodeList_encodeList (bs : List UInt8) : decodeList (encodeList bs) = bs := by
  induction bs using encodeList.induct with
  | case1 => rfl
  | case2 a =>
      -- one byte in two characters
      have ha := a.toNat_lt
      simp only [encodeList, decodeList, if_true]
      rw [value_char (by omega), value_char (by omega)]
      congr 1
      rw [← UInt8.toNat_inj, UInt8.toNat_ofNat']
      omega
  | case3 a b =>
      have ha := a.toNat_lt
      have hb := b.toNat_lt
      -- two bytes in three, of which the last is no padding
      simp only [encodeList, decodeList, if_true, if_neg (char_ne_pad (v := b.toNat % 16 * 4) (by omega))]
      rw [value_char (by omega), value_char (by omega), value_char (by omega)]
      congr 1
      · rw [← UInt8.toNat_inj, UInt8.toNat_ofNat']
        omega
      · congr 1
        rw [← UInt8.toNat_inj, UInt8.toNat_ofNat']
        omega
  | case4 a b c rest ih =>
      have ha := a.toNat_lt
      have hb := b.toNat_lt
      have hc := c.toNat_lt
      simp only [encodeList, decodeList,
        if_neg (char_ne_pad (v := b.toNat % 16 * 4 + c.toNat / 64) (by omega)),
        if_neg (char_ne_pad (v := c.toNat % 64) (by omega))]
      rw [value_char (by omega), value_char (by omega), value_char (by omega), value_char (by omega), ih]
      congr 1
      · rw [← UInt8.toNat_inj, UInt8.toNat_ofNat']
        omega
      congr 1
      · rw [← UInt8.toNat_inj, UInt8.toNat_ofNat']
        omega
      congr 1
      rw [← UInt8.toNat_inj, UInt8.toNat_ofNat']
      omega

/-- **Decoding undoes encoding.** -/
@[simp] theorem decode_encode (bs : List UInt8) : decode (encode bs) = some bs := by
  unfold decode encode
  rw [String.toList_ofList, decodeList_encodeList, if_pos rfl]

/-- **Only the text of the bytes is decoded to them.** -/
theorem decode_eq_some_iff {s : String} {bs : List UInt8} : decode s = some bs ↔ s = encode bs := by
  constructor
  · intro h
    unfold decode at h
    split at h
    case isTrue hsame =>
      obtain rfl := Option.some.inj h
      rw [encode, hsame, String.ofList_toList]
    case isFalse => cases h
  · rintro rfl
    exact decode_encode bs

theorem encode_ne_empty {bs : List UInt8} (h : bs ≠ []) : encode bs ≠ "" := by
  intro hempty
  have hdecode := decode_encode bs
  rw [hempty] at hdecode
  exact h (Option.some.inj hdecode).symm

/-- The characters are ASCII, and visible. -/
theorem mem_encodeList {bs : List UInt8} {c : Char} (h : c ∈ encodeList bs) :
    32 ≤ c.toNat ∧ c.toNat < 127 := by
  have hchar : ∀ v < 64, 32 ≤ (char v).toNat ∧ (char v).toNat < 127 := fun v hv => by
    have hall : ∀ v : Fin 64, 32 ≤ (char v).toNat ∧ (char v).toNat < 127 := by decide
    exact hall ⟨v, hv⟩
  have hpad : 32 ≤ '='.toNat ∧ '='.toNat < 127 := by decide
  induction bs using encodeList.induct with
  | case1 => cases h
  | case2 a =>
      have ha := a.toNat_lt
      simp only [encodeList, List.mem_cons, List.not_mem_nil, or_false] at h
      obtain rfl | rfl | rfl | rfl := h
      · exact hchar _ (by omega)
      · exact hchar _ (by omega)
      · exact hpad
      · exact hpad
  | case3 a b =>
      have ha := a.toNat_lt
      have hb := b.toNat_lt
      simp only [encodeList, List.mem_cons, List.not_mem_nil, or_false] at h
      obtain rfl | rfl | rfl | rfl := h
      · exact hchar _ (by omega)
      · exact hchar _ (by omega)
      · exact hchar _ (by omega)
      · exact hpad
  | case4 a b c' rest ih =>
      have ha := a.toNat_lt
      have hb := b.toNat_lt
      have hc := c'.toNat_lt
      simp only [encodeList, List.mem_cons] at h
      obtain rfl | rfl | rfl | rfl | h := h
      · exact hchar _ (by omega)
      · exact hchar _ (by omega)
      · exact hchar _ (by omega)
      · exact hchar _ (by omega)
      · exact ih h

/-! ## §3. In addresses. -/

/-- The characters that stand in an address for the last two values. -/
def urlChar (c : Char) : Char := if c = '+' then '-' else if c = '/' then '_' else c

/-- `base64url`: without the padding. -/
def encodeUrl (bs : List UInt8) : List Char := ((encodeList bs).filter (· ≠ '=')).map urlChar

theorem mem_encodeUrl {bs : List UInt8} {c : Char} (h : c ∈ encodeUrl bs) : 32 ≤ c.toNat ∧ c.toNat < 127 := by
  obtain ⟨c', hc', rfl⟩ := List.mem_map.mp h
  unfold urlChar
  split
  · decide
  · split
    · decide
    · exact mem_encodeList (List.mem_filter.mp hc').1

end Base64

end Foundation
