/-
  PredictIQ.Foundation.Utf8: bytes as text.

  `fromUtf8Lossy` reads bytes as UTF-8 and puts U+FFFD for each maximal run
  that begins no character.  The bytes of a text are read back as that text;
  so bytes are kept by reading and writing exactly when they are some text's.
-/
import Mathlib.Data.List.Basic

namespace Foundation

/-- The bytes of a text. -/
def utf8 (s : String) : List UInt8 := s.toList.flatMap String.utf8EncodeChar

@[simp] theorem utf8_append (s t : String) : utf8 (s ++ t) = utf8 s ++ utf8 t := by
  simp [utf8]

/-- The bytes of some text. -/
def IsUtf8 (bs : List UInt8) : Prop := ∃ s : String, utf8 s = bs

/-- The character that bytes begin with. -/
def nextChar (bs : List UInt8) : Option Char := bs.toByteArray.utf8DecodeChar? 0

def isContinuation (b : UInt8) : Bool := b &&& 0xC0 == 0x80

/-- What may be the second of three bytes or more. -/
def isSecond (first second : UInt8) : Bool :=
  if first = 0xE0 then 0xA0 ≤ second && second ≤ 0xBF
  else if first = 0xED then 0x80 ≤ second && second ≤ 0x9F
  else if first = 0xF0 then 0x90 ≤ second && second ≤ 0xBF
  else if first = 0xF4 then 0x80 ≤ second && second ≤ 0x8F
  else isContinuation second

/-- How many bytes are passed over where no character begins. -/
def invalidLength : List UInt8 → Nat
  | first :: second :: rest =>
      if 0xE0 ≤ first && first ≤ 0xF4 && isSecond first second then
        if 0xF0 ≤ first && rest.head?.any isContinuation then 3 else 2
      else 1
  | _ => 1

/-- Character after character, with fuel for the bytes that are left. -/
def lossyChars : Nat → List UInt8 → List Char
  | 0, _ => []
  | _, [] => []
  | fuel + 1, bs =>
      match nextChar bs with
      | some c => c :: lossyChars fuel (bs.drop c.utf8Size)
      | none => Char.ofNat 0xFFFD :: lossyChars fuel (bs.drop (invalidLength bs))

/-- `String::from_utf8_lossy`. -/
def fromUtf8Lossy (bs : List UInt8) : String := .ofList (lossyChars bs.length bs)

theorem nextChar_utf8EncodeChar (c : Char) (rest : List UInt8) :
    nextChar (String.utf8EncodeChar c ++ rest) = some c := by
  unfold nextChar
  rw [List.toByteArray_append]
  exact ByteArray.utf8DecodeChar?_utf8EncodeChar_append

/-- **The bytes of characters are read back**, with fuel for them. -/
theorem lossyChars_flatMap {fuel : Nat} (cs : List Char)
    (hfuel : (cs.flatMap String.utf8EncodeChar).length ≤ fuel) :
    lossyChars fuel (cs.flatMap String.utf8EncodeChar) = cs := by
  induction cs generalizing fuel with
  | nil => cases fuel <;> rfl
  | cons c cs ih =>
      rw [List.flatMap_cons] at hfuel ⊢
      have hlength := String.length_utf8EncodeChar c
      have hpos := c.utf8Size_pos
      rw [List.length_append, hlength] at hfuel
      cases fuel with
      | zero => omega
      | succ fuel =>
          have hne : String.utf8EncodeChar c ++ cs.flatMap String.utf8EncodeChar ≠ [] :=
            List.append_ne_nil_of_left_ne_nil String.utf8EncodeChar_ne_nil _
          rw [lossyChars.eq_3 _ _ (fun h => hne h), nextChar_utf8EncodeChar]
          show c :: lossyChars fuel ((String.utf8EncodeChar c ++ _).drop c.utf8Size) = _
          rw [← hlength, List.drop_left, ih (by omega)]

/-- **A text is read back from its bytes.** -/
@[simp] theorem fromUtf8Lossy_utf8 (s : String) : fromUtf8Lossy (utf8 s) = s := by
  unfold fromUtf8Lossy utf8
  rw [lossyChars_flatMap s.toList (Nat.le_refl _), String.ofList_toList]

theorem utf8_injective : Function.Injective utf8 := fun s t h => by
  rw [← fromUtf8Lossy_utf8 s, h, fromUtf8Lossy_utf8]

theorem utf8EncodeChar_of_lt {c : Char} (h : c.toNat < 128) : String.utf8EncodeChar c = [UInt8.ofNat c.toNat] := by
  unfold String.utf8EncodeChar
  exact if_pos (Nat.le_of_lt_succ h)

/-- Other characters end in a byte that is none of ASCII. -/
theorem exists_mem_utf8EncodeChar {c : Char} (h : 128 ≤ c.toNat) : ∃ b ∈ String.utf8EncodeChar c, 128 ≤ b.toNat := by
  have hcontinuation : 128 ≤ (UInt8.ofNat (c.val.toNat % 0x40 + 0x80)).toNat := by
    rw [UInt8.toNat_ofNat']
    omega
  unfold String.utf8EncodeChar
  dsimp only
  split
  · next hle => exact absurd (show c.toNat ≤ 0x7f from hle) (by omega)
  · split
    · exact ⟨_, by simp, hcontinuation⟩
    · split
      · exact ⟨_, by simp, hcontinuation⟩
      · exact ⟨_, by simp, hcontinuation⟩

/-- Reading keeps bytes exactly when they are a text's. -/
theorem utf8_fromUtf8Lossy_iff {bs : List UInt8} : utf8 (fromUtf8Lossy bs) = bs ↔ IsUtf8 bs := by
  constructor
  · intro h
    exact ⟨fromUtf8Lossy bs, h⟩
  · rintro ⟨s, rfl⟩
    rw [fromUtf8Lossy_utf8]

end Foundation
