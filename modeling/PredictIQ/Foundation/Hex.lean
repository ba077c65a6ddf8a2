/-
  PredictIQ.Foundation.Hex: bytes written as pairs of hex digits.

  `encode` writes two lower-case digits a byte, `decode` reads either case.
  Decoding undoes encoding, and two texts that decode to the same bytes are
  equal up to the case of their letters.
-/
import Mathlib.Data.List.Basic

namespace Foundation

namespace Hex

/-! ## §1. Digits. -/

/-- The lower-case digit of a value below 16. -/
def digit (v : UInt8) : UInt8 := if v < 10 then v + 48 else v + 87

/-- The value of a digit. -/
def value (c : UInt8) : Option UInt8 :=
  if 48 ≤ c ∧ c ≤ 57 then some (c - 48)
  else if 97 ≤ c ∧ c ≤ 102 then some (c - 97 + 10)
  else if 65 ≤ c ∧ c ≤ 70 then some (c - 65 + 10)
  else none

/-- An ASCII letter in lower case. -/
def lower (c : UInt8) : UInt8 := if 65 ≤ c ∧ c ≤ 90 then c + 32 else c

theorem value_lt {c v : UInt8} (h : value c = some v) : v < 16 := by
  grind [value]

/-- A digit is, up to case, the one its value is written with. -/
theorem lower_of_value {c v : UInt8} (h : value c = some v) : lower c = digit v := by
  grind [value, lower, digit]

theorem value_lower (c : UInt8) : value (lower c) = value c := by
  by_cases hletter : 65 ≤ c ∧ c ≤ 90
  · have hsame : c + 32 - 97 = c - 65 := by grind
    unfold lower value
    rw [if_pos hletter, hsame]
    grind
  · unfold lower
    rw [if_neg hletter]

theorem value_digit {v : UInt8} (h : v < 16) : value (digit v) = some v := by
  grind [value, digit]

/-- Digits of the same value differ in case at most. -/
theorem lower_eq_of_value {c c' v : UInt8} (h : value c = some v) (h' : value c' = some v) :
    lower c = lower c' := (lower_of_value h).trans (lower_of_value h').symm

/-! ## §2. Bytes. -/

/-- The byte with these halves. -/
def join (hi lo : UInt8) : UInt8 := (hi <<< 4) ||| lo

theorem toNat_join {hi lo : UInt8} (hhi : hi < 16) (hlo : lo < 16) :
    (join hi lo).toNat = 16 * hi.toNat + lo.toNat := by
  have hlt : hi.toNat < 16 := UInt8.lt_iff_toNat_lt.mp hhi
  have hlt' : lo.toNat < 2 ^ 4 := UInt8.lt_iff_toNat_lt.mp hlo
  unfold join
  rw [UInt8.toNat_or, UInt8.toNat_shiftLeft, Nat.shiftLeft_eq]
  show hi.toNat * 2 ^ 4 % 2 ^ 8 ||| lo.toNat = _
  rw [Nat.mod_eq_of_lt (by omega), Nat.mul_comm, ← Nat.two_pow_add_eq_or_of_lt hlt']

theorem high_lt (b : UInt8) : b / 16 < 16 := by grind

theorem low_lt (b : UInt8) : b % 16 < 16 := by grind

theorem join_halves (b : UInt8) : join (b / 16) (b % 16) = b := by
  apply UInt8.toNat_inj.mp
  rw [toNat_join (high_lt b) (low_lt b), UInt8.toNat_div, UInt8.toNat_mod]
  exact Nat.div_add_mod b.toNat 16

/-- A byte has one pair of halves. -/
theorem join_inj {hi lo hi' lo' : UInt8} (hhi : hi < 16) (hlo : lo < 16) (hhi' : hi' < 16)
    (hlo' : lo' < 16) (h : join hi lo = join hi' lo') : hi = hi' ∧ lo = lo' := by
  have hnat := congrArg UInt8.toNat h
  rw [toNat_join hhi hlo, toNat_join hhi' hlo'] at hnat
  have hlt := UInt8.lt_iff_toNat_lt.mp hlo
  have hlt' := UInt8.lt_iff_toNat_lt.mp hlo'
  change lo.toNat < 16 at hlt
  change lo'.toNat < 16 at hlt'
  exact ⟨UInt8.toNat_inj.mp (by omega), UInt8.toNat_inj.mp (by omega)⟩

/-! ## §3. Texts. -/

/-- Two digits a byte, the high half first. -/
def encode : List UInt8 → List UInt8
  | [] => []
  | b :: bytes => digit (b / 16) :: digit (b % 16) :: encode bytes

/-- Read digits in pairs. -/
def decode : List UInt8 → Option (List UInt8)
  | [] => some []
  | [_] => none
  | c :: c' :: text => do
      let hi ← value c
      let lo ← value c'
      let bytes ← decode text
      some (join hi lo :: bytes)

theorem length_encode (bytes : List UInt8) : (encode bytes).length = 2 * bytes.length := by
  induction bytes with
  | nil => rfl
  | cons b bytes ih =>
      show (encode bytes).length + 1 + 1 = 2 * (bytes.length + 1)
      omega

theorem decode_cons_eq_some {c c' : UInt8} {text bytes : List UInt8} :
    decode (c :: c' :: text) = some bytes ↔ ∃ hi lo rest, value c = some hi ∧ value c' = some lo
      ∧ decode text = some rest ∧ bytes = join hi lo :: rest := by
  show (do
    let hi ← value c
    let lo ← value c'
    let bytes ← decode text
    some (join hi lo :: bytes)) = some bytes ↔ _
  simp only [Option.bind_eq_bind, Option.bind_eq_some_iff, Option.some.injEq]
  constructor
  · intro h
    obtain ⟨hi, hhi, lo, hlo, rest, hrest, hbytes⟩ := h
    exact ⟨hi, lo, rest, hhi, hlo, hrest, hbytes.symm⟩
  · intro h
    obtain ⟨hi, lo, rest, hhi, hlo, hrest, hbytes⟩ := h
    exact ⟨hi, hhi, lo, hlo, rest, hrest, hbytes.symm⟩

theorem length_of_decode {text bytes : List UInt8} (h : decode text = some bytes) :
    text.length = 2 * bytes.length := by
  induction text using decode.induct generalizing bytes with
  | case1 =>
      obtain rfl := Option.some.inj h
      rfl
  | case2 => cases h
  | case3 c c' text ih =>
      obtain ⟨hi, lo, rest, _, _, hrest, rfl⟩ := decode_cons_eq_some.mp h
      have hlen := ih hrest
      show text.length + 1 + 1 = 2 * (rest.length + 1)
      omega

/-- The texts that decode: an even number of digits. -/
theorem exists_decode_iff {text : List UInt8} {n : Nat} (hlen : text.length = 2 * n) :
    (∃ bytes, decode text = some bytes) ↔ ∀ c ∈ text, (value c).isSome := by
  induction text using decode.induct generalizing n with
  | case1 =>
      constructor
      · intro _ c hc
        cases hc
      · intro _
        exact ⟨[], rfl⟩
  | case2 c =>
      change 1 = 2 * n at hlen
      omega
  | case3 c c' text ih =>
      change text.length + 1 + 1 = 2 * n at hlen
      have hrest := ih (n := n - 1) (by omega)
      constructor
      · intro h
        obtain ⟨bytes, hbytes⟩ := h
        obtain ⟨hi, lo, rest, hhi, hlo, htext, _⟩ := decode_cons_eq_some.mp hbytes
        refine List.forall_mem_cons.mpr ⟨?_, List.forall_mem_cons.mpr ⟨?_, hrest.mp ⟨rest, htext⟩⟩⟩
        · rw [hhi]
          rfl
        · rw [hlo]
          rfl
      · intro h
        obtain ⟨hc, h⟩ := List.forall_mem_cons.mp h
        obtain ⟨hc', h⟩ := List.forall_mem_cons.mp h
        obtain ⟨hi, hhi⟩ := Option.isSome_iff_exists.mp hc
        obtain ⟨lo, hlo⟩ := Option.isSome_iff_exists.mp hc'
        obtain ⟨rest, htext⟩ := hrest.mpr h
        exact ⟨_, decode_cons_eq_some.mpr ⟨hi, lo, rest, hhi, hlo, htext, rfl⟩⟩

/-- **Round trip.** -/
theorem decode_encode (bytes : List UInt8) : decode (encode bytes) = some bytes := by
  induction bytes with
  | nil => rfl
  | cons b bytes ih =>
      refine decode_cons_eq_some.mpr ⟨b / 16, b % 16, bytes, value_digit (high_lt b),
        value_digit (low_lt b), ih, ?_⟩
      rw [join_halves]

/-- **Two texts decode to the same bytes** only if they differ in case alone. -/
theorem map_lower_eq_of_decode {text text' bytes : List UInt8} (h : decode text = some bytes)
    (h' : decode text' = some bytes) : text.map lower = text'.map lower := by
  induction text using decode.induct generalizing text' bytes with
  | case1 =>
      obtain rfl := Option.some.inj h
      rcases text' with _ | ⟨c, _ | ⟨c', text'⟩⟩
      · rfl
      · cases h'
      · obtain ⟨_, _, _, _, _, _, hnil⟩ := decode_cons_eq_some.mp h'
        cases hnil
  | case2 => cases h
  | case3 c c' text ih =>
      obtain ⟨hi, lo, rest, hhi, hlo, hrest, rfl⟩ := decode_cons_eq_some.mp h
      rcases text' with _ | ⟨d, _ | ⟨d', text'⟩⟩
      · cases h'
      · cases h'
      · obtain ⟨hi', lo', rest', hhi', hlo', hrest', heq⟩ := decode_cons_eq_some.mp h'
        obtain ⟨hjoin, rfl⟩ := List.cons.inj heq
        obtain ⟨rfl, rfl⟩ := join_inj (value_lt hhi) (value_lt hlo) (value_lt hhi')
          (value_lt hlo') hjoin
        show lower c :: lower c' :: text.map lower = lower d :: lower d' :: text'.map lower
        rw [lower_eq_of_value hhi hhi', lower_eq_of_value hlo hlo', ih hrest hrest']

/-- Decoding does not look at case. -/
theorem decode_map_lower (text : List UInt8) : decode (text.map lower) = decode text := by
  induction text using decode.induct with
  | case1 => rfl
  | case2 => rfl
  | case3 c c' text ih =>
      show (do
        let hi ← value (lower c)
        let lo ← value (lower c')
        let bytes ← decode (text.map lower)
        some (join hi lo :: bytes)) = _
      rw [value_lower, value_lower, ih]
      rfl

end Hex

end Foundation
