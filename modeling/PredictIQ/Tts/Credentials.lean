/-
  PredictIQ.Tts.Credentials: `authenticate` of `TTSService.ts`.

  Strings are lists of 16-bit units, as in JavaScript.  HMAC, `JSON.parse` of
  the decoded payload, and the conversions between numbers and strings are
  those of the runtime, whatever they are; what the code makes of their results
  (padded comparisons, properties, the coercions of `<`) is spelled out.
  `authenticates_exactly_iff` says for which credentials the function is exact.
-/
import PredictIQ.Foundation.Base64
import PredictIQ.Foundation.Utf16
import Mathlib.Data.Rat.Defs

namespace PredictIQ.Tts.Credentials

open Foundation
open Utf16 (text ascii bytes)

/-! ## §1. Values of JavaScript. -/

abbrev JsString : Type := List UInt16

inductive JsNumber
  | finite (q : ℚ)
  | infinity
  | negInfinity
  | nan

/-- `n < i`. -/
def JsNumber.lt : JsNumber → Int → Bool
  | .finite q, i => decide (q < i)
  | .negInfinity, _ => true
  | .infinity, _ | .nan, _ => false

/-- What `JSON.parse` makes. -/
inductive JsValue
  | null
  | bool (b : Bool)
  | number (n : JsNumber)
  | string (s : JsString)
  | array (items : List JsValue)
  | object (members : List (JsString × JsValue))

/-- What is taken from the runtime; `parsePayload` decodes base64url and parses
what it reads, and is `none` for a `SyntaxError`. -/
structure Runtime where
  hmacSha256 : (key message : List UInt8) → List UInt8
  parsePayload : JsString → Option JsValue
  stringToNumber : JsString → JsNumber
  numberToString : JsNumber → JsString

inductive Failure
  | auth (message : String)
  | syntaxError
  | typeError
  deriving DecidableEq

inductive AuthConfig
  | apikey (keys : List JsString)
  | jwt (secret : JsString)

def name (s : String) : JsString := ascii s.toList

section Runtime

variable (W : Runtime)

/-- Of the values that are parsed only objects have members of the names that are read. -/
def JsValue.member (key : JsString) : JsValue → Option JsValue
  | .object members => members.lookup key
  | _ => none

/-- Reading a property of `null` fails. -/
def JsValue.property (key : JsString) : JsValue → Except Failure (Option JsValue)
  | .null => .error .typeError
  | v => .ok (v.member key)

mutual

/-- `ToString`: a parsed object with a member `toString` has nothing callable. -/
def toJsString : JsValue → Option JsString
  | .null => some (name "null")
  | .bool b => some (name (if b then "true" else "false"))
  | .number n => some (W.numberToString n)
  | .string s => some s
  | .array items => joinItems items
  | .object members => if (members.lookup (name "toString")).isSome then none else some (name "[object Object]")

/-- `Array.prototype.join`: a `null` is left out. -/
def joinItems : List JsValue → Option JsString
  | [] => some []
  | [.null] => some []
  | [item] => toJsString item
  | .null :: item :: rest => (joinItems (item :: rest)).map (name "," ++ ·)
  | item :: item' :: rest => do
      let first ← toJsString item
      let others ← joinItems (item' :: rest)
      return first ++ name "," ++ others

end

/-- `ToNumber`; `none` is a `TypeError`. -/
def toNumber : JsValue → Option JsNumber
  | .null => some (.finite 0)
  | .bool b => some (.finite (if b then 1 else 0))
  | .number n => some n
  | .string s => some (W.stringToNumber s)
  | v => (toJsString W v).map W.stringToNumber

/-! ## §2. The function. -/

def paddedEqual (a b : JsString) : Bool :=
  let len := max (bytes a).length (bytes b).length
  padTo 0 len (bytes a) == padTo 0 len (bytes b)

/-- `keyValid` after all keys. -/
def keyValid (credential : JsString) (keys : List JsString) : Nat :=
  keys.foldl (fun keyValid key => keyValid ||| if paddedEqual credential key then 1 else 0) 0

def dot : UInt16 := 0x2E

/-- The base64url HMAC of header and payload. -/
def signature (secret headerB64 payloadB64 : JsString) : List Char :=
  Base64.encodeUrl (W.hmacSha256 (bytes secret) (bytes (headerB64 ++ [dot] ++ payloadB64)))

/-- The `sub` of a payload, if that is a string with something in it. -/
def tenantOf (credential : JsString) : Option JsValue → JsString
  | some (.string sub) => if sub = [] then credential else sub
  | _ => credential

/-- `exp === undefined || exp < Math.floor(Date.now() / 1000)`. -/
def isExpired (now : Int) : Option JsValue → Except Failure Bool
  | none => .ok true
  | some exp =>
      match toNumber W exp with
      | none => .error .typeError
      | some n => .ok (n.lt (now / 1000))

def verifyPayload (now : Int) (credential payloadB64 : JsString) : Except Failure JsString :=
  match W.parsePayload payloadB64 with
  | none => .error .syntaxError
  | some payload => do
      let exp ← payload.property (name "exp")
      if ← isExpired W now exp then .error (.auth "JWT expired")
      else
        let sub ← payload.property (name "sub")
        return tenantOf credential sub

/-- `authenticate`, at `now` milliseconds. -/
def authenticate (now : Int) (credential : Option JsString) (auth : AuthConfig) : Except Failure JsString :=
  match credential with
  | none | some [] => .error (.auth "Missing credential")
  | some credential =>
      match auth with
      | .apikey keys => if keyValid credential keys = 0 then .error (.auth "Invalid API key") else .ok credential
      | .jwt secret =>
          match credential.splitOn dot with
          | [headerB64, payloadB64, sigB64] =>
              if !paddedEqual (ascii (signature W secret headerB64 payloadB64)) sigB64 then
                .error (.auth "Invalid JWT signature")
              else verifyPayload W now credential payloadB64
          | _ => .error (.auth "Malformed JWT")

/-! ## §3. What is claimed of it. -/

/-- The payload is an object with a numeric `exp` that is not in the past. -/
def Unexpired (now : Int) (payload : Option JsValue) : Prop :=
  ∃ v n, payload = some v ∧ v.member (name "exp") = some (.number n) ∧ n.lt (now / 1000) = false

/-- A credential that is one of the keys; or three parts, of which the third is
the HMAC of the others, and the payload has not expired. -/
def Valid (now : Int) (credential : JsString) : AuthConfig → Prop
  | .apikey keys => credential ∈ keys
  | .jwt secret => ∃ headerB64 payloadB64,
      credential.splitOn dot = [headerB64, payloadB64, ascii (signature W secret headerB64 payloadB64)]
        ∧ Unexpired now (W.parsePayload payloadB64)

/-- **Exactly the valid credentials are accepted**, and the others refused with an `AuthError`. -/
def Exact (now : Int) (credential : JsString) (auth : AuthConfig) : Prop :=
  ((∃ owner, authenticate W now (some credential) auth = .ok owner) ↔ Valid W now credential auth)
    ∧ ∀ e, authenticate W now (some credential) auth = .error e → ∃ message, e = .auth message

/-- The characters of a string, up to the U+0000 at its end. -/
def shown (s : JsString) : List Char := trimEnd (Char.ofNat 0) (text s)

/-- The payload was parsed, is not `null`, and its `exp`, if it has one and it is
no number, is taken for a number in the past. -/
def Readable (now : Int) (payload : Option JsValue) : Prop :=
  ∃ v, payload = some v ∧ v ≠ .null ∧ ∀ exp, v.member (name "exp") = some exp →
    (∃ n, exp = .number n) ∨ ∃ n, toNumber W exp = some n ∧ n.lt (now / 1000) = true

/-- No empty key is used, and no key is like the credential but for lone
surrogates and U+0000 at the end; a signed payload is readable, and expired if
the signature has U+0000 behind it. -/
def Regular (now : Int) (credential : JsString) : AuthConfig → Prop
  | .apikey keys => (credential = [] → [] ∉ keys)
      ∧ (credential ≠ [] → credential ∉ keys → ∀ key ∈ keys, shown key ≠ shown credential)
  | .jwt secret => ∀ headerB64 payloadB64 k, credential.splitOn dot
      = [headerB64, payloadB64, ascii (signature W secret headerB64 payloadB64 ++ List.replicate k (Char.ofNat 0))] →
      Readable W now (W.parsePayload payloadB64) ∧ (k = 0 ∨ ¬Unexpired now (W.parsePayload payloadB64))

end Runtime

/-! ## §4. Comparisons. -/

theorem paddedEqual_iff {a b : JsString} : paddedEqual a b = true ↔ shown a = shown b := by
  unfold paddedEqual
  rw [beq_iff_eq]
  exact Utf16.padTo_bytes_eq_iff

/-- The loop over the keys finds whether one of them is equal. -/
theorem keyValid_eq_zero_iff {credential : JsString} {keys : List JsString} :
    keyValid credential keys = 0 ↔ ∀ key ∈ keys, shown key ≠ shown credential := by
  suffices hloop : ∀ valid, keys.foldl (fun valid key => valid ||| if paddedEqual credential key then 1 else 0) valid = 0
      ↔ valid = 0 ∧ ∀ key ∈ keys, shown key ≠ shown credential by
    unfold keyValid
    rw [hloop, eq_self, true_and]
  induction keys with
  | nil => simp
  | cons key keys ih =>
      intro valid
      rw [List.foldl_cons, ih, Nat.or_eq_zero_iff, List.forall_mem_cons, and_assoc]
      by_cases hkey : paddedEqual credential key
      · have hshown := (paddedEqual_iff.mp hkey).symm
        simp [hkey, hshown]
      · have hshown : shown key ≠ shown credential := fun heq => hkey (paddedEqual_iff.mpr heq.symm)
        simp [hkey, hshown]

/-- **What passes for a signature** is it, or it with U+0000 behind it. -/
theorem paddedEqual_signature_iff {sig : List Char} {s : JsString} (hsig : ∀ c ∈ sig, 32 ≤ c.toNat ∧ c.toNat < 127) :
    paddedEqual (ascii sig) s = true ↔ ∃ k, s = ascii (sig ++ List.replicate k (Char.ofNat 0)) := by
  have hascii : ∀ k, ∀ c ∈ sig ++ List.replicate k (Char.ofNat 0), c.toNat < 128 := fun k c hc => by
    rcases List.mem_append.mp hc with hc | hc
    · exact (hsig c hc).2.trans (by decide)
    · rw [List.eq_of_mem_replicate hc]
      decide
  have hzero : Char.ofNat 0 ∉ sig := fun hmem => absurd (hsig _ hmem).1 (by decide)
  have hshown : shown (ascii sig) = sig := by
    unfold shown
    rw [(Utf16.text_eq_iff fun c hc => hascii 0 c (List.mem_append_left _ hc)).mpr rfl, trimEnd_eq_self hzero]
  rw [paddedEqual_iff, hshown]
  constructor
  · intro h
    obtain ⟨k, hk⟩ := exists_trimEnd (Char.ofNat 0) (text s)
    refine ⟨k, (Utf16.text_eq_iff (hascii k)).mp ?_⟩
    rw [hk, show trimEnd (Char.ofNat 0) (text s) = sig from h.symm]
  · rintro ⟨k, rfl⟩
    unfold shown
    rw [(Utf16.text_eq_iff (hascii k)).mpr rfl, trimEnd_append_replicate, trimEnd_eq_self hzero]

/-! ## §5. Payloads. -/

section Payloads

variable {W : Runtime} {now : Int} {credential payloadB64 : JsString} {v : JsValue}

theorem property_of_ne_null (key : JsString) (h : v ≠ .null) : v.property key = .ok (v.member key) := by
  cases v with
  | null => exact absurd rfl h
  | bool _ | number _ | string _ | array _ | object _ => rfl

theorem verifyPayload_of_ne_null (hparse : W.parsePayload payloadB64 = some v) (h : v ≠ .null) :
    verifyPayload W now credential payloadB64 = (isExpired W now (v.member (name "exp"))).bind fun expired =>
      if expired then .error (.auth "JWT expired") else .ok (tenantOf credential (v.member (name "sub"))) := by
  unfold verifyPayload
  rw [hparse]
  simp only [property_of_ne_null _ h]
  show (isExpired W now (v.member (name "exp")) >>= _) = _
  cases isExpired W now (v.member (name "exp")) with
  | error e => rfl
  | ok b => cases b <;> rfl

theorem isExpired_of_toNumber {exp : JsValue} {n : JsNumber} (h : toNumber W exp = some n) :
    isExpired W now (some exp) = .ok (n.lt (now / 1000)) := by
  simp only [isExpired, h]

theorem unexpired_some_iff : Unexpired now (some v)
    ↔ ∃ n, v.member (name "exp") = some (.number n) ∧ n.lt (now / 1000) = false := by
  constructor
  · rintro ⟨_, n, hv, hn⟩
    cases hv
    exact ⟨n, hn⟩
  · rintro ⟨n, hn⟩
    exact ⟨v, n, rfl, hn⟩

theorem readable_some_iff (h : v ≠ .null) : Readable W now (some v) ↔ ∀ exp, v.member (name "exp") = some exp →
    (∃ n, exp = .number n) ∨ ∃ n, toNumber W exp = some n ∧ n.lt (now / 1000) = true := by
  constructor
  · rintro ⟨_, hv, -, hexp⟩
    cases hv
    exact hexp
  · exact fun hexp => ⟨v, rfl, h, hexp⟩

/-- **What becomes of a signed payload**: one that is readable is accepted, or
found expired, as it should be; another is accepted although it has no numeric
`exp`, or refused with another error. -/
theorem verifyPayload_cases (W : Runtime) (now : Int) (credential payloadB64 : JsString) :
    (Readable W now (W.parsePayload payloadB64)
      ∧ ((Unexpired now (W.parsePayload payloadB64) ∧ ∃ owner, verifyPayload W now credential payloadB64 = .ok owner)
        ∨ (¬Unexpired now (W.parsePayload payloadB64)
          ∧ verifyPayload W now credential payloadB64 = .error (.auth "JWT expired"))))
    ∨ (¬Readable W now (W.parsePayload payloadB64)
      ∧ ((¬Unexpired now (W.parsePayload payloadB64) ∧ ∃ owner, verifyPayload W now credential payloadB64 = .ok owner)
        ∨ ∃ e, verifyPayload W now credential payloadB64 = .error e ∧ ∀ message, e ≠ .auth message)) := by
  cases hparse : W.parsePayload payloadB64 with
  | none =>
      -- `JSON.parse` throws, and nothing catches its error.
      refine .inr ⟨?_, .inr ⟨.syntaxError, ?_, nofun⟩⟩
      · rintro ⟨v, hv, -⟩
        cases hv
      · unfold verifyPayload
        rw [hparse]
  | some v =>
      by_cases hnull : v = .null
      · -- `JSON.parse` can return `null`, and reading its `exp` throws.
        subst hnull
        refine .inr ⟨?_, .inr ⟨.typeError, ?_, nofun⟩⟩
        · rintro ⟨v, hv, hne, -⟩
          exact hne (Option.some.inj hv).symm
        · unfold verifyPayload
          rw [hparse]
          rfl
      · rw [verifyPayload_of_ne_null hparse hnull]
        rw [unexpired_some_iff, readable_some_iff hnull]
        cases v.member (name "exp") with
        | none =>
            -- no `exp` at all counts as expired, as it should
            exact .inl ⟨nofun, .inr ⟨nofun, rfl⟩⟩
        | some exp =>
            -- A number is judged as it stands; anything else is converted by the comparison.
            by_cases hnumber : ∃ n, exp = .number n
            · obtain ⟨n, rfl⟩ := hnumber
              rw [isExpired_of_toNumber (n := n) rfl]
              refine .inl ⟨fun exp' hexp' => .inl ⟨n, (Option.some.inj hexp').symm⟩, ?_⟩
              cases hlt : n.lt (now / 1000) with
              | true =>
                  refine .inr ⟨?_, rfl⟩
                  rintro ⟨n', hn', hlt'⟩
                  cases hn'
                  rw [hlt] at hlt'
                  cases hlt'
              | false => exact .inl ⟨⟨n, rfl, hlt⟩, _, rfl⟩
            · have hno : ¬∃ n, some exp = some (.number n) ∧ n.lt (now / 1000) = false := by
                rintro ⟨n, hn, -⟩
                exact hnumber ⟨n, Option.some.inj hn⟩
              cases hconvert : toNumber W exp with
              | none =>
                  -- an object with a `toString` of its own, or an array that holds one
                  refine .inr ⟨fun hexp => ?_, .inr ⟨.typeError, ?_, nofun⟩⟩
                  · obtain ⟨n, hn, -⟩ := (hexp exp rfl).resolve_left hnumber
                    rw [hconvert] at hn
                    cases hn
                  · unfold isExpired
                    simp only [hconvert]
                    rfl
              | some n =>
                  rw [isExpired_of_toNumber hconvert]
                  cases hlt : n.lt (now / 1000) with
                  | true =>
                      refine .inl ⟨fun exp' hexp' => ?_, .inr ⟨hno, rfl⟩⟩
                      cases hexp'
                      exact .inr ⟨n, hconvert, hlt⟩
                  | false =>
                      -- `NaN`, or a text with a later instant: accepted without a numeric `exp`
                      refine .inr ⟨fun hexp => ?_, .inl ⟨hno, _, rfl⟩⟩
                      obtain ⟨n', hn', hlt'⟩ := (hexp exp rfl).resolve_left hnumber
                      rw [hconvert] at hn'
                      cases hn'
                      rw [hlt] at hlt'
                      cases hlt'

end Payloads

/-! ## §6. Which credentials are judged exactly. -/

section Exactness

variable (W : Runtime) (now : Int) (credential : JsString)

theorem exact_apikey_iff (keys : List JsString) :
    Exact W now credential (.apikey keys) ↔ Regular W now credential (.apikey keys) := by
  unfold Exact Valid Regular
  cases credential with
  | nil =>
      have hrefused : authenticate W now (some []) (.apikey keys) = .error (.auth "Missing credential") := rfl
      rw [hrefused]
      constructor
      · rintro ⟨hvalid, -⟩
        refine ⟨fun _ hmem => ?_, fun hne => absurd rfl hne⟩
        obtain ⟨owner, howner⟩ := hvalid.mpr hmem
        cases howner
      · rintro ⟨hempty, -⟩
        refine ⟨iff_of_false nofun (hempty rfl), fun e he => ?_⟩
        cases he
        exact ⟨_, rfl⟩
  | cons u us =>
      have hresult : authenticate W now (some (u :: us)) (.apikey keys)
          = if keyValid (u :: us) keys = 0 then .error (.auth "Invalid API key") else .ok (u :: us) := rfl
      rw [hresult]
      by_cases hkeys : keyValid (u :: us) keys = 0
      · rw [if_pos hkeys]
        have hnone := keyValid_eq_zero_iff.mp hkeys
        refine iff_of_true ⟨iff_of_false nofun fun hmem => hnone _ hmem rfl, fun e he => ?_⟩ ⟨nofun, fun _ _ => hnone⟩
        cases he
        exact ⟨_, rfl⟩
      · rw [if_neg hkeys]
        constructor
        · rintro ⟨hvalid, -⟩
          exact ⟨nofun, fun _ hnot => absurd (hvalid.mp ⟨_, rfl⟩) hnot⟩
        · rintro ⟨-, hregular⟩
          refine ⟨iff_of_true ⟨_, rfl⟩ ?_, nofun⟩
          by_contra hnot
          exact hkeys (keyValid_eq_zero_iff.mpr (hregular nofun hnot))

/-- The signature in a credential of three parts. -/
theorem exact_of_parts_iff {secret headerB64 payloadB64 sigB64 : JsString}
    (hsplit : credential.splitOn dot = [headerB64, payloadB64, sigB64]) :
    Exact W now credential (.jwt secret) ↔ Regular W now credential (.jwt secret) := by
  have hresult : authenticate W now (some credential) (.jwt secret)
      = if !paddedEqual (ascii (signature W secret headerB64 payloadB64)) sigB64 then
          .error (.auth "Invalid JWT signature")
        else verifyPayload W now credential payloadB64 := by
    cases credential with
    | nil => cases hsplit
    | cons u us =>
        unfold authenticate
        simp only [hsplit]
  have hpass : paddedEqual (ascii (signature W secret headerB64 payloadB64)) sigB64 = true ↔ _ :=
    paddedEqual_signature_iff fun c hc => Base64.mem_encodeUrl hc
  have hvalid : Valid W now credential (.jwt secret) ↔ sigB64 = ascii (signature W secret headerB64 payloadB64)
      ∧ Unexpired now (W.parsePayload payloadB64) := by
    unfold Valid
    rw [hsplit]
    constructor
    · rintro ⟨_, _, heq, hexp⟩
      cases heq
      exact ⟨rfl, hexp⟩
    · rintro ⟨rfl, hexp⟩
      exact ⟨_, _, rfl, hexp⟩
  have hregular : Regular W now credential (.jwt secret) ↔
      ∀ k, sigB64 = ascii (signature W secret headerB64 payloadB64 ++ List.replicate k (Char.ofNat 0)) →
        Readable W now (W.parsePayload payloadB64) ∧ (k = 0 ∨ ¬Unexpired now (W.parsePayload payloadB64)) := by
    unfold Regular
    rw [hsplit]
    constructor
    · intro h k hk
      exact h headerB64 payloadB64 k (by rw [hk])
    · intro h _ _ k heq
      cases heq
      exact h k rfl
  unfold Exact
  rw [hresult, hvalid, hregular]
  by_cases hsig : ∃ k, sigB64 = ascii (signature W secret headerB64 payloadB64 ++ List.replicate k (Char.ofNat 0))
  · rw [hpass.mpr hsig]
    obtain ⟨k, rfl⟩ := hsig
    -- the length of the text tells how many U+0000 stand at its end
    have hlen : ∀ j, ascii (signature W secret headerB64 payloadB64 ++ List.replicate k (Char.ofNat 0))
        = ascii (signature W secret headerB64 payloadB64 ++ List.replicate j (Char.ofNat 0)) → k = j := fun j hj => by
      have hcount := congrArg List.length hj
      unfold ascii at hcount
      rw [List.length_map, List.length_map, List.length_append, List.length_append, List.length_replicate,
        List.length_replicate] at hcount
      omega
    show ((∃ owner, verifyPayload W now credential payloadB64 = .ok owner) ↔ _) ∧ _ ↔ _
    rcases verifyPayload_cases W now credential payloadB64 with
      ⟨hreadable, ⟨hunexpired, owner, hok⟩ | ⟨hexpired, herror⟩⟩ | ⟨hunreadable, ⟨hexpired, owner, hok⟩ | ⟨e, herror, he⟩⟩
    · -- A payload in order: accepted, so exact only when nothing stands behind the signature.
      rw [hok]
      constructor
      · rintro ⟨haccepted, -⟩ j hj
        have hzero := hlen 0 (by rw [(haccepted.mp ⟨_, rfl⟩).1, List.replicate_zero, List.append_nil])
        exact ⟨hreadable, .inl ((hlen j hj).symm.trans hzero)⟩
      · intro h
        refine ⟨iff_of_true ⟨_, rfl⟩ ⟨?_, hunexpired⟩, nofun⟩
        rw [(h k rfl).2.resolve_right fun hnot => hnot hunexpired, List.replicate_zero, List.append_nil]
    · -- An expired one is refused with either signature.
      rw [herror]
      refine iff_of_true ⟨iff_of_false nofun fun hv => hexpired hv.2, fun e he => ?_⟩ fun _ _ => ⟨hreadable, .inr hexpired⟩
      cases he
      exact ⟨_, rfl⟩
    · -- The last two are never exact: an `exp` that is no number, and an error of another kind.
      rw [hok]
      exact iff_of_false (fun h => hexpired (h.1.mp ⟨_, rfl⟩).2) fun h => hunreadable (h k rfl).1
    · rw [herror]
      refine iff_of_false (fun h => ?_) fun h => hunreadable (h k rfl).1
      obtain ⟨message, hmessage⟩ := h.2 e rfl
      exact he message hmessage
  · have hrefused : paddedEqual (ascii (signature W secret headerB64 payloadB64)) sigB64 = false :=
      Bool.eq_false_iff.mpr fun h => hsig (hpass.mp h)
    rw [hrefused]
    refine iff_of_true ⟨iff_of_false nofun fun hv => hsig ⟨0, ?_⟩, fun e he => ?_⟩ fun k hk => absurd ⟨k, hk⟩ hsig
    · rw [hv.1, List.replicate_zero, List.append_nil]
    · cases he
      exact ⟨_, rfl⟩

theorem exact_jwt_iff (secret : JsString) :
    Exact W now credential (.jwt secret) ↔ Regular W now credential (.jwt secret) := by
  by_cases hparts : ∃ headerB64 payloadB64 sigB64, credential.splitOn dot = [headerB64, payloadB64, sigB64]
  · obtain ⟨headerB64, payloadB64, sigB64, hsplit⟩ := hparts
    exact exact_of_parts_iff W now credential hsplit
  · have hrefused : ∃ message, authenticate W now (some credential) (.jwt secret) = .error (.auth message) := by
      cases credential with
      | nil => exact ⟨_, rfl⟩
      | cons u us =>
          unfold authenticate
          dsimp only
          split
          · next hsplit => exact absurd ⟨_, _, _, hsplit⟩ hparts
          · exact ⟨_, rfl⟩
    obtain ⟨message, hmessage⟩ := hrefused
    unfold Exact
    rw [hmessage]
    refine iff_of_true ⟨iff_of_false nofun ?_, fun e he => ?_⟩ fun _ _ _ hsplit => absurd ⟨_, _, _, hsplit⟩ hparts
    · rintro ⟨_, _, hsplit, -⟩
      exact hparts ⟨_, _, _, hsplit⟩
    · cases he
      exact ⟨_, rfl⟩

/-- **Which credentials are judged exactly**: those that are like no key and no
signature but for U+0000 at the end, with payloads that can be read. -/
theorem authenticates_exactly_iff (auth : AuthConfig) : Exact W now credential auth ↔ Regular W now credential auth := by
  cases auth with
  | apikey keys => exact exact_apikey_iff W now credential keys
  | jwt secret => exact exact_jwt_iff W now credential secret

/-- A runtime whose functions are not called on API keys. -/
def sampleRuntime : Runtime := ⟨fun _ _ => [], fun _ => none, fun _ => .nan, fun _ => []⟩

/-- A key with U+0000 behind it is accepted. -/
theorem padded_key_accepted :
    ¬Exact sampleRuntime 0 (name "key-abc" ++ [0]) (.apikey [name "key-abc", name "key-xyz"]) := by
  rintro ⟨haccepted, -⟩
  have hkey : name "key-abc" ++ [0] ∈ [name "key-abc", name "key-xyz"] := haccepted.mp ⟨_, rfl⟩
  exact absurd hkey (by decide)

end Exactness

end PredictIQ.Tts.Credentials
