/-
  PredictIQ.Api.BodyRedact: sensitive members of logged bodies,
  `redact_sensitive` of `body_redact.rs`.

  Reading and writing JSON is serde_json's, a parameter: it keeps of members
  with one key the last, in the order of the keys, and reads nothing that is
  nested 128 deep.  How a character of a key lower-cases is a parameter too.

  `hide` is what redaction is for, at every depth; the code stops at arrays.
-/
import PredictIQ.Email.WebhookText
import PredictIQ.Foundation.Json

namespace PredictIQ.BodyRedact

open Foundation
open WebhookText (toLowercase)

/-! ## §1. The function. -/

def sensitiveFields : List String :=
  ["password", "password_confirmation", "passwd", "pwd", "token", "access_token", "refresh_token", "bearer",
    "authorization", "auth_token", "session_token", "api_key", "api_secret", "secret", "client_secret", "private_key",
    "private_secret", "signing_key", "hmac_key", "credit_card", "creditcard", "card_number", "cvv", "cvc", "ssn",
    "social_security", "tin", "ein", "bank_account", "routing_number", "account_number", "email", "phone",
    "phone_number", "mobile", "dob", "date_of_birth", "birthdate", "drivers_license", "passport", "identity_number",
    "oauth_token", "jwt", "jti", "nonce", "signature", "signed_request", "webhook_secret"]

def REDACTED : String := "[REDACTED]"

/-- Nested 128 deep is too deep for serde_json. -/
def RECURSION_LIMIT : Nat := 128

/-- serde_json: which texts are of which value, and how it reads and writes. -/
structure SerdeJson (N : Type) where
  writes : Json N → String → Prop
  fromStr : String → Option (Json N)
  toString : Json N → String
  writes_unique : ∀ v v' text, writes v text → writes v' text → v = v'
  fromStr_of_writes : ∀ v text, writes v text → fromStr text = if v.depth < RECURSION_LIMIT then some v.value else none
  writes_toString : ∀ v, writes v (toString v)

section Functions

variable {N : Type} (lowerChar : Char → List Char)

def isSensitive (key : String) : Bool :=
  sensitiveFields.any fun s => decide (s.toList <:+: toLowercase lowerChar key.toList)

mutual

/-- A key is set to another value, and a nested object is redacted. -/
def redactMap : List (String × Json N) → List (String × Json N)
  | [] => []
  | (key, v) :: map => (key, if isSensitive lowerChar key then .string REDACTED else redactNested v) :: redactMap map

def redactNested : Json N → Json N
  | .object nested => .object (redactMap nested)
  | v => v

end

def redactSensitive (S : SerdeJson N) (body : String) : String :=
  match S.fromStr body with
  | some (.object map) => S.toString (.object (redactMap lowerChar map))
  | _ => body

end Functions

/-! ## §2. What is claimed of it. -/

section Claims

variable {N : Type} (lowerChar : Char → List Char)

mutual

/-- Every sensitive member redacted, through objects and arrays. -/
def hide : Json N → Json N
  | .array items => .array (hideItems items)
  | .object members => .object (hideMembers members)
  | v => v

def hideItems : List (Json N) → List (Json N)
  | [] => []
  | v :: items => hide v :: hideItems items

def hideMembers : List (String × Json N) → List (String × Json N)
  | [] => []
  | (key, v) :: members => (key, if isSensitive lowerChar key then .string REDACTED else hide v) :: hideMembers members

end

/-- Every sensitive member, at any depth, has the redacted value. -/
inductive Hidden : Json N → Prop
  | null : Hidden .null
  | bool (b : Bool) : Hidden (.bool b)
  | number (n : N) : Hidden (.number n)
  | string (s : String) : Hidden (.string s)
  | array {items : List (Json N)} : (∀ v ∈ items, Hidden v) → Hidden (.array items)
  | object {members : List (String × Json N)} :
      (∀ m ∈ members, isSensitive lowerChar m.1 = true → m.2 = .string REDACTED) →
      (∀ m ∈ members, isSensitive lowerChar m.1 = false → Hidden m.2) → Hidden (.object members)

/-- Arrays hold no sensitive member with another value; the values of
sensitive members do not count. -/
inductive ArraysHidden : Json N → Prop
  | null : ArraysHidden .null
  | bool (b : Bool) : ArraysHidden (.bool b)
  | number (n : N) : ArraysHidden (.number n)
  | string (s : String) : ArraysHidden (.string s)
  | array {items : List (Json N)} : (∀ v ∈ items, Hidden lowerChar v) → ArraysHidden (.array items)
  | object {members : List (String × Json N)} :
      (∀ m ∈ members, isSensitive lowerChar m.1 = false → ArraysHidden m.2) → ArraysHidden (.object members)

/-- For every text of a value: the text that it is redacted to has the value
with every sensitive member redacted and no other part changed, shows no other
value of a sensitive member, and is redacted to itself. -/
def RedactsEverywhere (S : SerdeJson N) (v : Json N) : Prop :=
  ∀ text, S.writes v text →
    (∃ r, S.writes r (redactSensitive lowerChar S text) ∧ Hidden lowerChar r ∧ r.value = hide lowerChar v.value)
      ∧ redactSensitive lowerChar S (redactSensitive lowerChar S text) = redactSensitive lowerChar S text

/-- An object that is read, without a sensitive member in an array; or a value
that is logged as it is, without one anywhere. -/
def Redactable (v : Json N) : Prop :=
  if v.isObject = true ∧ v.depth < RECURSION_LIMIT then ArraysHidden lowerChar v.value else Hidden lowerChar v

end Claims

/-! ## §3. Redacted values. -/

section Values

variable {N : Type} {lowerChar : Char → List Char} {v : Json N}

theorem map_eq_self_iff {α : Type} {f : α → α} {xs : List α} : xs.map f = xs ↔ ∀ x ∈ xs, f x = x := by
  conv_lhs => rhs; rw [← List.map_id xs]
  exact List.map_inj_left

theorem redactMap_eq (map : List (String × Json N)) : redactMap lowerChar map
    = map.map fun m => (m.1, if isSensitive lowerChar m.1 then .string REDACTED else redactNested lowerChar m.2) := by
  induction map with
  | nil => rfl
  | cons m map ih => rw [redactMap, List.map_cons, ih]

theorem hideItems_eq (items : List (Json N)) : hideItems lowerChar items = items.map (hide lowerChar) := by
  induction items with
  | nil => rfl
  | cons v items ih => rw [hideItems, List.map_cons, ih]

theorem hideMembers_eq (members : List (String × Json N)) : hideMembers lowerChar members
    = members.map fun m => (m.1, if isSensitive lowerChar m.1 then .string REDACTED else hide lowerChar m.2) := by
  induction members with
  | nil => rfl
  | cons m members ih => rw [hideMembers, List.map_cons, ih]

/-- **A value is hidden** when there is nothing to hide in it. -/
theorem hidden_iff : Hidden lowerChar v ↔ hide lowerChar v = v := by
  induction v with
  | null => exact iff_of_true .null rfl
  | bool b => exact iff_of_true (.bool b) rfl
  | number n => exact iff_of_true (.number n) rfl
  | string s => exact iff_of_true (.string s) rfl
  | array items ih =>
      rw [hide, hideItems_eq, Json.array.injEq, map_eq_self_iff]
      constructor
      · rintro (_ | _ | _ | _ | hitems | _) v hv
        exact (ih v hv).mp (hitems v hv)
      · exact fun h => .array fun v hv => (ih v hv).mpr (h v hv)
  | object members ih =>
      rw [hide, hideMembers_eq, Json.object.injEq, map_eq_self_iff]
      constructor
      · rintro (_ | _ | _ | _ | _ | ⟨hsensitive, hother⟩) m hm
        cases hkey : isSensitive lowerChar m.1 with
        | true => rw [if_pos rfl, ← hsensitive m hm hkey]
        | false => rw [if_neg Bool.false_ne_true, (ih m hm).mp (hother m hm hkey)]
      · intro h
        refine .object (fun m hm hkey => ?_) fun m hm hkey => (ih m hm).mpr ?_
        · have hm' := congrArg Prod.snd (h m hm)
          rw [hkey, if_pos rfl] at hm'
          exact hm'.symm
        · have hm' := congrArg Prod.snd (h m hm)
          rwa [hkey, if_neg Bool.false_ne_true] at hm'

theorem hidden_hide (v : Json N) : Hidden lowerChar (hide lowerChar v) := by
  induction v with
  | null => exact .null
  | bool b => exact .bool b
  | number n => exact .number n
  | string s => exact .string s
  | array items ih =>
      rw [hide, hideItems_eq]
      refine .array fun v hv => ?_
      obtain ⟨v', hv', rfl⟩ := List.mem_map.mp hv
      exact ih v' hv'
  | object members ih =>
      rw [hide, hideMembers_eq]
      refine .object (fun m hm hkey => ?_) fun m hm hkey => ?_
      · obtain ⟨m', hm', rfl⟩ := List.mem_map.mp hm
        exact if_pos hkey
      · obtain ⟨m', hm', rfl⟩ := List.mem_map.mp hm
        show Hidden lowerChar (if isSensitive lowerChar m'.1 then _ else _)
        rw [if_neg (Bool.eq_false_iff.mp hkey)]
        exact ih m' hm'

/-- **Redaction hides everything** exactly when arrays have nothing to hide. -/
theorem redactNested_eq_hide_iff : redactNested lowerChar v = hide lowerChar v ↔ ArraysHidden lowerChar v := by
  induction v with
  | null => exact iff_of_true rfl .null
  | bool b => exact iff_of_true rfl (.bool b)
  | number n => exact iff_of_true rfl (.number n)
  | string s => exact iff_of_true rfl (.string s)
  | array items _ =>
      -- `redact_map` puts an array back as it is, whatever is in it
      have hitems : redactNested lowerChar (.array items) = hide lowerChar (.array items)
          ↔ Hidden lowerChar (.array items) := eq_comm.trans hidden_iff.symm
      rw [hitems]
      constructor
      · rintro (_ | _ | _ | _ | hitems | _)
        exact .array hitems
      · rintro (_ | _ | _ | _ | hitems | _)
        exact .array hitems
  | object members ih =>
      rw [redactNested, hide, redactMap_eq, hideMembers_eq, Json.object.injEq, List.map_inj_left]
      constructor
      · refine fun h => .object fun m hm hkey => (ih m hm).mp ?_
        have hm' := congrArg Prod.snd (h m hm)
        rwa [hkey, if_neg Bool.false_ne_true, if_neg Bool.false_ne_true] at hm'
      · rintro (_ | _ | _ | _ | _ | hmembers) m hm
        cases hkey : isSensitive lowerChar m.1 with
        | true => rfl
        | false =>
            rw [if_neg Bool.false_ne_true, if_neg Bool.false_ne_true, (ih m hm).mpr (hmembers m hm hkey)]

/-- Redaction keeps the keys, and does so with what it has redacted. -/
theorem redactNested_spec (h : v.Normal) : (redactNested lowerChar v).Normal
    ∧ (redactNested lowerChar v).depth ≤ v.depth
    ∧ redactNested lowerChar (redactNested lowerChar v) = redactNested lowerChar v := by
  induction v with
  | null | bool b | number n | string s | array items _ => exact ⟨h, Nat.le_refl _, rfl⟩
  | object members ih =>
      obtain _ | _ | _ | _ | _ | ⟨hkeys, hmembers⟩ := h
      have hfst : (redactMap lowerChar members).map Prod.fst = members.map Prod.fst := by
        rw [redactMap_eq, List.map_map]
        rfl
      rw [redactNested]
      refine ⟨.object (hfst ▸ hkeys) fun m hm => ?_, ?_, ?_⟩
      -- the members' values, how deep they are, and that they stay
      · rw [redactMap_eq] at hm
        obtain ⟨m', hm', rfl⟩ := List.mem_map.mp hm
        show (if isSensitive lowerChar m'.1 then _ else _ : Json N).Normal
        split
        · exact .string REDACTED
        · exact (ih m' hm' (hmembers m' hm')).1
      · refine Nat.succ_le_succ (Json.depthMembers_le_iff.mpr fun m hm => ?_)
        rw [redactMap_eq] at hm
        obtain ⟨m', hm', rfl⟩ := List.mem_map.mp hm
        show (if isSensitive lowerChar m'.1 then _ else _ : Json N).depth ≤ _
        have hdepth := Json.depthMembers_le_iff.mp (Nat.le_refl _) m' hm'
        split
        · exact Nat.zero_le _
        · exact (ih m' hm' (hmembers m' hm')).2.1.trans hdepth
      · rw [redactNested, redactMap_eq (redactMap lowerChar members), redactMap_eq members, List.map_map]
        refine congrArg Json.object (List.map_congr_left fun m hm => ?_)
        show (m.1, if isSensitive lowerChar m.1 then _ else
          redactNested lowerChar (if isSensitive lowerChar m.1 then _ else _)) = _
        split
        · rfl
        · rw [(ih m hm (hmembers m hm)).2.2]

/-- What a reader keeps of a hidden value is hidden. -/
theorem Hidden.value (h : Hidden lowerChar v) : Hidden lowerChar v.value := by
  induction v with
  | null | bool b | number n | string s => exact h
  | array items ih =>
      obtain _ | _ | _ | _ | hitems | _ := h
      rw [Json.value, Json.valueItems_eq]
      refine .array fun v hv => ?_
      obtain ⟨v', hv', rfl⟩ := List.mem_map.mp hv
      exact ih v' hv' (hitems v' hv')
  | object members ih =>
      obtain _ | _ | _ | _ | _ | ⟨hsensitive, hother⟩ := h
      refine .object (fun m hm hkey => ?_) fun m hm hkey => ?_
      · rcases Json.mem_valueMembers hm with hm | ⟨m', hm', rfl⟩
        · cases hm
        · exact congrArg Json.value (hsensitive m' hm' hkey)
      · rcases Json.mem_valueMembers hm with hm | ⟨m', hm', rfl⟩
        · cases hm
        · exact ih m' hm' (hother m' hm' hkey)

end Values

/-! ## §4. When everything is redacted. -/

section Results

variable {N : Type} (lowerChar : Char → List Char) (S : SerdeJson N) {v : Json N} {text : String}

/-- **What is done with a text**: an object that is read is redacted, and any
other is logged as it is. -/
theorem redactSensitive_of_writes (h : S.writes v text) : redactSensitive lowerChar S text
    = if v.isObject = true ∧ v.depth < RECURSION_LIMIT then S.toString (redactNested lowerChar v.value) else text := by
  unfold redactSensitive
  rw [S.fromStr_of_writes v text h]
  by_cases hdepth : v.depth < RECURSION_LIMIT
  · rw [if_pos hdepth]
    cases v with
    | object members => simp only [Json.isObject, hdepth, true_and, if_true, Json.value, redactNested]
    | null | bool b | number n | string s | array items =>
        simp only [Json.isObject, Bool.false_eq_true, false_and, if_false, Json.value]
  · rw [if_neg hdepth, if_neg fun hboth => hdepth hboth.2]

end Results

/-! ## §5. A password in a list. -/

/-- JSON without numbers and white space. -/
def compactJson : SerdeJson Empty where
  writes v text := text = Json.writeText v
  fromStr text := (Json.readText text).bind fun v => if v.depth < RECURSION_LIMIT then some v.value else none
  toString := Json.writeText
  writes_unique v v' text h h' := by
    have hread := Json.readText_writeText v
    rw [← h, h', Json.readText_writeText v'] at hread
    exact (Option.some.inj hread).symm
  fromStr_of_writes v text h := by
    rw [h, Json.readText_writeText]
    rfl
  writes_toString _ := rfl

/-- An object in an array keeps its password. -/
def usersBody : Json Empty := .object [("users", .array [.object [("password", .string "s3cr3t")]])]

end PredictIQ.BodyRedact
