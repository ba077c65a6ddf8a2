/-
  PredictIQ.ApiKeys.Keys: the table `api_keys`, `rotate_api_key` and
  `verify_async`.

  Each database statement of a rotation is one command over the table, which
  is keyed by the unique `key_hash`; a rotation is the sequence of commands it
  issues, and any statement may fail before or after it takes effect.  The
  hourly clean-up and the clock act from outside.  Timestamps are microseconds
  since the epoch; the key's id is left out, as no statement reads it.
-/
import PredictIQ.Foundation.Process
import PredictIQ.Foundation.Table
import Mathlib.Data.List.Sort

namespace PredictIQ.ApiKeys

open Foundation
open Prog (call fail)

/-! ## §1. The table. -/

structure ApiKeyRecord where
  keyHash : String
  label : String
  createdAt : Int
  expiresAt : Option Int
  revokedAt : Option Int
  deriving DecidableEq

/-- `expires_at IS NOT NULL AND expires_at <= NOW()`. -/
def ApiKeyRecord.isExpired (now : Int) (key : ApiKeyRecord) : Bool :=
  key.expiresAt.any fun expiresAt => decide (expiresAt ≤ now)

/-- `revoked_at IS NULL AND (expires_at IS NULL OR expires_at > NOW())`. -/
def ApiKeyRecord.isActive (now : Int) (key : ApiKeyRecord) : Bool :=
  key.revokedAt.isNone && key.expiresAt.all fun expiresAt => decide (now < expiresAt)

abbrev Keys : Type := Store String ApiKeyRecord

/-- A new row; what is not given is the table's default. -/
def apiKeyInsert (now : Int) (keyHash label : String) (keys : Keys) : Option (ApiKeyRecord × Keys) :=
  match keys.lookup keyHash with
  | some _ => none
  | none =>
      let key : ApiKeyRecord := ⟨keyHash, label, now, none, none⟩
      some (key, keys.insert keyHash key)

def apiKeySetExpires (keyHash : String) (expiresAt : Int) (keys : Keys) : Bool × Keys :=
  match keys.lookup keyHash with
  | some key => (true, keys.insert keyHash { key with expiresAt := some expiresAt })
  | none => (false, keys)

def apiKeyValidate (now : Int) (keyHash : String) (keys : Keys) : Option ApiKeyRecord :=
  (keys.lookup keyHash).filter (·.isActive now)

def apiKeyDeleteExpired (now : Int) (keys : Keys) : Nat × Keys :=
  (keys.countWhere (·.isExpired now), keys.deleteWhere (·.isExpired now))

/-- The active keys, the newest first; those created at one time in any order. -/
def apiKeyListActive (order : RowOrder ApiKeyRecord) (now : Int) (keys : Keys) : List ApiKeyRecord :=
  (order.walk ((keys.entries.map (·.2)).filter (·.isActive now))).insertionSort fun a b =>
    b.createdAt ≤ a.createdAt

/-! ## §2. The server. -/

/-- What the service takes from other crates: SHA-256 in hexadecimal, and the
last `DateTime<Utc>`, past which an addition panics. -/
structure Crates where
  sha256Hex : String → String
  maxUtc : Int

/-- `DateTime<Utc> + Duration::days(days)`, `none` when it panics. -/
def Crates.addDays (x : Crates) (time days : Int) : Option Int :=
  let result := time + days * 86400000000
  if result ≤ x.maxUtc then some result else none

structure Backend where
  now : Int
  keys : Keys

inductive Command where
  | newRawKey
  | listActive
  | utcNowPlusDays (days : Int)
  | setExpires (keyHash : String) (expiresAt : Int)
  | insert (keyHash label : String)
  deriving DecidableEq

def Reply : Command → Type
  | .newRawKey => String
  | .listActive => List ApiKeyRecord
  | .utcNowPlusDays _ => Option Int
  | .setExpires .. => Bool
  | .insert .. => ApiKeyRecord

/-- What a command leaves open: the key that is drawn, and the order of the rows. -/
structure Choice where
  newRawKey : String
  order : RowOrder ApiKeyRecord

/-- A row that breaks the unique constraint is turned down. -/
def exec (x : Crates) (c : Choice) (b : Backend) : (q : Command) → Option (Reply q × Backend)
  | .newRawKey => some (c.newRawKey, b)
  | .listActive => some (apiKeyListActive c.order b.now b.keys, b)
  | .utcNowPlusDays days => some (x.addDays b.now days, b)
  | .setExpires keyHash expiresAt =>
      let updated := apiKeySetExpires keyHash expiresAt b.keys
      some (updated.1, { b with keys := updated.2 })
  | .insert keyHash label =>
      (apiKeyInsert b.now keyHash label b.keys).map fun inserted =>
        (inserted.1, { b with keys := inserted.2 })

/-- The statements fail; drawing a key and reading the clock do not. -/
def Command.isStatement : Command → Bool
  | .newRawKey | .utcNowPlusDays _ => false
  | .listActive | .setExpires .. | .insert .. => true

def server (x : Crates) : Server Reply Backend Choice := ⟨exec x, Command.isStatement⟩

/-- Time passes, or the clean-up runs. -/
inductive Outside where
  | tick (elapsed : Nat)
  | deleteExpired

def outside : Outside → Backend → Backend
  | .tick elapsed, b => { b with now := b.now + elapsed }
  | .deleteExpired, b => { b with keys := (apiKeyDeleteExpired b.now b.keys).2 }

/-! ## §3. Rotation. -/

abbrev ApiM (α : Type) : Type := Prog Reply String α

abbrev request (q : Command) : ApiM (Reply q) := call q

structure RotateApiKeyRequest where
  keyLabel : String
  overlapDays : Option UInt32

structure RotateApiKeyResponse where
  newKey : String
  newKeyLabel : String
  oldKeyExpiresAt : Option Int
  oldKeyLabel : Option String

/-- `body.overlap_days.unwrap_or(7).max(1) as i64`. -/
def RotateApiKeyRequest.days (body : RotateApiKeyRequest) : Int := max (body.overlapDays.getD 7).toNat 1

/-- The loop over the active keys; `old` is the expiry and the label it has set last. -/
def scheduleExpiry (keyLabel : String) (expiresAt : Int) :
    List ApiKeyRecord → Option (Int × String) → ApiM (Option (Int × String))
  | [], old => return old
  | key :: keys, old =>
      if key.label = keyLabel then do
        let _ ← request (.setExpires key.keyHash expiresAt)
        scheduleExpiry keyLabel expiresAt keys (some (expiresAt, key.label))
      else scheduleExpiry keyLabel expiresAt keys old

def rotateApiKey (x : Crates) (body : RotateApiKeyRequest) : ApiM RotateApiKeyResponse := do
  let newRawKey : String ← request .newRawKey
  let newHash := x.sha256Hex newRawKey
  let activeKeys : List ApiKeyRecord ← request .listActive
  match ← request (.utcNowPlusDays body.days) with
  | none => fail "`DateTime + TimeDelta` overflowed"
  | some expiresAt => do
      let old ← scheduleExpiry body.keyLabel expiresAt activeKeys none
      let _ ← request (.insert newHash body.keyLabel)
      return ⟨newRawKey, body.keyLabel, old.map (·.1), old.map (·.2)⟩

/-! ## §4. Verification. -/

/-- The check against the static keys. -/
def verify (validKeys : List String) (key : String) : Bool :=
  !validKeys.isEmpty && validKeys.any (· == key)

/-- The static keys first, then the database, where there is one; `dbError` is
how its query fails, if it does. -/
def verifyAsync (x : Crates) (validKeys : List String) (db : Option Backend) (dbError : Option String)
    (key : String) : Bool :=
  if verify validKeys key then true
  else
    match db, dbError with
    | none, _ => false
    | some _, some _ => false
    | some b, none => (apiKeyValidate b.now (x.sha256Hex key) b.keys).isSome

/-! ## §5. The system. -/

/-- Rotations, numbered as they come in, over one table. -/
abbrev System : Type := Machine Nat Reply String Backend

abbrev Action : Type := Act Nat RotateApiKeyRequest String Choice Outside

def body (x : Crates) (_ : Nat) (req : RotateApiKeyRequest) : ApiM Unit := do
  let _ ← rotateApiKey x req

def System.step (x : Crates) : System → Action → System := Machine.step (server x) (body x) outside

/-! ## §6. What one step does to one row. -/

section Rows

variable {x : Crates} {b b' : Backend} {h : String}

theorem lookup_setExpires (h' : String) (e : Int) (keys : Keys) :
    (apiKeySetExpires h' e keys).2.lookup h
      = (keys.lookup h).map fun key => if h = h' then { key with expiresAt := some e } else key := by
  unfold apiKeySetExpires
  by_cases hh : h = h'
  · subst hh
    cases hrow : keys.lookup h <;> simp [hrow]
  · cases hrow : keys.lookup h' <;> simp [hh]

theorem lookup_insert {now : Int} {h' label : String} {keys keys' : Keys} {key : ApiKeyRecord}
    (hins : apiKeyInsert now h' label keys = some (key, keys')) :
    keys.lookup h' = none ∧ key = ⟨h', label, now, none, none⟩
      ∧ keys'.lookup h = if h = h' then some key else keys.lookup h := by
  unfold apiKeyInsert at hins
  split at hins
  · cases hins
  · rename_i hfree
    cases hins
    exact ⟨hfree, rfl, Store.lookup_insert_eq ..⟩

theorem lookup_deleteExpired (now : Int) (keys : Keys) :
    (apiKeyDeleteExpired now keys).2.lookup h = (keys.lookup h).filter fun key => !key.isExpired now :=
  Store.lookup_deleteWhere ..

/-- **What one command does to the keys.** -/
theorem keys_of_exec {c : Choice} {q : Command} {v : Reply q} (hexec : exec x c b q = some (v, b')) :
    b'.now = b.now ∧ (b'.keys = b.keys
      ∨ (∃ h e, q = .setExpires h e ∧ b'.keys = (apiKeySetExpires h e b.keys).2)
      ∨ ∃ h label key, q = .insert h label ∧ apiKeyInsert b.now h label b.keys = some (key, b'.keys)) := by
  cases q with
  | newRawKey =>
      cases hexec
      exact ⟨rfl, .inl rfl⟩
  | listActive =>
      cases hexec
      exact ⟨rfl, .inl rfl⟩
  | utcNowPlusDays days =>
      cases hexec
      exact ⟨rfl, .inl rfl⟩
  | setExpires h e =>
      cases hexec
      exact ⟨rfl, .inr (.inl ⟨h, e, rfl, rfl⟩)⟩
  | insert h label =>
      obtain ⟨⟨key, keys⟩, hins, heq⟩ := Option.map_eq_some_iff.mp hexec
      cases heq
      exact ⟨rfl, .inr (.inr ⟨h, label, key, rfl, hins⟩)⟩

end Rows

/-! ## §7. A small deployment. -/

def sampleKey1 : String := "aa0682f44e614f3a80d7bd6d39e19b5e721c77f23eee408a953e4b72b59a2d5b"

def sampleKey2 : String := "f5a9618536384861ac93c841bcc193c33ccbfd63a653454fb769e5eace0c27a3"

def sampleKey3 : String := "cf32f48e518040e6ab1ed368c5298bba8e64c478b02f489098b387b8a62f228b"

def sampleHash1 : String := "4aa4165484b5d5455ba62154b4c540b321f541191ccb0f64436ddaeb41fad50a"

def sampleHash2 : String := "b22c34e52df1dbefc202c50b3fc45803360b5b47d5aa80636f27677726a0bf38"

def sampleHash3 : String := "8f1ee5edeada128605ca34f6633bf55854d45e299620b3cc83bd05ee291a6c32"

/-- SHA-256 on the sample keys, and the last time of the year 262142. -/
def sampleCrates : Crates where
  sha256Hex key :=
    if key = sampleKey1 then sampleHash1 else if key = sampleKey2 then sampleHash2 else sampleHash3
  maxUtc := 8210266876799999999

def sampleBackend : Backend := ⟨1750000000000000, ∅⟩

/-- Answer `n` questions of process `p`, drawing `newRawKey` if asked to. -/
def sampleAnswers (p : Nat) (newRawKey : String) (n : Nat) : List Action :=
  List.replicate n (.answer p ⟨newRawKey, .asStored _⟩)

/-- Rotation `p` of the label `ci`, with its `n` commands, to its end. -/
def sampleRotation (p : Nat) (newRawKey : String) (n : Nat) : List Action :=
  .start p ⟨"ci", none⟩ :: sampleAnswers p newRawKey n

def sampleDay : Action := .outside (.tick 86400000000)

end PredictIQ.ApiKeys
