/-
  PredictIQ.Cache.RedisCache: the Redis cache of the API.

  `Command` is what a request asks of the cache and of the world around it:
  the atomics of the circuit breaker, the clock, Redis, and whatever a fetcher
  calls.  On it stand `exec` with its retries, the single-command operations,
  and `getOrSetJson` with its lock and its polls.

  A `Setting` gives what the cache is generic over: the types that are cached,
  how serde reads and writes them, and the world the fetchers ask.  Metrics
  and logs are left out.
-/
import PredictIQ.Foundation.Process
import PredictIQ.Foundation.Store

namespace PredictIQ.Cache

open Foundation

/-! ## §1. What is cached. -/

/-- An entry with the metadata of XFetch: when its value expires, in seconds,
and how long it took to compute, in milliseconds. -/
structure CachedEntry (T : Type) where
  value : T
  expiresAt : Int
  deltaMs : Nat

/-- How serde writes a type, and reads it back. -/
structure Serde (Text T : Type) where
  toString : T → Except String Text
  fromStr : Text → Except String T

/-- The value alone, or an entry that holds it: the two formats of the cache. -/
inductive Format (Code : Type) where
  | plain (i : Code)
  | entry (i : Code)

/-- The cached types `Val i` with their two formats, and what fetchers call. -/
structure Setting where
  Text : Type
  Code : Type
  Val : Code → Type
  plain : ∀ i, Serde Text (Val i)
  entry : ∀ i, Serde Text (CachedEntry (Val i))
  ofInt : Int → Text
  toInt : Text → Option Int
  Question : Type
  Answer : Question → Type
  World : Type
  Choice : Type
  answer : Choice → World → (q : Question) → Option (Answer q × World)
  fallible : Question → Bool
  /-- What one `SCAN` from a cursor finds of the matching keys, and where the next one goes on. -/
  scan : Choice → Nat → List String → Nat × List String := fun _ _ found => (0, found)

namespace Setting

variable (W : Setting)

/-- What a format holds. -/
@[reducible] def Held : Format W.Code → Type
  | .plain i => W.Val i
  | .entry i => CachedEntry (W.Val i)

/-- How serde treats a format. -/
def serde : (f : Format W.Code) → Serde W.Text (W.Held f)
  | .plain i => W.plain i
  | .entry i => W.entry i

/-- What a `GET` has found, read as a format. -/
def parse (f : Format W.Code) : Option W.Text → Except String (Option (W.Held f))
  | some raw => ((W.serde f).fromStr raw).map some
  | none => .ok none

end Setting

/-! ## §2. Commands. -/

/-- One step of a request.  The format that a text is read as goes with its
`GET`; Redis does not look at it. -/
inductive Command (W : Setting) where
  | nowMs
  | sleep (ms : Nat)
  | loadOpenedAt
  | storeOpenedAt (ms : Nat)
  | fetchAddFailureCount
  | storeFailureCount (n : UInt32)
  | xfetchScore (deltaMs : Nat) (ttlRemaining : Int)
  | poolGet
  | get (key : String) (format : Format W.Code)
  | setEx (key : String) (text : W.Text) (seconds : Nat)
  | setNxEx (key : String) (text : W.Text) (seconds : Nat)
  | del (key : String)
  | incrWithTtl (key : String) (seconds : Nat)
  | tagStoreInvalidate (keys : List String)
  | scan (cursor : Nat) (start : String)
  | delKeys (keys : List String)
  | outside (q : W.Question)

@[reducible] def Reply {W : Setting} : Command W → Type
  | .nowMs => Nat
  | .loadOpenedAt => Nat
  | .fetchAddFailureCount => UInt32
  | .xfetchScore .. => Bool
  | .get .. => Option W.Text
  | .setNxEx .. => Bool
  | .del _ => Nat
  | .incrWithTtl .. => Int
  | .scan .. => Nat × List String
  | .delKeys _ => Nat
  | .outside q => W.Answer q
  | _ => Unit

/-- A key with the millisecond it expires. -/
structure KeyEntry (Text : Type) where
  text : Text
  expiresAtMs : Nat

/-- The clock, the two atomics of the circuit breaker, the keys of Redis, and
the world that fetchers ask. -/
structure Backend (W : Setting) where
  nowMs : Nat
  failureCount : UInt32 := 0
  openedAtMs : Nat := 0
  keys : Store String (KeyEntry W.Text) := ∅
  world : W.World

/-- What is left open: whether XFetch draws an early refresh, and the world's answer. -/
structure Choice (W : Setting) where
  refresh : Bool
  world : W.Choice

namespace Backend

variable {W : Setting} (b : Backend W)

/-- The text of a key that has not expired. -/
def get (key : String) : Option W.Text :=
  match b.keys.lookup key with
  | some e => if b.nowMs < e.expiresAtMs then some e.text else none
  | none => none

def setEx (key : String) (text : W.Text) (seconds : Nat) : Backend W :=
  { b with keys := b.keys.insert key ⟨text, b.nowMs + 1000 * seconds⟩ }

def del (key : String) : Backend W := { b with keys := b.keys.erase key }

/-- The keys that start with a text; the patterns of the cache are such a text and a `*`. -/
def matching (start : String) : List String :=
  b.keys.keys.filter fun key => (b.get key).isSome && start.toList.isPrefixOf key.toList

/-- The script of `incr_with_ttl`: the increment that makes a key 1 sets its expiry. -/
def incrWithTtl (key : String) (seconds : Nat) : Option (Int × Backend W) :=
  match b.keys.lookup key with
  | some e =>
      if b.nowMs < e.expiresAtMs then
        match W.toInt e.text with
        | some n =>
            if n + 1 = 1 then some (1, b.setEx key (W.ofInt 1) seconds)
            else if n + 1 < 2 ^ 63 then
              some (n + 1, { b with keys := b.keys.insert key ⟨W.ofInt (n + 1), e.expiresAtMs⟩ })
            else none
        | none => none
      else some (1, b.setEx key (W.ofInt 1) seconds)
  | none => some (1, b.setEx key (W.ofInt 1) seconds)

end Backend

/-- One command, `none` when it is turned down: an expiry of zero seconds, an
increment of what is no number, or what the world does not answer.  The tag
metadata is written under keys that nothing reads. -/
def exec {W : Setting} (c : Choice W) (b : Backend W) : (q : Command W) → Option (Reply q × Backend W)
  | .nowMs => some (b.nowMs, b)
  | .sleep _ => some ((), b)
  | .loadOpenedAt => some (b.openedAtMs, b)
  | .storeOpenedAt ms => some ((), { b with openedAtMs := ms })
  | .fetchAddFailureCount => some (b.failureCount, { b with failureCount := b.failureCount + 1 })
  | .storeFailureCount n => some ((), { b with failureCount := n })
  | .xfetchScore .. => some (c.refresh, b)
  | .poolGet => some ((), b)
  | .get key _ => some (b.get key, b)
  | .setEx key text seconds => if seconds = 0 then none else some ((), b.setEx key text seconds)
  | .setNxEx key text seconds =>
      if seconds = 0 then none
      else match b.get key with
        | some _ => some (false, b)
        | none => some (true, b.setEx key text seconds)
  | .del key => some (if (b.get key).isSome then 1 else 0, b.del key)
  | .incrWithTtl key seconds => b.incrWithTtl key seconds
  | .tagStoreInvalidate _ => some ((), b)
  | .scan cursor start => some (W.scan c.world cursor (b.matching start), b)
  | .delKeys keys => some (keys.countP fun key => (b.get key).isSome, { b with keys := b.keys.eraseAll keys })
  | .outside q => (W.answer c.world b.world q).map fun r => (r.1, { b with world := r.2 })

/-- The commands that Redis or its pool answers. -/
def Command.isRedis {W : Setting} : Command W → Bool
  | .poolGet | .get .. | .setEx .. | .setNxEx .. | .del _ | .incrWithTtl .. | .tagStoreInvalidate _
  | .scan .. | .delKeys _ => true
  | _ => false

def fallible {W : Setting} : Command W → Bool
  | .outside q => W.fallible q
  | q => q.isRedis

/-- The server that the requests of the API share. -/
def server (W : Setting) : Server (Reply (W := W)) (Backend W) (Choice W) := ⟨exec, fallible⟩

abbrev CacheM (W : Setting) : Type → Type := Prog (Reply (W := W)) String

abbrev ask {W : Setting} (q : Command W) : CacheM W (Reply q) := Prog.call q

/-! ## §3. The circuit breaker, and `exec`. -/

inductive CircuitState where
  | closed | opened | halfOpen
  deriving DecidableEq, Repr

def lockKey (key : String) : String := "stampede_lock:" ++ key

structure RedisCacheConfig where
  cbThreshold : UInt32
  cbResetTimeoutMs : Nat
  retryAttempts : Nat
  retryBaseDelayMs : Nat

namespace RedisCacheConfig

variable {W : Setting} (cfg : RedisCacheConfig)

/-- The state of a circuit that was opened at a time; zero means that it was not. -/
def state (openedAt now : Nat) : CircuitState :=
  if openedAt = 0 then .closed
  else if cfg.cbResetTimeoutMs ≤ now - openedAt then .halfOpen
  else .opened

/-- The circuit is closed or half-open. -/
def allow : CacheM W Bool := do
  let openedAt ← ask .loadOpenedAt
  if openedAt = 0 then return true
  let now ← ask .nowMs
  return cfg.state openedAt now != .opened

def recordSuccess : CacheM W Unit := do
  ask (.storeFailureCount 0)
  ask (.storeOpenedAt 0)

def recordFailure : CacheM W Unit := do
  let prev ← ask .fetchAddFailureCount
  if cfg.cbThreshold ≤ prev + 1 then
    let openedAt ← ask .loadOpenedAt
    if openedAt = 0 then
      let now ← ask .nowMs
      ask (.storeOpenedAt now)

/-- One attempt: an error is counted, and handed on. -/
def tryOnce {α : Type} (op : CacheM W α) (again : String → CacheM W α) : CacheM W α := do
  match ← (ask .poolGet).attempt with
  | .error e =>
      cfg.recordFailure
      again ("pool acquire: " ++ e)
  | .ok _ =>
      match ← op.attempt with
      | .ok v =>
          recordSuccess
          return v
      | .error e =>
          cfg.recordFailure
          again e

/-- The attempts of `exec` from number `attempt` on, `left` in all. -/
def attempts {α : Type} (op : CacheM W α) : (attempt left : Nat) → String → CacheM W α
  | _, 0, lastErr => Prog.fail lastErr
  | attempt, left + 1, _ => do
      if attempt > 0 then
        ask (.sleep (cfg.retryBaseDelayMs * 2 ^ min (attempt - 1) 4))
      cfg.tryOnce op fun lastErr => attempts op (attempt + 1) left lastErr

/-- Run `op` with retries, under the circuit breaker. -/
def exec {α : Type} (op : CacheM W α) : CacheM W α := do
  if ← cfg.allow then cfg.attempts op 0 (cfg.retryAttempts + 1) "no attempts made"
  else Prog.fail "Redis circuit breaker is open"

/-! ## §4. Operations. -/

/-- The error of serde ends the request as one of its own. -/
def ofSerde {α : Type} (r : Except String α) : CacheM W α := .done r

def getJson (f : Format W.Code) (key : String) : CacheM W (Option (W.Held f)) :=
  cfg.exec do
    let val ← ask (.get key f)
    ofSerde (W.parse f val)

def setJson (i : W.Code) (key : String) (value : W.Val i) (ttl : Nat) : CacheM W Unit := do
  let raw ← ofSerde ((W.plain i).toString value)
  cfg.exec (ask (.setEx key raw ttl))

def del (key : String) : CacheM W Unit :=
  cfg.exec do
    let _ ← ask (.del key)

def incrWithTtl (key : String) (ttl : Nat) : CacheM W Int := cfg.exec (ask (.incrWithTtl key ttl))

/-- The metadata of a tag with keys. -/
def tagStoreInvalidate (tagKeys : List String) : CacheM W Unit :=
  if tagKeys.isEmpty then return () else cfg.exec (ask (.tagStoreInvalidate tagKeys))

/-- Delete keys one by one, and count them; an error ends it. -/
def delAll : (keys : List String) → (deleted : Nat) → CacheM W Nat
  | [], deleted => return deleted
  | key :: keys, deleted => do
      cfg.del key
      delAll keys (deleted + 1)

/-- Delete the keys of a tag. -/
def invalidateTag (tagKeys : List String) : CacheM W Nat := do
  cfg.tagStoreInvalidate tagKeys
  cfg.delAll tagKeys 0

/-- One batch of keys that start with a text: a `SCAN`, and a `DEL` of what it finds. -/
def scanBatch (cursor : Nat) (start : String) : CacheM W (Nat × Nat) := do
  let found ← ask (.scan cursor start)
  if found.2.isEmpty then return (found.1, 0)
  let deleted ← ask (.delKeys found.2)
  return (found.1, deleted)

/-- Batch after batch until the cursor is back at zero; `none` when that takes more than `rounds`. -/
def scanBatches (start : String) : (rounds cursor totalDeleted : Nat) → CacheM W (Option Nat)
  | 0, _, _ => return none
  | rounds + 1, cursor, totalDeleted => do
      let batch ← cfg.exec (scanBatch cursor start)
      if batch.1 = 0 then return some (totalDeleted + batch.2)
      scanBatches start rounds batch.1 (totalDeleted + batch.2)

def delByPattern (start : String) (rounds : Nat) : CacheM W (Option Nat) := do
  if ← cfg.allow then cfg.scanBatches start rounds 0 0
  else Prog.fail "Redis circuit breaker is open"

/-! ## §5. Fetch or set, with protection against stampedes. -/

/-- The entry has expired, or XFetch draws an early refresh. -/
def xfetchShouldRefresh {T : Type} (entry : CachedEntry T) : CacheM W Bool := do
  let now ← ask .nowMs
  let ttlRemaining := entry.expiresAt - (now / 1000 : Nat)
  if ttlRemaining ≤ 0 then return true
  ask (.xfetchScore entry.deltaMs ttlRemaining)

/-- What an operation has found; an error counts as nothing. -/
def okSome {α : Type} (p : CacheM W (Option α)) : CacheM W (Option α) := do
  match ← p.attempt with
  | .ok found => return found
  | .error _ => return none

/-- An entry that needs no refresh, or a value without metadata. -/
def cachedValue (i : W.Code) (key : String) : CacheM W (Option (W.Val i)) := do
  match ← okSome (cfg.getJson (.entry i) key) with
  | some entry => if ← xfetchShouldRefresh entry then return none else return some entry.value
  | none => okSome (cfg.getJson (.plain i) key)

/-- The lock is taken; an error counts as one that is not. -/
def lockAcquired (key : String) : CacheM W Bool := do
  match ← (cfg.exec (ask (.setNxEx (lockKey key) (W.ofInt 1) 10))).attempt with
  | .ok acquired => return acquired
  | .error _ => return false

/-- The entry outlives its value by thirty seconds. -/
def setEntry (i : W.Code) (key : String) (entry : CachedEntry (W.Val i)) (ttl : Nat) : CacheM W Unit := do
  let raw ← ofSerde ((W.entry i).toString entry)
  cfg.exec (ask (.setEx key raw (ttl + 30)))

/-- The holder of the lock recomputes the value, stores it and releases the lock. -/
def recompute (i : W.Code) (key : String) (ttl : Nat) (fetcher : CacheM W (W.Val i)) :
    CacheM W (W.Val i × Bool) := do
  let start ← ask .nowMs
  let value ← fetcher
  let finish ← ask .nowMs
  let now ← ask .nowMs
  let entry : CachedEntry (W.Val i) := ⟨value, (now / 1000 : Nat) + ttl, finish - start⟩
  let _ ← (cfg.setEntry i key entry ttl).attempt
  let _ ← (cfg.del (lockKey key)).attempt
  return (value, false)

/-- Poll for the value of another request, `n` times at most. -/
def poll (i : W.Code) (key : String) : (n : Nat) → CacheM W (Option (W.Val i))
  | 0 => return none
  | n + 1 => do
      ask (.sleep 50)
      match ← okSome (cfg.getJson (.entry i) key) with
      | some entry => return some entry.value
      | none =>
          match ← okSome (cfg.getJson (.plain i) key) with
          | some value => return some value
          | none => if ← cfg.allow then poll i key n else return none

/-- Wait for the holder of the lock, and call the fetcher when that takes too long. -/
def await (i : W.Code) (key : String) (ttl : Nat) (fetcher : CacheM W (W.Val i)) :
    CacheM W (W.Val i × Bool) := do
  match ← cfg.poll i key 20 with
  | some value => return (value, false)
  | none =>
      let value ← fetcher
      let _ ← (cfg.setJson i key value ttl).attempt
      return (value, false)

def getOrSetJson (i : W.Code) (key : String) (ttl : Nat) (fetcher : CacheM W (W.Val i)) :
    CacheM W (W.Val i × Bool) := do
  if ← cfg.allow then
    match ← cfg.cachedValue i key with
    | some value => return (value, true)
    | none => if ← cfg.lockAcquired key then cfg.recompute i key ttl fetcher else cfg.await i key ttl fetcher
  else
    let value ← fetcher
    return (value, false)

end RedisCacheConfig

/-! ## §6. Requests side by side. -/

section Machines

variable {W : Setting}

/-- The requests are numbered. -/
abbrev System (W : Setting) : Type := Machine Nat (Reply (W := W)) String (Backend W)

/-- Outside the API time passes. -/
inductive Outside where
  | tick (ms : Nat)

def outside : Outside → Backend W → Backend W
  | .tick ms, b => { b with nowMs := b.nowMs + ms }

def System.asks (m : System W) (p : Nat) : Option (Command W) := (m.procs p).map (·.question)

/-- The circuit, as `circuit_state` shows it. -/
def Backend.circuitState (cfg : RedisCacheConfig) (b : Backend W) : CircuitState :=
  cfg.state b.openedAtMs b.nowMs

end Machines

/-! ## §7. One cached type. -/

/-- What a call asks of its caller: to run the fetcher, and to take the result. -/
inductive CallQuestion (T : Type) where
  | fetch
  | returns (result : Except String (T × Bool))

@[reducible] def CallAnswer {T : Type} : CallQuestion T → Type
  | .fetch => T
  | .returns _ => Unit

/-- One type that is cached. -/
structure CachedType where
  Text : Type
  T : Type
  plain : Serde Text T
  entry : Serde Text (CachedEntry T)
  ofInt : Int → Text
  toInt : Text → Option Int

namespace CachedType

/-- The setting of calls that cache one type; a fetcher returns any value. -/
@[reducible] def setting (C : CachedType) : Setting where
  Text := C.Text
  Code := Unit
  Val _ := C.T
  plain _ := C.plain
  entry _ := C.entry
  ofInt := C.ofInt
  toInt := C.toInt
  Question := CallQuestion C.T
  Answer := CallAnswer
  World := Unit
  Choice := C.T
  answer value _
    | .fetch => some (value, ())
    | .returns _ => some ((), ())
  fallible
    | .fetch => true
    | .returns _ => false

def fetch (C : CachedType) : CacheM C.setting C.T := ask (W := C.setting) (.outside .fetch)

def returns (C : CachedType) (result : Except String (C.T × Bool)) : CacheM C.setting Unit :=
  ask (W := C.setting) (.outside (.returns result))

/-- One call of `get_or_set_json`, to its return. -/
def getOrSet (C : CachedType) (cfg : RedisCacheConfig) (key : String) (ttl : Nat) : CacheM C.setting Unit := do
  let result ← (cfg.getOrSetJson (W := C.setting) () key ttl C.fetch).attempt
  C.returns result

end CachedType

/-- JSON texts of `u32` and of `CachedEntry<u32>`. -/
inductive Document where
  | number (n : Nat)
  | entry (e : CachedEntry Nat)

namespace Document

def plain : Serde Document Nat where
  toString n := .ok (.number n)
  fromStr
    | .number n => .ok n
    | .entry _ => .error "invalid type: map, expected u32"

def cached : Serde Document (CachedEntry Nat) where
  toString e := .ok (.entry e)
  fromStr
    | .entry e => .ok e
    | .number _ => .error "invalid type: integer, expected struct CachedEntry"

def toInt : Document → Option Int
  | .number n => some n
  | .entry _ => none

end Document

@[reducible] def sampleType : CachedType :=
  ⟨Document, Nat, Document.plain, Document.cached, fun n => .number n.toNat, Document.toInt⟩

/-- The defaults of `from_env`. -/
def sampleConfig : RedisCacheConfig := ⟨5, 30000, 3, 50⟩

end PredictIQ.Cache
