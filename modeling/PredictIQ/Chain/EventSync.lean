/-
  PredictIQ.Chain.EventSync: the loop that syncs the events of the contract.

  `runSyncLoop` asks the RPC for the latest ledger, fetches the events behind
  its cursor page by page, stores each one in the cache, and then moves the
  cursor to the confirmed tip.  `handleReorgIfDetected` compares the latest
  ledger with the one seen last, and purges the cached chain data when it has
  fallen back.

  A ledger is a `u32`, and `+` wraps as it does in a release build.  The loops
  have fuel; one that needs more stands still.  `holdCursor` is no command of
  the source: it marks where the loop assigns its local variable.
-/
import PredictIQ.Cache.Rules
import PredictIQ.Foundation.Pages
import PredictIQ.Markets.Listings

namespace PredictIQ.Chain

open Foundation Cache

/-! ## §1. Events. -/

/-- An event as `getEvents` returns it: the fields that are read, where they
have the type they are read as, and the whole text. -/
structure EventValue where
  id : Option String
  ledger : Option UInt64
  topic : Option String
  txHash : Option String
  text : String
  deriving DecidableEq

/-- The number of its ledger. -/
def EventValue.sequence (e : EventValue) : Nat := (e.ledger.getD 0).toNat

structure ContractEvent where
  id : String
  ledger : UInt32
  topic : String
  txHash : Option String
  value : EventValue
  deriving DecidableEq

def ContractEvent.ofValue (e : EventValue) : ContractEvent where
  id := e.id.getD "unknown"
  ledger := (e.ledger.getD 0).toUInt32
  topic := e.topic.getD "unknown"
  txHash := e.txHash
  value := e

/-- The events of the contract, in the order of the chain. -/
structure EventChain where
  events : List EventValue
  identified : ∀ e ∈ events, e.id.isSome = true
  distinct : (events.map (·.id)).Nodup
  ordered : events.Pairwise fun e e' => e.sequence ≤ e'.sequence

/-! ## §2. The RPC. -/

inductive WatchTxError where
  | alreadyWatched | capReached

/-- What the loop asks beside the cache. -/
inductive Question where
  | getLatestLedger
  | getEvents (startLedger : UInt32) (cursor : Option String)
  | getContractData (key : String)
  | watchTransaction (hash : String)
  | holdCursor (cursor : UInt32)
  | stall

/-- The RPC node: the chain it knows, and its last answer to `getLatestLedger`. -/
structure Rpc where
  chain : EventChain
  lastAnswer : UInt32

def pageSize : Nat := 100

/-- The events from a ledger up to the horizon of the node. -/
def inReach (startLedger horizon : UInt32) (e : EventValue) : Bool :=
  startLedger.toNat ≤ e.sequence && e.sequence ≤ horizon.toNat

def eventsPage (startLedger horizon : UInt32) (cursor : Option String) (chain : EventChain) : List EventValue :=
  Pages.page (·.id) pageSize (inReach startLedger horizon) (cursor.map some) chain.events

/-- How serde writes and reads what the loop caches, and what it makes of the
data of a contract at a ledger.  What is written is read as itself. -/
structure Crates where
  Text : Type
  Data : Type
  ledger : Serde Text UInt32
  event : Serde Text ContractEvent
  data : Serde Text (Data × UInt32)
  ledgerEntry : Serde Text (CachedEntry UInt32)
  eventEntry : Serde Text (CachedEntry ContractEvent)
  dataEntry : Serde Text (CachedEntry (Data × UInt32))
  ofInt : Int → Text
  toInt : Text → Option Int
  ledger_roundTrip : ∀ n text, ledger.toString n = .ok text → ledger.fromStr text = .ok n
  event_roundTrip : ∀ e text, event.toString e = .ok text → event.fromStr text = .ok e

inductive Cached where
  | ledger | event | data

section Settings

variable (K : Crates)

@[reducible] def Cached.Val : Cached → Type
  | .ledger => UInt32
  | .event => ContractEvent
  | .data => K.Data × UInt32

@[reducible] def Cached.plain : (i : Cached) → Serde K.Text (i.Val K)
  | .ledger => K.ledger
  | .event => K.event
  | .data => K.data

@[reducible] def Cached.entry : (i : Cached) → Serde K.Text (CachedEntry (i.Val K))
  | .ledger => K.ledgerEntry
  | .event => K.eventEntry
  | .data => K.dataEntry

@[reducible] def Answer : Question → Type
  | .getLatestLedger => UInt32
  | .getEvents .. => List EventValue
  | .getContractData _ => K.Data
  | .watchTransaction _ => Except WatchTxError Unit
  | .holdCursor _ | .stall => Unit

/-- What the node answers: any latest ledger, and the events up to any horizon
that is not below its last answer; what `SCAN` finds, too, is left open. -/
structure NodeChoice where
  latest : UInt32
  horizon : UInt32
  data : K.Data
  watched : Except WatchTxError Unit
  nextCursor : Nat
  scanned : List String

variable {K}

def answer (c : NodeChoice K) (w : Rpc) : (q : Question) → Option (Answer K q × Rpc)
  | .getLatestLedger => some (c.latest, { w with lastAnswer := c.latest })
  | .getEvents startLedger cursor =>
      if w.lastAnswer ≤ c.horizon then some (eventsPage startLedger c.horizon cursor w.chain, w) else none
  | .getContractData _ => some (c.data, w)
  | .watchTransaction _ => some (c.watched, w)
  | .holdCursor _ => some ((), w)
  | .stall => none

/-- A call of the RPC, with its retries, may fail. -/
def Question.fallible : Question → Bool
  | .getLatestLedger | .getEvents .. | .getContractData _ => true
  | .watchTransaction _ | .holdCursor _ | .stall => false

variable (K)

@[reducible] def Crates.setting : Setting where
  Text := K.Text
  Code := Cached
  Val := Cached.Val K
  plain := Cached.plain K
  entry := Cached.entry K
  ofInt := K.ofInt
  toInt := K.toInt
  Question := Question
  Answer := Answer K
  World := Rpc
  Choice := NodeChoice K
  answer := answer
  fallible := Question.fallible
  scan c _ found := (c.nextCursor, found.filter (· ∈ c.scanned))

end Settings

namespace keys

def chainPrefix : String := "chain:v1:"

def chainLastSeenLedger (network : String) : String := "chain:v1:last_seen_ledger:" ++ network

def chainSyncCursor (network : String) : String := "chain:v1:sync_cursor:" ++ network

def ledgerCheckpoint (network : String) : String := "chain:v1:ledger_checkpoint:" ++ network

def chainPlatformStats (network : String) : String := "chain:v1:platform_stats:" ++ network

def event (id : String) : String := "chain:v1:event:" ++ id

end keys

/-! ## §3. The loop. -/

structure SyncConfig where
  cache : RedisCacheConfig
  network : String
  confirmationLedgerLag : UInt32
  syncMarketIds : List Int
  eventPollIntervalMs : Nat
  marketKey : Int → String
  oracleResultKey : Int → String
  platformStatsKey : String

/-- How often the loop goes round before it sees the shutdown signal, and how
many rounds the loops inside it have at most. -/
structure Task where
  iterations : Nat
  rounds : Nat

abbrev SyncM (K : Crates) : Type → Type := CacheM K.setting

def saturatingSub (a b : UInt32) : UInt32 := if b ≤ a then a - b else 0

@[simp] theorem toNat_saturatingSub (a b : UInt32) : (saturatingSub a b).toNat = a.toNat - b.toNat := by
  unfold saturatingSub
  split
  · rename_i h
    exact UInt32.toNat_sub_of_le a b h
  · rename_i h
    have h := UInt32.lt_iff_toNat_lt.mp (UInt32.not_le.mp h)
    show 0 = _
    omega

/-- The ledger behind one that is not the last. -/
theorem toNat_add_one_of_lt {a b : UInt32} (h : a < b) : (a + 1).toNat = a.toNat + 1 := by
  have h := UInt32.lt_iff_toNat_lt.mp h
  have h1 : (1 : UInt32).toNat = 1 := rfl
  have hmax := b.toNat_lt
  rw [UInt32.toNat_add, h1]
  omega

section Loop

variable (K : Crates) (cfg : SyncConfig) (rounds : Nat)

def rpc (q : Question) : SyncM K (Answer K q) := ask (W := K.setting) (.outside q)

/-- A call of the RPC that may fail, like `latest_ledger().await.unwrap_or(..)`. -/
def latestLedgerOr (fallback : UInt32) : SyncM K UInt32 := do
  match ← (rpc K .getLatestLedger).attempt with
  | .ok latest => return latest
  | .error _ => return fallback

/-- Stand still: the question is never answered. -/
def stall {α : Type} : SyncM K α := do
  rpc K .stall
  Prog.fail "unreachable"

def fetchEventsFrom (fromLedger : UInt32) : (rounds : Nat) → (cursor : Option String) →
    (allEvents : List ContractEvent) → SyncM K (List ContractEvent)
  | 0, _, _ => stall K
  | rounds + 1, cursor, allEvents => do
      let events ← rpc K (.getEvents fromLedger cursor)
      let allEvents := allEvents ++ events.map ContractEvent.ofValue
      -- fewer than a page: there are no more
      if events.length < pageSize then return allEvents
      match events.getLast?.bind (·.id) with
      | some lastId => fetchEventsFrom fromLedger rounds (some lastId) allEvents
      | none => return allEvents

def fetchEventsSince (fromLedger : UInt32) : SyncM K (List ContractEvent) :=
  fetchEventsFrom K fromLedger rounds none []

/-- Delete what is cached of the chain. -/
def purgeChain : SyncM K Unit := do
  match ← cfg.cache.delByPattern (W := K.setting) keys.chainPrefix rounds with
  | some _ => return ()
  | none => stall K

/-- The latest ledger has fallen back behind the one seen last. -/
def fallenBack (latestLedger previous : UInt32) : Bool :=
  0 < previous && latestLedger + cfg.confirmationLedgerLag < previous

def handleReorgIfDetected (latestLedger : UInt32) : SyncM K Unit := do
  let key := keys.chainLastSeenLedger cfg.network
  let previous ← cfg.cache.getJson (W := K.setting) (.plain .ledger) key
  if fallenBack cfg latestLedger (previous.getD 0) then purgeChain K cfg rounds
  cfg.cache.setJson (W := K.setting) .ledger key latestLedger (24 * 60 * 60)

def watchTransaction (txHash : Option String) : SyncM K Unit := do
  match txHash with
  | some hash => let _ ← rpc K (.watchTransaction hash)
  | none => return ()

def storeEvents : List ContractEvent → SyncM K Unit
  | [] => return ()
  | event :: events => do
      cfg.cache.setJson (W := K.setting) .event (keys.event event.id) event (30 * 60)
      watchTransaction K event.txHash
      storeEvents events

/-- The data of a contract, with the latest ledger, as the fetchers read it. -/
def fetchData (contractKey : String) : SyncM K (K.Data × UInt32) := do
  let ledger ← latestLedgerOr K 0
  let data ← rpc K (.getContractData contractKey)
  return (data, ledger)

/-- Fetch or set, whose result nobody looks at. -/
def refresh (key : String) (ttl : Nat) (contractKey : String) : SyncM K Unit := do
  let _ ← (cfg.cache.getOrSetJson (W := K.setting) .data key ttl (fetchData K contractKey)).attempt

def refreshMarkets : List Int → SyncM K Unit
  | [] => return ()
  | marketId :: marketIds => do
      refresh K cfg (Markets.keys.chainMarket marketId) 60 (cfg.marketKey marketId)
      refresh K cfg (Markets.keys.chainOracleResult cfg.network marketId) 30 (cfg.oracleResultKey marketId)
      refreshMarkets marketIds

def syncOnce (cursorLedger : UInt32) : SyncM K UInt32 := do
  let latest ← latestLedgerOr K cursorLedger
  handleReorgIfDetected K cfg rounds latest
  let confirmedTip := saturatingSub latest cfg.confirmationLedgerLag
  if confirmedTip ≤ cursorLedger then return cursorLedger
  let events ← fetchEventsSince K rounds (cursorLedger + 1)
  storeEvents K cfg events
  refreshMarkets K cfg cfg.syncMarketIds
  refresh K cfg (keys.chainPlatformStats cfg.network) 120 cfg.platformStatsKey
  return confirmedTip

/-- A stored ledger; an error counts as none. -/
def storedLedger (key : String) : SyncM K (Option UInt32) := do
  match ← (cfg.cache.getJson (W := K.setting) (.plain .ledger) key).attempt with
  | .ok found => return found
  | .error _ => return none

/-- The cursor of the run before, or its checkpoint when the chain has gone on since. -/
def initialCursor : SyncM K UInt32 := do
  let cursor := (← storedLedger K cfg (keys.chainSyncCursor cfg.network)).getD 0
  if cursor = 0 then return cursor
  match ← storedLedger K cfg (keys.ledgerCheckpoint cfg.network) with
  | none => return cursor
  | some checkpoint =>
      match ← (rpc K .getLatestLedger).attempt with
      | .ok current => if checkpoint + 1 < current then return checkpoint else return cursor
      | .error _ => return cursor

/-- The cursor has moved: it is written twice, and nobody looks whether that succeeds. -/
def persistCursor (cursor : UInt32) : SyncM K Unit := do
  let _ ← (cfg.cache.setJson (W := K.setting) .ledger (keys.chainSyncCursor cfg.network) cursor (24 * 60 * 60)).attempt
  let _ ← (cfg.cache.setJson (W := K.setting) .ledger (keys.ledgerCheckpoint cfg.network) cursor
    (7 * 24 * 60 * 60)).attempt

/-- Once round the loop, from cursor to cursor. -/
def iteration (cursor : UInt32) : SyncM K UInt32 := do
  match ← (syncOnce K cfg rounds cursor).attempt with
  | .error _ => return cursor
  | .ok nextCursor =>
      if nextCursor ≤ cursor then return cursor
      rpc K (.holdCursor nextCursor)
      persistCursor K cfg nextCursor
      return nextCursor

def iterations : (n : Nat) → (cursor : UInt32) → SyncM K Unit
  | 0, _ => return ()
  | n + 1, cursor => do
      let cursor ← iteration K cfg rounds cursor
      ask (W := K.setting) (.sleep cfg.eventPollIntervalMs)
      iterations n cursor

def runSyncLoop (task : Task) : SyncM K Unit := do
  let cursor ← initialCursor K cfg
  rpc K (.holdCursor cursor)
  iterations K cfg task.rounds task.iterations cursor

end Loop

/-! ## §4. Runs. -/

section Machines

variable {K : Crates}

/-- Beside the loop time passes, other requests move the circuit breaker, and
the chain may be reorganised. -/
inductive Outside where
  | tick (ms : Nat)
  | breaker (failureCount : UInt32) (openedAtMs : Nat)
  | reorg (chain : EventChain)

def outside : Outside → Backend K.setting → Backend K.setting
  | .tick ms, b => { b with nowMs := b.nowMs + ms }
  | .breaker failureCount openedAtMs, b => { b with failureCount := failureCount, openedAtMs := openedAtMs }
  | .reorg chain, b => { b with world := { b.world with chain := chain } }

abbrev System (K : Crates) : Type := Machine Unit (Reply (W := K.setting)) String (Backend K.setting)

abbrev Action (K : Crates) : Type := Act Unit Task String (Cache.Choice K.setting) Outside

abbrev History (K : Crates) : Type := List (Transition (System K) (Action K))

/-- The loop, started again whenever it has stopped. -/
def step (K : Crates) (cfg : SyncConfig) : System K → Action K → System K :=
  Machine.step (server K.setting) (fun _ task => runSyncLoop K cfg task) outside

end Machines

end PredictIQ.Chain
