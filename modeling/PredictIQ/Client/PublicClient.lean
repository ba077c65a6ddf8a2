/-
  PredictIQ.Client.PublicClient: the `request` function of the web client.

  A call of `request` runs up to its first `await` without interruption, then
  goes on when the network answers or a pause is over, and the promise of a GET
  resolves a microtask after its last line, when `finally` has taken it out of
  the map of requests in flight.  Calls and HTTP requests are numbered in the
  order in which they start; data carries the number of the HTTP request that
  brought it.
-/
import PredictIQ.Foundation.Run
import PredictIQ.Foundation.Store

namespace PredictIQ.Client

open Foundation

/-! ## §1. Requests and responses. -/

inductive HttpMethod where
  | get | post | delete
  deriving DecidableEq

/-- A parsed JSON text; numbers are kept as written. -/
inductive Json where
  | null
  | bool (value : Bool)
  | number (literal : String)
  | string (value : String)
  | array (items : List Json)
  | object (fields : List (String × Json))

/-- The data of a response: nothing for an empty body. -/
abbrev Data : Type := Option Json

/-- A property of an object: of fields with one name, the last. -/
def Json.field? (fields : List (String × Json)) (name : String) : Option Json := fields.reverse.lookup name

/-- Whether a mutation that was answered with a 2xx did what it was asked to. -/
def succeeded : Data → Bool
  | some (.object fields) =>
      match Json.field? fields "success" with
      | none => true
      | some (.bool success) => success
      | some _ => false
  | _ => true

/-- The options that decide how a call goes on; `validBody` is what its
`bodySchema` says of its body. -/
structure RequestOptions where
  cacheTtl : Option Nat
  cacheTags : List String
  maxRetries : Option Nat
  idempotent : Bool
  validBody : Bool

def DEFAULT_MAX_RETRIES : Nat := 3

/-- `options.cacheTtl` is truthy. -/
def RequestOptions.caches (options : RequestOptions) : Bool := options.cacheTtl.getD 0 != 0

def RequestOptions.retries (options : RequestOptions) : Nat := options.maxRetries.getD DEFAULT_MAX_RETRIES

/-- What comes of one `fetch`: a 2xx with a body that parses, another status, a
failure of the network or of reading the body, or an abort. -/
inductive Response where
  | ok (data : Data)
  | failed (status : Nat)
  | broken
  | aborted (byCaller : Bool)

inductive ApiError where
  | clientValidation
  | status (status : Nat)
  | timeout
  | abort
  | unreachable
  deriving DecidableEq

structure Fetched where
  request : Nat
  data : Data

abbrev Outcome : Type := Except ApiError Fetched

/-! ## §2. The cache. -/

structure CacheEntry where
  fetched : Fetched
  timestamp : Int
  ttl : Nat
  stale : Bool
  staleTimestamp : Option Int
  tags : List String

structure CacheResult where
  fetched : Fetched
  stale : Bool
  timestamp : Int

/-- The entries, and the number of the call that each URL is in flight for. -/
structure ApiCache where
  cache : Store String CacheEntry
  inFlight : Store String Nat

def maxStaleAgeMs : Int := 60 * 60 * 1000

/-- `tags.some(tag => tags'.includes(tag))`. -/
def Meets (tags tags' : List String) : Prop := ∃ tag ∈ tags, tag ∈ tags'

instance (tags tags' : List String) : Decidable (Meets tags tags') :=
  inferInstanceAs (Decidable (∃ tag ∈ tags, tag ∈ tags'))

def CacheEntry.isExpired (entry : CacheEntry) (now : Int) : Bool := (entry.ttl : Int) < now - entry.timestamp

/-- Stale for too long; a stale timestamp of 0 counts as none. -/
def CacheEntry.isTooStale (entry : CacheEntry) (now : Int) : Bool :=
  entry.stale && entry.staleTimestamp.getD 0 != 0 && decide (maxStaleAgeMs < now - entry.staleTimestamp.getD 0)

namespace ApiCache

def empty : ApiCache := ⟨∅, ∅⟩

def getWithMeta (c : ApiCache) (key : String) (now : Int) : Option CacheResult × ApiCache :=
  match c.cache.lookup key with
  | none => (none, c)
  | some entry =>
      if entry.isExpired now && !entry.stale then (none, { c with cache := c.cache.erase key })
      else if entry.isTooStale now then (none, { c with cache := c.cache.erase key })
      else (some ⟨entry.fetched, entry.stale || entry.isExpired now, entry.timestamp⟩, c)

/-- An entry that holds the JSON `null` reads as no entry. -/
def get (c : ApiCache) (key : String) (now : Int) : Option Fetched × ApiCache :=
  match c.getWithMeta key now with
  | (some ⟨⟨_, some .null⟩, _, _⟩, c) => (none, c)
  | (some result, c) => (some result.fetched, c)
  | (none, c) => (none, c)

def set (c : ApiCache) (key : String) (fetched : Fetched) (ttlMs : Nat) (tags : List String) (now : Int) : ApiCache :=
  { c with cache := c.cache.insert key ⟨fetched, now, ttlMs, false, none, tags⟩ }

def invalidateByTags (c : ApiCache) (tags : List String) : ApiCache :=
  let tagged := c.cache.entries.filterMap fun e => if Meets e.2.tags tags then some e.1 else none
  { c with cache := Store.eraseAll c.cache tagged }

/-- `invalidateByPattern('.*')`. -/
def invalidateAll (c : ApiCache) : ApiCache := { c with cache := ∅ }

end ApiCache

/-! ## §3. The calls. -/

/-- Where a call stands.  `joined` waits for the promise of another call;
`settled` has its result, and its promise has not resolved yet. -/
inductive Stage where
  | sending (attempt request : Nat)
  | sleeping (attempt : Nat)
  | joined (leader : Nat)
  | settled (outcome : Outcome)
  | returned (outcome : Outcome)

structure Call where
  method : HttpMethod
  url : String
  options : RequestOptions
  stage : Stage

structure State where
  now : Int
  sent : Nat
  apiCache : ApiCache
  calls : List Call

def init (now : Int) : State := ⟨now, 0, .empty, []⟩

/-- A call has its result: the promise of a GET goes through `finally`. -/
def HttpMethod.over (outcome : Outcome) : HttpMethod → Stage
  | .get => .settled outcome
  | .post | .delete => .returned outcome

def Call.retriesStatus (call : Call) (attempt status : Nat) : Bool :=
  decide (attempt < call.options.retries)
    && (status == 429 || decide (500 ≤ status) && (call.method == .get || call.options.idempotent))

def Call.retriesBroken (call : Call) (attempt : Nat) : Bool :=
  decide (attempt < call.options.retries) && call.method == .get

/-- The cache after the data of a call: a GET writes it, a mutation drops what
it may have changed. -/
def Call.updateCache (call : Call) (fetched : Fetched) (now : Int) (c : ApiCache) : ApiCache :=
  match call.method with
  | .get =>
      if call.options.caches then
        c.set call.url fetched (call.options.cacheTtl.getD 0) call.options.cacheTags now
      else c
  | .post | .delete =>
      if succeeded fetched.data then
        if call.options.cacheTags = [] then c.invalidateAll else c.invalidateByTags call.options.cacheTags
      else c

/-- The cache after the response to an attempt. -/
def Call.absorb (call : Call) (request : Nat) (now : Int) (c : ApiCache) : Response → ApiCache
  | .ok data => call.updateCache ⟨request, data⟩ now c
  | .failed _ | .broken | .aborted _ => c

/-- Where the response to an attempt leads. -/
def Call.next (call : Call) (attempt request : Nat) : Response → Stage
  | .ok data => call.method.over (.ok ⟨request, data⟩)
  | .failed status =>
      if call.retriesStatus attempt status then .sleeping attempt else call.method.over (.error (.status status))
  | .broken => if call.retriesBroken attempt then .sleeping attempt else call.method.over (.error .unreachable)
  | .aborted byCaller => call.method.over (.error (if byCaller then .abort else .timeout))

namespace State

def push (s : State) (call : Call) : State := { s with calls := s.calls ++ [call] }

def setStage (s : State) (i : Nat) (stage : Stage) : State :=
  { s with calls := s.calls.modify i fun call => { call with stage } }

/-- Up to the first `await`: the body is checked, and the first attempt sent. -/
def sendWithRetries (s : State) (method : HttpMethod) (url : String) (options : RequestOptions) : State :=
  if options.validBody then { s with sent := s.sent + 1 }.push ⟨method, url, options, .sending 0 s.sent⟩
  else s.push ⟨method, url, options, method.over (.error .clientValidation)⟩

/-- Join the call in flight for the URL, or start one and share it. -/
def dedupe (s : State) (url : String) (options : RequestOptions) : State :=
  match s.apiCache.inFlight.lookup url with
  | some leader => s.push ⟨.get, url, options, .joined leader⟩
  | none =>
      let s' := s.sendWithRetries .get url options
      { s' with apiCache.inFlight := s'.apiCache.inFlight.insert url s.calls.length }

def request (s : State) (method : HttpMethod) (url : String) (options : RequestOptions) : State :=
  match method with
  | .get =>
      if options.caches then
        match s.apiCache.get url s.now with
        | (some cached, apiCache) => { s with apiCache }.push ⟨.get, url, options, .returned (.ok cached)⟩
        | (none, apiCache) => { s with apiCache }.dedupe url options
      else s.dedupe url options
  | .post | .delete => s.sendWithRetries method url options

def respond (s : State) (i : Nat) (response : Response) : State :=
  match s.calls[i]? with
  | some ⟨method, url, options, .sending attempt request⟩ =>
      let call : Call := ⟨method, url, options, .sending attempt request⟩
      { s with apiCache := call.absorb request s.now s.apiCache response }.setStage i
        (call.next attempt request response)
  | _ => s

/-- A pause between two attempts is over. -/
def wake (s : State) (i : Nat) : State :=
  match s.calls[i]? with
  | some ⟨_, _, _, .sleeping attempt⟩ => { s with sent := s.sent + 1 }.setStage i (.sending (attempt + 1) s.sent)
  | _ => s

/-- `finally` takes a GET out of the map, and its promise resolves. -/
def finish (s : State) (i : Nat) : State :=
  match s.calls[i]? with
  | some ⟨_, url, _, .settled outcome⟩ =>
      { s with apiCache.inFlight := s.apiCache.inFlight.erase url }.setStage i (.returned outcome)
  | _ => s

/-- What the promise of a call has resolved to; a call that joined another has
the promise of that one. -/
def result (s : State) (i : Nat) : Option Outcome :=
  match s.calls[i]? with
  | some ⟨_, _, _, .returned outcome⟩ => some outcome
  | some ⟨_, _, _, .joined leader⟩ =>
      match s.calls[leader]? with
      | some ⟨_, _, _, .returned outcome⟩ => some outcome
      | _ => none
  | _ => none

end State

/-- What may happen next: a call starts, the network answers, a pause is over,
a promise resolves, the clock moves. -/
inductive Action where
  | request (method : HttpMethod) (url : String) (options : RequestOptions)
  | respond (i : Nat) (response : Response)
  | wake (i : Nat)
  | finish (i : Nat)
  | clock (now : Int)

def step (s : State) : Action → State
  | .request method url options => s.request method url options
  | .respond i response => s.respond i response
  | .wake i => s.wake i
  | .finish i => s.finish i
  | .clock now => { s with now }

/-! ## §4. Two of the endpoints. -/

namespace CacheTag

def MARKETS : String := "markets"
def BLOCKCHAIN : String := "blockchain"

end CacheTag

def CACHE_TTL.SHORT : Nat := 1 * 60 * 1000

namespace api

def getFeaturedMarkets (baseUrl : String) : Action :=
  .request .get (baseUrl ++ "/api/v1/markets/featured")
    { cacheTtl := some CACHE_TTL.SHORT, cacheTags := [CacheTag.MARKETS], maxRetries := none, idempotent := false,
      validBody := true }

/-- `marketId` as `fillPath` encodes it, `validBody` as `placeBetSchema` finds the body. -/
def placeBet (baseUrl marketId : String) (validBody : Bool) : Action :=
  .request .post (baseUrl ++ "/api/v1/blockchain/markets/" ++ marketId ++ "/bets")
    { cacheTtl := none, cacheTags := [CacheTag.BLOCKCHAIN, CacheTag.MARKETS], maxRetries := none, idempotent := false,
      validBody }

end api

end PredictIQ.Client
