/-
  PredictIQ.Markets.Listings: the statistics and the featured markets of the
  API, and the resolution of a market.

  Both listings are cached twice: the database's answer under a `dbq` key, and
  what the handler makes of it under an `api` key.  `resolveMarket` updates the
  row of the market and then deletes these keys, one by one.

  A value that is read goes with the revision of the database it was read at,
  through the cache and into the response; nothing looks at the revision.
-/
import PredictIQ.Cache.RedisCache
import Mathlib.Data.List.Sort

namespace PredictIQ.Markets

open Foundation Cache

/-! ## §1. Numbers of the database. -/

/-- A `NUMERIC`: some units of the scale-th decimal place. -/
structure Numeric where
  units : Int
  scale : Nat

namespace Numeric

def lt (a b : Numeric) : Prop := a.units * 10 ^ b.scale < b.units * 10 ^ a.scale

instance (a b : Numeric) : Decidable (a.lt b) := inferInstanceAs (Decidable (_ < _))

/-- The sum has the larger scale of the two. -/
def add (a b : Numeric) : Numeric where
  units := a.units * 10 ^ (max a.scale b.scale - a.scale) + b.units * 10 ^ (max a.scale b.scale - b.scale)
  scale := max a.scale b.scale

/-- `COALESCE(SUM(..), 0)`. -/
def sum (xs : List Numeric) : Numeric := xs.foldl add ⟨0, 0⟩

/-- All places of the scale are written. -/
def text (a : Numeric) : String :=
  let digits := toString (a.units.natAbs / 10 ^ a.scale)
  let places := toString (a.units.natAbs % 10 ^ a.scale)
  let sign := if a.units < 0 then "-" else ""
  if a.scale = 0 then sign ++ digits
  else sign ++ digits ++ "." ++ String.ofList (List.replicate (a.scale - places.length) '0') ++ places

end Numeric

/-! ## §2. The table of markets. -/

inductive MarketStatus where
  | active | resolved | cancelled
  deriving DecidableEq, Repr

structure Market where
  id : Int
  title : String
  status : MarketStatus
  outcomeIndex : Option Int32
  totalVolume : Numeric
  endsAt : Int
  resolvedAt : Option Int
  deletedAt : Option Int

structure Statistics where
  totalMarkets : Int
  activeMarkets : Int
  resolvedMarkets : Int
  totalVolume : String
  deriving DecidableEq

structure FeaturedMarket where
  id : Int
  title : String
  volume : String
  endsAt : Int
  deriving DecidableEq

/-- The query of `statistics_cached`. -/
def selectStatistics (markets : List Market) : Statistics :=
  let rows := markets.filter (·.deletedAt.isNone)
  { totalMarkets := rows.length
    activeMarkets := (rows.filter (·.status = .active)).length
    resolvedMarkets := (rows.filter (·.status = .resolved)).length
    totalVolume := (Numeric.sum (rows.map (·.totalVolume))).text }

/-- `ORDER BY total_volume DESC, ends_at ASC`. -/
def Market.before (m m' : Market) : Prop :=
  m'.totalVolume.lt m.totalVolume ∨ (¬m.totalVolume.lt m'.totalVolume ∧ m.endsAt ≤ m'.endsAt)

instance (m m' : Market) : Decidable (m.before m') := inferInstanceAs (Decidable (_ ∨ _))

/-- The query of `featured_markets_cached`; a negative limit is an error. -/
def selectFeaturedMarkets (limit : Int) (markets : List Market) : Option (List FeaturedMarket) :=
  let rows := markets.filter fun m => m.status = .active && m.deletedAt.isNone
  if limit < 0 then none
  else some (((rows.insertionSort Market.before).take limit.toNat).map fun m =>
    ⟨m.id, m.title, m.totalVolume.text, m.endsAt⟩)

/-- The rows that the update of `resolve_market` is about. -/
def Market.isResolvable (marketId : Int) (m : Market) : Bool :=
  m.id = marketId && m.status = .active && m.deletedAt.isNone

def updateResolved (now marketId : Int) (outcomeIndex : UInt32) (markets : List Market) : List Market :=
  markets.map fun m =>
    if m.isResolvable marketId then
      { m with status := .resolved, outcomeIndex := some outcomeIndex.toInt32, resolvedAt := some now }
    else m

/-- The table, and how often it has been written. -/
structure MarketDb where
  markets : List Market
  revision : Nat

/-- What was read, and the revision it was read at. -/
structure Dated (α : Type) where
  value : α
  revision : Nat

def Dated.map {α β : Type} (f : α → β) (d : Dated α) : Dated β := ⟨f d.value, d.revision⟩

/-! ## §3. Requests and responses. -/

structure ChainMarketData where
  marketId : Int
  title : Option String
  status : Option String
  onchainVolume : String
  resolvedOutcome : Option UInt32
  ledger : UInt32

structure FeaturedMarketView where
  id : Int
  title : String
  volume : String
  endsAt : Int
  onchainVolume : String
  resolvedOutcome : Option UInt32

structure PaginationQuery where
  limit : Option Int
  cursor : Option String

/-- Twenty rows unless asked for, one at least and a hundred at most. -/
def PaginationQuery.limitOrDefault (query : PaginationQuery) : Nat := (min (max (query.limit.getD 20) 1) 100).toNat

structure PaginatedResponse (T : Type) where
  items : List T
  nextCursor : Option String
  limit : Nat
  hasMore : Bool

/-- A `usize` in decimal: digits, and a sign if it is a plus. -/
def parseUsize (text : String) : Option Nat :=
  let digits := if text.toList.head? = some '+' then text.toList.tail else text.toList
  let n := digits.foldl (fun n d => 10 * n + (d.toNat - '0'.toNat)) 0
  if !digits.isEmpty && digits.all Char.isDigit && n < 2 ^ 64 then some n else none

/-- The page of a payload that starts at the cursor. -/
def paginate {T : Type} (query : PaginationQuery) (payload : List T) : PaginatedResponse T :=
  let startIdx := min ((query.cursor.bind parseUsize).getD 0) payload.length
  let endIdx := min (startIdx + query.limitOrDefault) payload.length
  let hasMore := decide (endIdx < payload.length)
  { items := (payload.take endIdx).drop startIdx
    nextCursor := if hasMore then some (toString endIdx) else none
    limit := query.limitOrDefault
    hasMore := hasMore }

structure InvalidationResult where
  invalidatedKeys : Nat
  cacheInvalidated : Bool

/-- What the handlers ask of the database and the blockchain, and what they respond. -/
inductive Question where
  | selectStatistics
  | selectFeaturedMarkets (limit : Int)
  | updateResolved (marketId : Int) (outcomeIndex : UInt32)
  | contractData (marketId : Int)
  | respondStatistics (payload : Dated Statistics)
  | respondFeaturedMarkets (page : Dated (PaginatedResponse FeaturedMarketView))
  | respondResolveMarket (result : Dated InvalidationResult)

@[reducible] def Answer : Question → Type
  | .selectStatistics => Dated Statistics
  | .selectFeaturedMarkets _ => Dated (List FeaturedMarket)
  | .updateResolved .. => Dated Nat
  | .contractData _ => Dated ChainMarketData
  | _ => Unit

/-- `NOW()`, and what the blockchain says of a market. -/
structure Oracle where
  now : Int
  chain : ChainMarketData

def answer (c : Oracle) (db : MarketDb) : (q : Question) → Option (Answer q × MarketDb)
  | .selectStatistics => some (⟨Markets.selectStatistics db.markets, db.revision⟩, db)
  | .selectFeaturedMarkets limit =>
      (Markets.selectFeaturedMarkets limit db.markets).map fun rows => (⟨rows, db.revision⟩, db)
  | .updateResolved marketId outcomeIndex =>
      let rowsAffected := db.markets.countP (·.isResolvable marketId)
      if rowsAffected = 0 then some (⟨0, db.revision⟩, db)
      else
        let markets := Markets.updateResolved c.now marketId outcomeIndex db.markets
        some (⟨rowsAffected, db.revision + 1⟩, ⟨markets, db.revision + 1⟩)
  | .contractData _ => some (⟨c.chain, db.revision⟩, db)
  | .respondStatistics _ => some ((), db)
  | .respondFeaturedMarkets _ => some ((), db)
  | .respondResolveMarket _ => some ((), db)

def Question.fallible : Question → Bool
  | .respondStatistics _ | .respondFeaturedMarkets _ | .respondResolveMarket _ => false
  | _ => true

/-! ## §4. What is cached. -/

inductive Listing where
  | statistics | featuredMarkets | featuredViews | marketData
  deriving DecidableEq

@[reducible] def Listing.Data : Listing → Type
  | .statistics => Statistics
  | .featuredMarkets => List FeaturedMarket
  | .featuredViews => List FeaturedMarketView
  | .marketData => ChainMarketData

/-- How serde writes and reads the listings. -/
structure Crates where
  Text : Type
  plain : ∀ i : Listing, Serde Text i.Data
  entry : ∀ i : Listing, Serde Text (CachedEntry i.Data)
  ofInt : Int → Text
  toInt : Text → Option Int

/-- A value is written without its revision, which the text takes along. -/
def datedPlain {Text T : Type} (s : Serde Text T) : Serde (Dated Text) (Dated T) where
  toString d := (s.toString d.value).map (⟨·, d.revision⟩)
  fromStr text := (s.fromStr text.value).map (⟨·, text.revision⟩)

def datedEntry {Text T : Type} (s : Serde Text (CachedEntry T)) : Serde (Dated Text) (CachedEntry (Dated T)) where
  toString e := (s.toString ⟨e.value.value, e.expiresAt, e.deltaMs⟩).map (⟨·, e.value.revision⟩)
  fromStr text := (s.fromStr text.value).map fun e => ⟨⟨e.value, text.revision⟩, e.expiresAt, e.deltaMs⟩

@[reducible] def Crates.setting (K : Crates) : Setting where
  Text := Dated K.Text
  Code := Listing
  Val i := Dated i.Data
  plain i := datedPlain (K.plain i)
  entry i := datedEntry (K.entry i)
  ofInt n := ⟨K.ofInt n, 0⟩
  toInt text := K.toInt text.value
  Question := Question
  Answer := Answer
  World := MarketDb
  Choice := Oracle
  answer := answer
  fallible := Question.fallible

namespace keys

def apiStatistics : String := "api:v1:statistics"

def apiFeaturedMarkets : String := "api:v1:featured_markets"

def dbqStatistics : String := "dbq:v1:statistics"

def dbqFeaturedMarkets (limit : Int) : String := "dbq:v1:featured_markets:limit:" ++ toString limit

def chainMarket (marketId : Int) : String := "chain:v1:market:" ++ toString marketId

def chainOracleResult (network : String) (marketId : Int) : String :=
  "chain:v1:oracle:" ++ network ++ ":market:" ++ toString marketId

end keys

inductive InvalidationTag where
  | marketResolved (marketId : Int) (network : String) (featuredLimit : Int)

def InvalidationTag.cacheKeys : InvalidationTag → List String
  | .marketResolved marketId network featuredLimit =>
      [keys.chainMarket marketId, keys.chainOracleResult network marketId, keys.apiStatistics,
        keys.apiFeaturedMarkets, keys.dbqStatistics, keys.dbqFeaturedMarkets featuredLimit]

/-! ## §5. Handlers. -/

structure Config where
  cache : RedisCacheConfig
  networkName : String
  featuredLimit : Int

section Handlers

variable (K : Crates) (cfg : Config)

def db (q : Question) : CacheM K.setting (Answer q) := ask (W := K.setting) (.outside q)

def statisticsCached : CacheM K.setting (Dated Statistics) := do
  let found ← cfg.cache.getOrSetJson (W := K.setting) .statistics keys.dbqStatistics 300 (db K .selectStatistics)
  return found.1

def featuredMarketsCached (limit : Int) : CacheM K.setting (Dated (List FeaturedMarket)) := do
  let found ← cfg.cache.getOrSetJson (W := K.setting) .featuredMarkets (keys.dbqFeaturedMarkets limit) 120
    (db K (.selectFeaturedMarkets limit))
  return found.1

def marketDataCached (marketId : Int) : CacheM K.setting (Dated ChainMarketData) := do
  let found ← cfg.cache.getOrSetJson (W := K.setting) .marketData (keys.chainMarket marketId) 60
    (db K (.contractData marketId))
  return found.1

/-- The results of all programs, be they errors. -/
def joinAll {α : Type} : List (CacheM K.setting α) → CacheM K.setting (List (Except String α))
  | [] => return []
  | p :: ps => do
      let result ← p.attempt
      let results ← joinAll ps
      return result :: results

/-- The markets with their data, up to the first that has none. -/
def featuredViews : List FeaturedMarket → List (Except String (Dated ChainMarketData)) →
    Except String (List FeaturedMarketView)
  | m :: markets, chainResult :: chainData => do
      let chain ← chainResult
      let view ← featuredViews markets chainData
      return ⟨m.id, m.title, m.volume, m.endsAt, chain.value.onchainVolume, chain.value.resolvedOutcome⟩ :: view
  | _, _ => return []

def fetchViews : CacheM K.setting (Dated (List FeaturedMarketView)) := do
  let markets ← featuredMarketsCached K cfg cfg.featuredLimit
  let chainData ← joinAll K (markets.value.map fun m => marketDataCached K cfg m.id)
  let view ← Prog.done (featuredViews markets.value chainData)
  return ⟨view, markets.revision⟩

def statistics : CacheM K.setting Unit := do
  let found ← cfg.cache.getOrSetJson (W := K.setting) .statistics keys.apiStatistics 300 (statisticsCached K cfg)
  db K (.respondStatistics found.1)

def featuredMarkets (query : PaginationQuery) : CacheM K.setting Unit := do
  let found ← cfg.cache.getOrSetJson (W := K.setting) .featuredViews keys.apiFeaturedMarkets 120 (fetchViews K cfg)
  db K (.respondFeaturedMarkets (found.1.map (paginate query)))

def resolveMarket (marketId : Int) (outcomeIndex : UInt32) : CacheM K.setting Unit := do
  let rowsAffected ← db K (.updateResolved marketId outcomeIndex)
  if rowsAffected.value = 0 then
    Prog.fail s!"market {marketId} not found or not in active status"
  let tag : InvalidationTag := .marketResolved marketId cfg.networkName cfg.featuredLimit
  match ← (cfg.cache.invalidateTag (W := K.setting) tag.cacheKeys).attempt with
  | .ok count => db K (.respondResolveMarket ⟨⟨count, true⟩, rowsAffected.revision⟩)
  | .error _ => db K (.respondResolveMarket ⟨⟨0, false⟩, rowsAffected.revision⟩)

inductive Task where
  | statistics
  | featuredMarkets (query : PaginationQuery)
  | resolveMarket (marketId : Int) (outcomeIndex : UInt32)

def program : Task → CacheM K.setting Unit
  | .statistics => statistics K cfg
  | .featuredMarkets query => featuredMarkets K cfg query
  | .resolveMarket marketId outcomeIndex => resolveMarket K cfg marketId outcomeIndex

end Handlers

/-! ## §6. Requests side by side. -/

section Machines

variable {K : Crates}

/-- Outside these handlers time passes, the markets are written, and other
requests move the circuit breaker. -/
inductive Outside where
  | tick (ms : Nat)
  | write (markets : List Market)
  | breaker (failureCount : UInt32) (openedAtMs : Nat)

def outside : Outside → Backend K.setting → Backend K.setting
  | .tick ms, b => { b with nowMs := b.nowMs + ms }
  | .write markets, b => { b with world := ⟨markets, b.world.revision + 1⟩ }
  | .breaker failureCount openedAtMs, b => { b with failureCount := failureCount, openedAtMs := openedAtMs }

abbrev Action (K : Crates) : Type := Act Nat Task String (Cache.Choice K.setting) Outside

/-- The three handlers, any number of requests at a time. -/
def step (K : Crates) (cfg : Config) : System K.setting → Action K → System K.setting :=
  Machine.step (server K.setting) (fun _ task => program K cfg task) outside

end Machines

end PredictIQ.Markets
