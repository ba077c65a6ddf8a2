/-
  PredictIQ.Api.PagedReads: the published content and the bets of a user, page
  by page.

  `content` cuts a page out of a payload that is cached for its limit;
  `blockchainUserBets` asks the RPC for a page by its number.  An arithmetic
  operation that overflows ends a request, as it does where overflow is checked.
-/
import PredictIQ.Markets.Listings
import PredictIQ.Foundation.Slices
import PredictIQ.Foundation.Text

namespace PredictIQ.PagedReads

open Foundation Cache Markets

/-! ## §1. Arithmetic. -/

def i64Max : Int := 2 ^ 63 - 1

/-- A result that fits an `i64`. -/
def checkedI64 (n : Int) : Except String Int :=
  if -2 ^ 63 ≤ n ∧ n ≤ i64Max then .ok n else .error "arithmetic overflow"

def addI64 (a b : Int) : Except String Int := checkedI64 (a + b)

def mulI64 (a b : Int) : Except String Int := checkedI64 (a * b)

def saturatingMul (a b : Int) : Int := max (-2 ^ 63) (min i64Max (a * b))

def addUsize (a b : Nat) : Except String Nat :=
  if a + b < 2 ^ 64 then .ok (a + b) else .error "arithmetic overflow"

/-! ## §2. A page of a payload. -/

def startIdx (query : PaginationQuery) (len : Nat) : Nat :=
  min ((query.cursor.bind parseUsize).getD 0) len

def endIdx (query : PaginationQuery) (len : Nat) : Except String Nat := do
  let stop ← addUsize (startIdx query len) query.limitOrDefault
  return min stop len

def slicePage {T : Type} (query : PaginationQuery) (payload : List T) : Except String (PaginatedResponse T) := do
  let stop ← endIdx query payload.length
  let hasMore := decide (stop < payload.length)
  return {
    items := (payload.take stop).drop (startIdx query payload.length)
    nextCursor := if hasMore then some (toString stop) else none
    limit := query.limitOrDefault
    hasMore := hasMore }

/-! ## §3. Content. -/

structure ContentItem where
  id : Int
  title : String
  category : String
  publishedAt : Int
  deriving DecidableEq

structure ContentRow extends ContentItem where
  isPublished : Bool

/-- `WHERE is_published = TRUE ORDER BY published_at DESC`. -/
def publishedContent (rows : List ContentRow) : List ContentItem :=
  ((rows.filter (·.isPublished)).insertionSort fun r r' => r'.publishedAt ≤ r.publishedAt).map (·.toContentItem)

/-- The query of `content_cached`; a negative limit is an error. -/
def selectContent (limit : Int) (rows : List ContentRow) : Option (List ContentItem) :=
  if limit < 0 then none else some ((publishedContent rows).take limit.toNat)

/-! ## §4. Bets. -/

/-- An entry of the RPC's answer, with the fields that have the expected type. -/
structure BetEntry where
  marketId : Option Int
  outcome : Option UInt64
  amount : Option String
  token : Option String

structure Bet where
  marketId : Int
  outcome : UInt32
  amount : String
  token : Option String
  deriving DecidableEq

structure UserBet extends Bet where
  ledger : UInt32
  deriving DecidableEq

def Bet.ofEntry (entry : BetEntry) : Bet where
  marketId := entry.marketId.getD 0
  outcome := (entry.outcome.getD 0).toUInt32
  amount := entry.amount.getD "0"
  token := entry.token

/-- The data of `getContractData`, as far as it is read. -/
structure BetsData where
  bets : Option (List BetEntry)
  total : Option Int

inductive DataSource where
  | live | staleFallback
  deriving DecidableEq

structure UserBetsPage where
  user : String
  page : Int
  pageSize : Int
  total : Int
  items : List UserBet
  source : DataSource

/-! ## §5. What the handlers ask. -/

/-- The rows of the database and the bets of the contract.  An RPC answers with
the total as an `i64`. -/
structure DataSet where
  content : List ContentRow
  bets : String → List BetEntry
  fits : ∀ key, (bets key).length < 2 ^ 63

inductive Question where
  | selectContent (limit : Int)
  | getLatestLedger
  | getContractData (key : String) (limit offset : Int)
  | respondContent (query : PaginationQuery) (page : PaginatedResponse ContentItem)
  | respondUserBets (user : String) (query : PaginationQuery) (page : PaginatedResponse UserBet)

@[reducible] def Answer : Question → Type
  | .selectContent _ => List ContentItem
  | .getLatestLedger => UInt32
  | .getContractData .. => BetsData
  | _ => Unit

/-- An RPC that honours limit, offset and total. -/
def answer (latestLedger : UInt32) (data : DataSet) : (q : Question) → Option (Answer q × DataSet)
  | .selectContent limit => (PagedReads.selectContent limit data.content).map fun rows => (rows, data)
  | .getLatestLedger => some (latestLedger, data)
  | .getContractData key limit offset =>
      some (⟨some (slice offset.toNat limit.toNat (data.bets key)), some (data.bets key).length⟩, data)
  | .respondContent .. => some ((), data)
  | .respondUserBets .. => some ((), data)

def Question.fallible : Question → Bool
  | .respondContent .. | .respondUserBets .. => false
  | _ => true

inductive Paged where
  | content | userBets
  deriving DecidableEq

@[reducible] def Paged.Data : Paged → Type
  | .content => List ContentItem
  | .userBets => UserBetsPage

/-- How serde writes and reads what is cached. -/
structure Crates where
  Text : Type
  plain : ∀ i : Paged, Serde Text i.Data
  entry : ∀ i : Paged, Serde Text (CachedEntry i.Data)
  ofInt : Int → Text
  toInt : Text → Option Int
  toLowercase : String → String

@[reducible] def Crates.setting (K : Crates) : Setting where
  Text := K.Text
  Code := Paged
  Val := Paged.Data
  plain := K.plain
  entry := K.entry
  ofInt := K.ofInt
  toInt := K.toInt
  Question := Question
  Answer := Answer
  World := DataSet
  Choice := UInt32
  answer := answer
  fallible := Question.fallible

namespace keys

def apiContent (limit : Int) : String := "api:v1:content:limit:" ++ toString limit

def dbqContent (limit : Int) : String := "dbq:v1:content:limit:" ++ toString limit

def chainUserBetsPage (toLowercase : String → String) (network user : String) (page pageSize : Int) : String :=
  "chain:v1:user_bets:" ++ network ++ ":" ++ toLowercase user ++ ":page:" ++ toString page
    ++ ":size:" ++ toString pageSize

end keys

/-- `userBets` is the template of the contract's storage key for the bets of a user. -/
structure Config where
  cache : RedisCacheConfig
  network : String
  userBets : String

def Config.userBetsKey (cfg : Config) (user : String) : String := cfg.userBets.replace "\x7bid\x7d" user

/-! ## §6. Handlers. -/

section Handlers

variable (K : Crates) (cfg : Config)

def outside (q : Question) : CacheM K.setting (Answer q) := ask (W := K.setting) (.outside q)

def contentCached (limit : Int) : CacheM K.setting (List ContentItem) := do
  let found ← cfg.cache.getOrSetJson (W := K.setting) .content (keys.dbqContent limit) 3600
    (outside K (.selectContent limit))
  return found.1

def content (query : PaginationQuery) : CacheM K.setting Unit := do
  let limit : Int := query.limitOrDefault
  let found ← cfg.cache.getOrSetJson (W := K.setting) .content (keys.apiContent limit) 3600
    (contentCached K cfg limit)
  let paginated ← Prog.done (slicePage query found.1)
  outside K (.respondContent query paginated)

/-- The ledger goes with every bet; zero when the RPC does not say. -/
def latestLedger : CacheM K.setting UInt32 := do
  match ← (outside K .getLatestLedger).attempt with
  | .ok ledger => return ledger
  | .error _ => return 0

def fetchUserBets (user : String) (page pageSize offset : Int) : CacheM K.setting UserBetsPage := do
  let ledger ← latestLedger K
  let data ← outside K (.getContractData (cfg.userBetsKey user) pageSize offset)
  let bets := data.bets.getD []
  return {
    user := user
    page := page
    pageSize := pageSize
    total := data.total.getD bets.length
    items := bets.map fun entry => ⟨Bet.ofEntry entry, ledger⟩
    source := .live }

def userBetsPage (user : String) (page pageSize : Int) : CacheM K.setting UserBetsPage := do
  let page := max page 0
  let pageSize := min (max pageSize 1) 100
  let offset ← Prog.done (mulI64 page pageSize)
  let key := keys.chainUserBetsPage K.toLowercase cfg.network user page pageSize
  let found ← cfg.cache.getOrSetJson (W := K.setting) .userBets key 30 (fetchUserBets K cfg user page pageSize offset)
  return found.1

/-- The page number that a cursor names, up to the last page of an `i64`. -/
def pageOf (query : PaginationQuery) : Int :=
  let rawPage := max ((query.cursor.bind (parseSigned (2 ^ 63))).getD 0) 0
  let pageMax := i64Max / max (query.limitOrDefault : Int) 1
  min rawPage pageMax

def blockchainUserBets (user : String) (query : PaginationQuery) : CacheM K.setting Unit := do
  let pageSize : Int := query.limitOrDefault
  let page := pageOf query
  let pageData ← userBetsPage K cfg user page pageSize
  let nextPage ← Prog.done (addI64 page 1)
  let hasMore := decide (saturatingMul nextPage pageSize < pageData.total)
  outside K (.respondUserBets user query {
    items := pageData.items
    nextCursor := if hasMore then some (toString nextPage) else none
    limit := query.limitOrDefault
    hasMore := hasMore })

inductive Request where
  | content (query : PaginationQuery)
  | userBets (user : String) (query : PaginationQuery)

def program : Request → CacheM K.setting Unit
  | .content query => content K cfg query
  | .userBets user query => blockchainUserBets K cfg user query

end Handlers

/-! ## §7. Requests side by side. -/

/-- Outside these handlers time passes, and other requests move the circuit breaker. -/
inductive Outside where
  | tick (ms : Nat)
  | breaker (failureCount : UInt32) (openedAtMs : Nat)

def Outside.apply {W : Setting} : Outside → Backend W → Backend W
  | .tick ms, b => { b with nowMs := b.nowMs + ms }
  | .breaker failureCount openedAtMs, b => { b with failureCount := failureCount, openedAtMs := openedAtMs }

/-- Any requests, numbered by `P`. -/
def step {P : Type} [DecidableEq P] (K : Crates) (cfg : Config) (request : P → Request) :
    Machine P (Reply (W := K.setting)) String (Backend K.setting) →
      Act P Unit String (Cache.Choice K.setting) Outside →
        Machine P (Reply (W := K.setting)) String (Backend K.setting) :=
  Machine.step (server K.setting) (fun p _ => program K cfg (request p)) Outside.apply

end PredictIQ.PagedReads
