/-
  PredictIQ.Idempotency.Middleware: the idempotency keys of the API.

  A request with an `Idempotency-Key` is looked up in the cache under a key
  made of its caller, its path and its own key.  What is found there is
  replayed; otherwise the handler runs, and its response is cached when it is
  a success.

  `next` runs the handler inside, and `respond` marks the answer that the
  middleware gives.  SHA-256 and the texts of addresses are parameters.
-/
import PredictIQ.Cache.Rules
import PredictIQ.Email.Service
import PredictIQ.Foundation.Separator
import PredictIQ.Foundation.Utf8

namespace PredictIQ.Idempotency

open Foundation Cache
open Email (trim)

/-! ## §1. Requests and responses. -/

/-- The bytes of a header. -/
abbrev HeaderValue : Type := List UInt8

/-- `HeaderValue::to_str`: a value of visible ASCII, as a text. -/
def toStr (v : HeaderValue) : Option String :=
  if v.all fun b => (32 ≤ b && b < 127) || b = 9 then some (.ofList (v.map fun b => Char.ofNat b.toNat)) else none

/-- A blank, a tab or a visible character of ASCII. -/
def isVisible (c : Char) : Bool := (32 ≤ c.toNat && c.toNat < 127) || c.toNat = 9

theorem isVisible_byte {c : Char} (h : c.toNat < 128) :
    ((32 ≤ UInt8.ofNat c.toNat && UInt8.ofNat c.toNat < 127) || UInt8.ofNat c.toNat = 9) = isVisible c := by
  have hbyte : (UInt8.ofNat c.toNat).toNat = c.toNat := by
    rw [UInt8.toNat_ofNat', Nat.mod_eq_of_lt (by omega)]
  simp [isVisible, UInt8.le_iff_toNat_le, UInt8.lt_iff_toNat_lt, ← UInt8.toNat_inj, hbyte]

/-- **The header of a text** is read as that text, or not at all. -/
theorem toStr_utf8 (s : String) : toStr (utf8 s) = if s.toList.all isVisible then some s else none := by
  have hlow : ∀ c, isVisible c = true → c.toNat < 128 := fun c hc => by
    simp only [isVisible, Bool.or_eq_true, Bool.and_eq_true, decide_eq_true_eq] at hc
    omega
  split
  case isTrue hall =>
    have hvisible := List.all_eq_true.mp hall
    have hbytes : utf8 s = s.toList.map fun c => UInt8.ofNat c.toNat := by
      rw [List.map_eq_flatMap]
      exact List.flatMap_congr fun c hc => utf8EncodeChar_of_lt (hlow c (hvisible c hc))
    have hread : ∀ b ∈ utf8 s, ((32 ≤ b && b < 127) || b = 9) = true := by
      rw [hbytes]
      intro b hb
      obtain ⟨c, hc, rfl⟩ := List.mem_map.mp hb
      exact (isVisible_byte (hlow c (hvisible c hc))).trans (hvisible c hc)
    have hback : ∀ c ∈ s.toList, Char.ofNat (UInt8.ofNat c.toNat).toNat = c := fun c hc => by
      have hlt := hlow c (hvisible c hc)
      rw [UInt8.toNat_ofNat', Nat.mod_eq_of_lt (by omega), Char.ofNat_toNat]
    have hmap : s.toList.map ((fun b : UInt8 => Char.ofNat b.toNat) ∘ fun c => UInt8.ofNat c.toNat) = s.toList :=
      (List.map_congr_left hback).trans (List.map_id _)
    rw [toStr, if_pos (List.all_eq_true.mpr hread), hbytes, List.map_map, hmap, String.ofList_toList]
  case isFalse hsome =>
    refine if_neg fun hread => hsome (List.all_eq_true.mpr fun c hc => ?_)
    have hbytes := List.all_eq_true.mp hread
    have hmem : ∀ b ∈ String.utf8EncodeChar c, b ∈ utf8 s := fun b hb => List.mem_flatMap.mpr ⟨c, hc, hb⟩
    by_cases hlt : c.toNat < 128
    · rw [← isVisible_byte hlt]
      exact hbytes _ (hmem _ (utf8EncodeChar_of_lt hlt ▸ List.mem_singleton_self _))
    · obtain ⟨b, hb, hhigh⟩ := exists_mem_utf8EncodeChar (Nat.le_of_not_lt hlt)
      have hb := hbytes b (hmem b hb)
      simp only [Bool.or_eq_true, Bool.and_eq_true, decide_eq_true_eq, UInt8.lt_iff_toNat_lt] at hb
      rcases hb with ⟨-, hlow⟩ | rfl
      · exact absurd hlow (by simp; omega)
      · exact absurd hhigh (by decide)

/-- The text as a header, if it has no control characters. -/
def toHeaderValue (s : String) : Option HeaderValue :=
  if s.toList.all fun c => (32 ≤ c.toNat && c.toNat != 127) || c.toNat = 9 then some s.toUTF8.toList else none

/-- Addresses and networks. -/
structure Network where
  Addr : Type
  Net : Type
  parse : String → Option Addr
  toString : Addr → String
  contains : Net → Addr → Bool
  /-- An address is written in hexadecimal digits, dots and colons. -/
  toString_plain : ∀ a, '|' ∉ (toString a).toList

/-- What the middleware reads of a request. -/
structure Request (Addr : Type) where
  xApiKey : Option HeaderValue
  authorization : Option HeaderValue
  userAgent : Option HeaderValue
  idempotencyKey : Option HeaderValue
  xForwardedFor : Option HeaderValue
  xRealIp : Option HeaderValue
  connectInfo : Option Addr
  path : String
  deriving DecidableEq

/-- What it reads of a response; reading the body may fail. -/
structure Response where
  status : Nat
  contentType : Option HeaderValue
  body : Option (List UInt8)
  deriving DecidableEq

def Response.isSuccess (response : Response) : Bool := 200 ≤ response.status && response.status < 300

/-- What the middleware answers. -/
structure Answer where
  status : Nat
  contentType : Option HeaderValue
  /-- `Idempotency-Replayed`. -/
  replayed : Option Bool
  body : Option (List UInt8)
  deriving DecidableEq

def unprocessableEntity : Answer := ⟨422, none, none, some []⟩

def internalServerError : Answer := ⟨500, none, none, some []⟩

structure CachedResponse where
  status : Nat
  body : List UInt8
  contentType : Option String
  owner : String
  deriving DecidableEq

/-! ## §2. Whose request it is. -/

/-- How serde writes a cached response, and SHA-256 in hexadecimal. -/
structure Crates where
  Text : Type
  cachedResponse : Serde Text CachedResponse
  cachedEntry : Serde Text (CachedEntry CachedResponse)
  ofInt : Int → Text
  toInt : Text → Option Int
  sha256Hex : String → String
  network : Network
  roundTrip : ∀ cached, ∃ text, cachedResponse.toString cached = .ok text ∧ cachedResponse.fromStr text = .ok cached
  sha256Hex_injective : Function.Injective sha256Hex

structure IdempotencyConfig (N : Network) where
  cache : RedisCacheConfig
  trustProxy : Bool
  trustedProxyCidrs : List N.Net
  idempotencyWindowSecs : Nat

def maxKeyLen : Nat := 128

section Identities

variable {K : Crates} (cfg : IdempotencyConfig K.network) (req : Request K.network.Addr)

/-- The first address of a list that is well formed. -/
def firstAddr (candidates : List String) : Option K.network.Addr :=
  candidates.findSome? fun raw =>
    let candidate := trim raw
    if candidate.toList.isEmpty then none else K.network.parse candidate

def extractClientIp : String :=
  let proxyTrusted :=
    if cfg.trustedProxyCidrs.isEmpty then cfg.trustProxy
    else ((req.connectInfo.bind fun ip => K.network.parse (K.network.toString ip)).map fun ip =>
      cfg.trustedProxyCidrs.any fun cidr => K.network.contains cidr ip).getD false
  let forwarded := (req.xForwardedFor.bind toStr).bind fun s =>
    firstAddr (K := K) ((s.toList.splitOn ',').map .ofList)
  let real := (req.xRealIp.bind toStr).bind fun s => firstAddr (K := K) [s]
  let socket := (req.connectInfo.map K.network.toString).getD "unknown"
  if proxyTrusted then ((forwarded.or real).map K.network.toString).getD socket else socket

/-- How a caller is known: a header that cannot be read counts as absent. -/
inductive Identity where
  | apiKey (key : String)
  | authorization (value : String)
  | client (ip userAgent : String)
  deriving DecidableEq

def Request.identity : Identity :=
  match req.xApiKey.bind toStr, req.authorization.bind toStr with
  | some key, _ => .apiKey key
  | none, some value => .authorization value
  | none, none => .client (extractClientIp cfg req) ((req.userAgent.bind toStr).getD "")

variable (K) in
def Identity.toUserId : Identity → String
  | .apiKey key => "api:" ++ K.sha256Hex key
  | .authorization value => "auth:" ++ .ofList (value.toList.take 32)
  | .client ip userAgent => "anon:" ++ K.sha256Hex (ip ++ "|" ++ userAgent)

def extractUserIdentity : String := (req.identity cfg).toUserId K

/-- The key of the request, if it has one that is neither empty nor too long. -/
def Request.rawKey : Option String :=
  ((req.idempotencyKey.bind toStr).map trim).filter fun s => !s.toList.isEmpty && s.utf8ByteSize ≤ maxKeyLen

def idempotencyCacheKey (userId routePath rawKey : String) : String :=
  "idempotency:v2:" ++ userId ++ ":" ++ routePath ++ ":" ++ rawKey

/-- Where the response to a request is cached. -/
def cacheKeyOf (rawKey : String) : String := idempotencyCacheKey (extractUserIdentity cfg req) req.path rawKey

/-- What is cached of a response. -/
def cachedOf (response : Response) (bytes : List UInt8) : CachedResponse where
  status := response.status
  body := bytes
  contentType := response.contentType.bind toStr
  owner := extractUserIdentity cfg req

end Identities

/-! ## §3. The middleware. -/

/-- The handler inside, and the answer that goes out. -/
inductive Question (Addr : Type) where
  | next (req : Request Addr)
  | respond (req : Request Addr) (answer : Answer)

section Middleware

variable (K : Crates)

@[reducible] def Reply : Question K.network.Addr → Type
  | .next _ => Response
  | .respond .. => Unit

/-- The handler may answer anything. -/
def answer (response : Response) : (q : Question K.network.Addr) → Reply K q
  | .next _ => response
  | .respond .. => ()

@[reducible] def Crates.setting : Setting where
  Text := K.Text
  Code := Unit
  Val _ := CachedResponse
  plain _ := K.cachedResponse
  entry _ := K.cachedEntry
  ofInt := K.ofInt
  toInt := K.toInt
  Question := Question K.network.Addr
  Answer := Reply K
  World := Unit
  Choice := Response
  answer response _ q := some (answer K response q, ())
  fallible _ := false

abbrev IdemM (K : Crates) : Type → Type := CacheM K.setting

def next (req : Request K.network.Addr) : IdemM K Response := ask (W := K.setting) (.outside (.next req))

def respond (req : Request K.network.Addr) (answer : Answer) : IdemM K Unit :=
  ask (W := K.setting) (.outside (.respond req answer))

/-- `StatusCode::from_u16`, with 200 for a number that is no status. -/
def statusOf (n : Nat) : Nat := if 100 ≤ n ∧ n < 1000 then n else 200

/-- A cached response as an answer; the builder fails on a content type that is no header. -/
def replay (cached : CachedResponse) : Answer :=
  match cached.contentType with
  | none => ⟨statusOf cached.status, none, some true, some cached.body⟩
  | some ct =>
      match toHeaderValue ct with
      | some v => ⟨statusOf cached.status, some v, some true, some cached.body⟩
      | none => internalServerError

variable (cfg : IdempotencyConfig K.network)

/-- Run the handler, and cache its response if it is a success. -/
def execute (req : Request K.network.Addr) (cacheKey : String) : IdemM K Answer := do
  let response ← next K req
  match response.body with
  | none => return internalServerError
  | some bytes =>
      if response.isSuccess then
        let _ ← (cfg.cache.setJson (W := K.setting) () cacheKey (cachedOf cfg req response bytes)
          cfg.idempotencyWindowSecs).attempt
      return ⟨response.status, response.contentType, some false, some bytes⟩

/-- Replay what is found under the key of the request, or run the handler; an error of the cache counts as nothing. -/
def replayOrExecute (req : Request K.network.Addr) (cacheKey : String) : IdemM K Answer := do
  match ← RedisCacheConfig.okSome (cfg.cache.getJson (W := K.setting) (.plain ()) cacheKey) with
  | some cached =>
      if cached.owner != extractUserIdentity cfg req then return unprocessableEntity else return replay cached
  | none => execute K cfg req cacheKey

def idempotencyMiddleware (req : Request K.network.Addr) : IdemM K Unit := do
  match req.rawKey with
  | none =>
      let response ← next K req
      respond K req ⟨response.status, response.contentType, none, response.body⟩
  | some rawKey =>
      let answer ← replayOrExecute K cfg req (cacheKeyOf cfg req rawKey)
      respond K req answer

end Middleware

/-! ## §4. Requests side by side. -/

section Machines

abbrev System (K : Crates) : Type := Cache.System K.setting

abbrev Action (K : Crates) : Type := Act Nat (Request K.network.Addr) String (Cache.Choice K.setting) Cache.Outside

/-- What the requests have been answered. -/
abbrev Log (K : Crates) : Type := List (Nat × Exchange (Cache.Reply (W := K.setting)) String)

def step (K : Crates) (cfg : IdempotencyConfig K.network) : System K → Action K → System K :=
  Machine.step (server K.setting) (fun _ req => idempotencyMiddleware K cfg req) Cache.outside

end Machines

end PredictIQ.Idempotency
