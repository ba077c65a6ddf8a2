/-
  PredictIQ.Contract.Pyth: the Pyth side of `oracles.rs`.

  A market names its price feed by a text of 64 hex digits, which is decoded
  to 32 bytes before the Pyth contract is asked.  The answer is then checked
  for age and for the width of its confidence interval.  The Pyth contract
  itself is a parameter, and a call to it that fails traps.
-/
import PredictIQ.Contract.Oracles

namespace PredictIQ.Contract

open Foundation Tx

/-! ## §1. Feed ids. -/

/-- `result?` in a body. -/
def tryResult {α : Type} : Except ErrorCode α → Body α
  | .ok a => pure a
  | .error code => abort (.error code)

def hexChar (c : UInt8) : Except ErrorCode UInt8 :=
  if 48 ≤ c ∧ c ≤ 57 then .ok (c - 48)
  else if 97 ≤ c ∧ c ≤ 102 then .ok (c - 97 + 10)
  else if 65 ≤ c ∧ c ≤ 70 then .ok (c - 65 + 10)
  else .error .oracleFailure

/-- `bytes.get(i).ok_or(ErrorCode::OracleFailure)`. -/
def byteAt (bytes : List UInt8) (i : Nat) : Except ErrorCode UInt8 :=
  match bytes[i]? with
  | some b => .ok b
  | none => .error .oracleFailure

/-- One turn of the loop of `decode_feed_id`. -/
def decodeByte (bytes : List UInt8) (i : Nat) : Except ErrorCode UInt8 := do
  let hi ← hexChar (← byteAt bytes (i * 2))
  let lo ← hexChar (← byteAt bytes (i * 2 + 1))
  return (hi <<< 4) ||| lo

/-- `decode_feed_id`, of the bytes of the text. -/
def decodeFeedId (bytes : List UInt8) : Except ErrorCode (List UInt8) :=
  if bytes.length ≠ 64 then .error .oracleFailure
  else (List.range 32).mapM (decodeByte bytes)

/-- `Bytes::from(feed_id)`. -/
def OracleConfig.feedBytes (config : OracleConfig) : List UInt8 := config.feedId.toUTF8.toList

def verifyOracleHealth (config : OracleConfig) : Bool :=
  (decodeFeedId config.feedBytes).isOk

def validateOracleConfig (config : OracleConfig) : Except ErrorCode Unit :=
  if verifyOracleHealth config then .ok () else .error .oracleFailure

/-! ## §2. Prices. -/

structure PythPrice where
  price : Int
  conf : Nat
  expo : Int
  publishTime : Int
  deriving DecidableEq, Repr

/-- `PythOracleClient::get_price` at an address, for a feed. -/
abbrev PythOracleClient : Type := Address → List UInt8 → Option PythPrice

def fetchPythPrice (client : PythOracleClient) (config : OracleConfig) : Body PythPrice := do
  let feedId ← tryResult (decodeFeedId config.feedBytes)
  orTrap (client config.oracleAddress feedId)

def castExternalTimestamp (ts : Int) : Except ErrorCode Nat :=
  if ts < 0 then .error .invalidTimestamp else .ok ts.toNat

def isStale (currentTime resultTime maxStalenessSeconds : Nat) : Bool :=
  -- the age saturates at 0
  maxStalenessSeconds < currentTime - resultTime

/-- `abs_price_to_u64`: `i64::MIN` becomes `i64::MAX`. -/
def absPriceToU64 (price : Int) : Nat := if price = -2 ^ 63 then 2 ^ 63 - 1 else price.natAbs

/-- `u64::saturating_mul`. -/
def saturatingMulU64 (a b : Nat) : Nat := min (a * b) (2 ^ 64 - 1)

def validatePrice (price : PythPrice) (config : OracleConfig) : Body Unit := do
  let publishTime ← tryResult (castExternalTimestamp price.publishTime)
  let currentTime ← reads (·.timestamp)
  failIf (isStale currentTime publishTime (effectiveMaxStaleness config) = true) .stalePrice
  let priceAbs := absPriceToU64 price.price
  let maxConf := saturatingMulU64 priceAbs config.maxConfidenceBps / 10000
  failIf (maxConf < price.conf) .confidenceTooLow

/-! ## §3. What each computes. -/

section Rules

variable {env : Env} {w w' : World} {u : Unit}

@[simp] theorem tryResult_ok {α : Type} {r : Except ErrorCode α} {a : α} :
    tryResult r env w = (.ok a, w') ↔ r = .ok a ∧ w = w' := by
  cases r <;> simp [tryResult]

@[simp] theorem castExternalTimestamp_ok {ts : Int} {t : Nat} :
    castExternalTimestamp ts = .ok t ↔ ts = t := by
  unfold castExternalTimestamp
  by_cases hneg : ts < 0
  · rw [if_pos hneg]
    constructor
    · intro h
      cases h
    · intro h
      omega
  · rw [if_neg hneg, Except.ok.injEq]
    omega

/-- A price passes when its time is none before the epoch, it is fresh, and
its confidence is within the bound. -/
theorem validatePrice_ok {price : PythPrice} {config : OracleConfig} :
    validatePrice price config env w = (.ok u, w') ↔
      (∃ t : Nat, price.publishTime = t ∧ w.timestamp - t ≤ effectiveMaxStaleness config)
        ∧ price.conf ≤
            saturatingMulU64 (absPriceToU64 price.price) config.maxConfidenceBps / 10000
        ∧ w = w' := by
  simp only [validatePrice, bind_eq_ok, tryResult_ok, castExternalTimestamp_ok, reads_eq_ok,
    failIf_ok, isStale, decide_eq_true_eq, not_lt, and_assoc, exists_and_left, exists_eq_left',
    exists_const]
  constructor
  · intro h
    obtain ⟨t, ht, hfresh, hconf, hw⟩ := h
    exact ⟨⟨t, ht, hfresh⟩, hconf, hw⟩
  · intro h
    obtain ⟨⟨t, ht, hfresh⟩, hconf, hw⟩ := h
    exact ⟨t, ht, hfresh, hconf, hw⟩

end Rules

end PredictIQ.Contract
