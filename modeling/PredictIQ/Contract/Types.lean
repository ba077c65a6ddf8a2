/-
  PredictIQ.Contract.Types: the contract's data (`types.rs`, `errors.rs`).

  Machine integers: `u32` and `u64` values are `Nat`, `i128` values are `Int`;
  the operations that can overflow are checked where the source performs them
  (see `Host`).  `Map<u32, _>` fields are finite maps over `Nat`.
-/
import PredictIQ.Foundation.Store

namespace PredictIQ.Contract

open Foundation

/-! ## §1. Host values. -/

/-- A Soroban address (account or contract). -/
structure Address where
  id : Nat
  deriving DecidableEq, Repr

/-- `e.current_contract_address()`. -/
def currentContractAddress : Address := ⟨0⟩

/-- `BytesN<32>`: the hash of an uploaded contract body. -/
abbrev BytesN32 : Type := BitVec 256

/-! ## §2. Error codes. -/

/-- `ErrorCode`.  The last five are returned by the source but missing from
its enumeration. -/
inductive ErrorCode where
  | alreadyInitialized | notAuthorized | marketNotFound | marketClosed | marketStillActive
  | invalidOutcome | invalidBetAmount | insufficientBalance | oracleFailure
  | circuitBreakerOpen | disputeWindowClosed | votingNotStarted | votingEnded | alreadyVoted
  | feeTooHigh | marketNotActive | deadlinePassed | cannotChangeOutcome | marketNotDisputed
  | marketNotPendingResolution | adminNotSet | contractPaused | guardianNotSet
  | tooManyOutcomes | tooManyWinners | payoutModeNotSupported | insufficientDeposit
  | timelockActive | upgradeNotInitiated | insufficientVotes | alreadyVotedOnUpgrade
  | invalidWasmHash | upgradeFailed | parentMarketNotResolved | parentMarketInvalidOutcome
  | resolutionNotReady | disputeWindowStillOpen | noMajorityReached | stalePrice
  | confidenceTooLow | insufficientVotingWeight | marketNotCancelled | betNotFound
  | upgradeAlreadyPending | upgradeHashInCooldown | invalidAmount | governanceTokenNotSet
  | marketNotResolved | invalidDeadline | pendingTransferNotFound | notPendingOwner
  | tokenFrozen | migrationValidationError | assetClawedBack | arithmeticOverflow
  | alreadyClaimed | noWinnings | invalidReferrer | resolutionDeadlinePassed | overflow
  | invalidTimeRange | guardianCannotVoteOnOwnRemoval | belowMinimumGuardianCount
  | insufficientReputation | transferFailed | noVotesCast | noMajority | invalidTimestamp
  deriving DecidableEq, Repr

/-- How a body stops early: a returned `ErrorCode`, or a host trap (failed
`require_auth`, overflow with `overflow-checks = true`, a failed token call). -/
inductive Abort where
  | error (code : ErrorCode)
  | trap
  deriving DecidableEq, Repr

/-! ## §3. Markets. -/

inductive MarketStatus where
  | active | pendingResolution | disputed | resolved | cancelled
  deriving DecidableEq, Repr

inductive PayoutMode where
  | push | pull
  deriving DecidableEq, Repr

inductive MarketTier where
  | basic | pro | institutional
  deriving DecidableEq, Repr

inductive CreatorReputation where
  | none | basic | pro | institutional
  deriving DecidableEq, Repr

structure OracleConfig where
  oracleAddress : Address
  feedId : String
  minResponses : Option Nat
  maxStalenessSeconds : Nat
  maxConfidenceBps : Nat
  strikePrice : Option Int
  deriving DecidableEq, Repr

structure Market where
  id : Nat
  creator : Address
  description : String
  options : List String
  status : MarketStatus
  deadline : Nat
  resolutionDeadline : Nat
  winningOutcome : Option Nat
  oracleConfig : OracleConfig
  totalStaked : Int
  payoutMode : PayoutMode
  tier : MarketTier
  creationDeposit : Int
  /-- `0` means no parent. -/
  parentId : Nat
  parentOutcomeIdx : Nat
  resolvedAt : Option Nat
  tokenAddress : Address
  outcomeStakes : Store Nat Int
  pendingResolutionTimestamp : Option Nat
  disputeSnapshotLedger : Option Nat
  disputeTimestamp : Option Nat
  winnerCounts : Store Nat Nat
  totalClaimed : Int

structure Bet where
  marketId : Nat
  bettor : Address
  outcome : Nat
  amount : Int
  feePaid : Int
  deriving DecidableEq, Repr

structure Vote where
  marketId : Nat
  voter : Address
  outcome : Nat
  weight : Int
  deriving DecidableEq, Repr

structure LockedTokens where
  voter : Address
  marketId : Nat
  amount : Int
  unlockTime : Nat
  deriving DecidableEq, Repr

/-- `MAX_OUTCOMES_PER_MARKET`. -/
def maxOutcomesPerMarket : Nat := 100

/-- `CANCEL_OUTCOME_INDEX`: the sentinel outcome of community cancel votes. -/
def cancelOutcomeIndex : Nat := 2 ^ 32 - 1

/-- `PRUNE_GRACE_PERIOD`: 30 days. -/
def pruneGracePeriod : Nat := 2592000

/-! ## §4. Circuit breaker and governance. -/

inductive CircuitBreakerState where
  | closed | opened | halfOpen | paused
  deriving DecidableEq, Repr

structure Guardian where
  address : Address
  votingPower : Nat
  deriving DecidableEq, Repr

structure PendingUpgrade where
  wasmHash : BytesN32
  initiatedAt : Nat
  votesFor : List Address
  votesAgainst : List Address
  deriving DecidableEq, Repr

structure PendingGuardianRemoval where
  targetGuardian : Address
  initiatedAt : Nat
  votesFor : List Address
  votesAgainst : List Address
  deriving DecidableEq, Repr

/-- `TIMELOCK_DURATION`: 48 hours. -/
def timelockDuration : Nat := 48 * 60 * 60

/-- `TIMELOCK_MIN_SECONDS`: 24 hours. -/
def timelockMinSeconds : Nat := 24 * 60 * 60

/-- `TIMELOCK_MAX_SECONDS`: 7 days. -/
def timelockMaxSeconds : Nat := 7 * 24 * 3600

/-- `MAJORITY_THRESHOLD_PERCENT`. -/
def majorityThresholdPercent : Nat := 51

/-- `UPGRADE_COOLDOWN_DURATION`: 7 days. -/
def upgradeCooldownDuration : Nat := 7 * 24 * 3600

/-- `GUARDIAN_REMOVAL_VOTE_WINDOW`: 7 days. -/
def guardianRemovalVoteWindow : Nat := 7 * 24 * 3600

end PredictIQ.Contract
