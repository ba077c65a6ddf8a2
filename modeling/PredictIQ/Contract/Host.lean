/-
  PredictIQ.Contract.Host: the host a contract call runs on.

  The world a call reads and writes: the contract's storage (one record per
  source module, one field per storage key, `Option` for a key that may be
  absent), the balances the token contracts keep, the log of token transfers,
  the published events and the ledger clock.  A call also sees an `Env`: who
  authorised it and what the other contracts answer.

  The storage keys of the source are disjoint enumerations, so a field per
  key is the same store.  TTL extension (`extend_ttl`) moves no data and is
  left out.  Traps and `Err` both abort; the host keeps the writes of a call
  only if it returns `Ok` (`Tx.commit`).
-/
import PredictIQ.Contract.Types
import PredictIQ.Foundation.Transaction

namespace PredictIQ.Contract

open Foundation

/-! ## §1. Storage, one record per module. -/

/-- `admin.rs`: `ConfigKey::{Admin, PendingAdmin, GuardianAccount,
GovernanceToken}`. -/
structure AdminStore where
  admin : Option Address := none
  pendingAdmin : Option Address := none
  guardianAccount : Option Address := none
  governanceToken : Option Address := none

/-- `fees.rs`: `ConfigKey::{BaseFee, FeeAdmin}` and `fees::DataKey`. -/
structure FeeStore where
  baseFee : Option Int := none
  feeAdmin : Option Address := none
  totalFeesCollected : Option Int := none
  feeRevenue : Store Address Int := ∅
  /-- Keyed by (referrer, token). -/
  referrerBalance : Store (Address × Address) Int := ∅

/-- `markets.rs`: the configuration read at market creation. -/
structure MarketConfigStore where
  creationDeposit : Option Int := none
  creationFee : Option Int := none
  protocolTreasury : Option Address := none
  creatorReputation : Store Address CreatorReputation := ∅

/-- `markets.rs`: the market records, their counter and their indexes. -/
structure MarketStore where
  market : Store Nat Market := ∅
  marketCount : Option Nat := none
  marketDisputeWindow : Store Nat Nat := ∅
  statusIndex : Store (Nat × MarketStatus) Bool := ∅

/-- `bets.rs`: keyed by (market, bettor, outcome). -/
structure BetStore where
  bet : Store (Nat × Address × Nat) Bet := ∅
  betReferrer : Store (Nat × Address × Nat) Address := ∅

/-- `voting.rs`. -/
structure VotingStore where
  vote : Store (Nat × Address) Vote := ∅
  voteTally : Store (Nat × Nat) Int := ∅
  lockedTokens : Store (Nat × Address) LockedTokens := ∅
  lockedBalance : Store (Nat × Address) Int := ∅
  disputeVoters : Store Nat (List Address) := ∅

/-- `oracles.rs`: keyed by (market, oracle index). -/
structure OracleStore where
  result : Store (Nat × Nat) Nat := ∅
  lastUpdate : Store (Nat × Nat) Nat := ∅

/-- `resolution.rs`: the dispute window configuration. -/
structure WindowStore where
  defaultDisputeWindow : Option Nat := none
  minDisputeWindow : Option Nat := none
  maxDisputeWindow : Option Nat := none

/-- `circuit_breaker.rs` and `monitoring.rs` (instance storage).
`persistentState` is the entry `initialize` writes in persistent storage,
which `get_state` does not read. -/
structure BreakerStore where
  circuitBreakerState : Option CircuitBreakerState := none
  persistentState : Option CircuitBreakerState := none
  circuitBreakerThreshold : Option Int := none
  openedAt : Option Nat := none
  halfOpenOps : Option Nat := none
  errorCount : Option Nat := none
  lastObservation : Option Nat := none

/-- `governance.rs`. -/
structure GovernanceStore where
  guardianSet : Option (List Guardian) := none
  pendingUpgrade : Option PendingUpgrade := none
  pendingUpgradePassedAt : Option Nat := none
  upgradeRejectedAt : Store BytesN32 Nat := ∅
  timelockDuration : Option Nat := none
  pendingGuardianRemoval : Option PendingGuardianRemoval := none
  pendingGuardianRemovalPassedAt : Option Nat := none
  pendingEmergencyPause : Option (List Address) := none

/-- `event_archive.rs`. -/
structure ArchiveStore where
  archivedMarketCount : Option Nat := none
  archivedMarket : Store Nat Nat := ∅

/-! ## §2. Tokens and events. -/

/-- One transfer performed by a token contract. -/
structure Transfer where
  token : Address
  payer : Address
  payee : Address
  amount : Int
  deriving DecidableEq, Repr

/-- Published events, by topic 0; every payload also carries
`EVENT_VERSION = 1`. -/
inductive Event where
  | mktCreat (marketId : Nat) (creator : Address) (description : String) (numOutcomes deadline : Nat)
  | betPlace (marketId : Nat) (bettor : Address) (outcome : Nat) (amount : Int)
  | dispFile (marketId : Nat) (disciplinarian : Address) (newDeadline : Nat)
  | resolvFx (marketId : Nat) (resolver : Address) (winningOutcome : Nat) (totalPayout : Int)
  | voteCast (marketId : Nat) (voter : Address) (outcome : Nat) (weight : Int)
  | cbState (contractAddress : Address) (state : CircuitBreakerState)
  | oracleOk (marketId : Nat) (oracleSource : Address) (oracleId outcome : Nat)
  | orclRes (marketId : Nat) (oracleAddress : Address) (outcome : Nat)
  | mktFinal (marketId : Nat) (resolver : Address) (winningOutcome : Nat)
  | dispRes (marketId : Nat) (resolver : Address) (winningOutcome : Nat)
  | mktState (marketId : Nat) (oldStatus newStatus : String) (timestamp : Nat)
  | mktCncl (marketId : Nat) (admin : Address)
  | mkCnVt (marketId : Nat) (resolver : Address)
  | refRwrd (marketId : Nat) (referrer : Address) (amount : Int)
  | refClaim (marketId : Nat) (claimer : Address) (amount : Int)
  | feeColct (marketId : Nat) (token recipient : Address) (amount : Int)
  | cbThrSet (oldThreshold newThreshold : Int)
  | monReset (resetter : Address) (previousErrorCount previousLastObservation : Nat)
  | mktPrune (marketId prunedAt : Nat)
  | upgInit (initiator : Address) (wasmHash : BytesN32)
  | upgVote (voter : Address) (voteFor : Bool)
  | xferFail (payer payee token : Address) (amount : Int)
  | tokenFrz (token user : Address)
  | feesWithdrawn (recipient token : Address) (amount : Int)
  | cbAuto (errorCount : Nat)
  deriving DecidableEq, Repr

/-- Events that say nothing of a market's status, outcome or stakes. -/
def Event.aside : Event → Bool
  | .voteCast .. => true
  | .cbState .. => true
  | .oracleOk .. => true
  | .refRwrd .. => true
  | .refClaim .. => true
  | .feeColct .. => true
  | .cbThrSet .. => true
  | .monReset .. => true
  | .upgInit .. => true
  | .upgVote .. => true
  | .xferFail .. => true
  | .tokenFrz .. => true
  | .feesWithdrawn .. => true
  | .cbAuto .. => true
  | _ => false

/-! ## §3. The world and the call environment. -/

structure World where
  admin : AdminStore := {}
  fees : FeeStore := {}
  marketConfig : MarketConfigStore := {}
  markets : MarketStore := {}
  bets : BetStore := {}
  voting : VotingStore := {}
  oracles : OracleStore := {}
  windows : WindowStore := {}
  breaker : BreakerStore := {}
  governance : GovernanceStore := {}
  archive : ArchiveStore := {}
  /-- What each token contract records for each holder. -/
  balances : Address → Address → Nat := fun _ _ => 0
  /-- The transfers token contracts have performed, oldest first. -/
  transfers : List Transfer := []
  events : List Event := []
  /-- The code installed by the last `update_current_contract_wasm`. -/
  wasm : Option BytesN32 := none
  /-- `e.ledger().timestamp()`. -/
  timestamp : Nat := 0
  /-- `e.ledger().sequence()`. -/
  sequence : Nat := 0

/-- What a call sees of the outside: the authorisations it carries, and how
the token contracts answer. -/
structure Env where
  /-- Whose `require_auth` succeeds. -/
  authorized : Address → Bool
  /-- The token refuses this transfer for a reason of its own. -/
  refuses : Transfer → Bool := fun _ => false
  /-- `frozen(user)`, `none` when the token has no such function. -/
  frozen : Address → Address → Option Bool := fun _ _ => none
  /-- `balance_at(account, ledger)`, `none` when the call fails. -/
  balanceAt : Address → Address → Nat → Option Int := fun _ _ _ => none
  /-- `decimals()`, `none` when the call fails. -/
  decimals : Address → Option Nat := fun _ => none

/-- What the contract calls and the source does not define. -/
structure Externs where
  /-- `voting::get_market_votes(e, market_id)`. -/
  getMarketVotes : VotingStore → Nat → List Vote
  /-- The event of `events::emit_upgrade_executed(e, executor, wasm_hash)`. -/
  emitUpgradeExecuted : Address → BytesN32 → Event
  /-- The event of `events::emit_upgrade_rejected(e, wasm_hash)`. -/
  emitUpgradeRejected : BytesN32 → Event

/-- The body of a contract function. -/
abbrev Body (α : Type) : Type := Tx Env Abort World α

open Tx

/-- Return `Err(code)` when `c` holds. -/
def failIf (c : Prop) [Decidable c] (code : ErrorCode) : Body Unit := rejectIf c (.error code)

/-- `opt.ok_or(code)?`. -/
def orErr {α : Type} (o : Option α) (code : ErrorCode) : Body α := okOr o (.error code)

/-- A value the host computes or traps on. -/
def orTrap {α : Type} (o : Option α) : Body α := okOr o .trap

/-- `address.require_auth()`. -/
def requireAuth (a : Address) : Body Unit := do
  let env ← context
  rejectIf (env.authorized a = false) .trap

/-- `e.events().publish(..)`. -/
def publish (ev : Event) : Body Unit := update fun w => { w with events := w.events ++ [ev] }

/-! ## §4. Checked arithmetic. -/

/-- `i128::checked_add` / `checked_mul` / `checked_div`. -/
def inI128 (x : Int) : Option Int := if -2 ^ 127 ≤ x ∧ x < 2 ^ 127 then some x else none

def checkedAdd (a b : Int) : Option Int := inI128 (a + b)

def checkedMul (a b : Int) : Option Int := inI128 (a * b)

def checkedDiv (a b : Int) : Option Int := if b = 0 then none else inI128 (a.tdiv b)

/-- `u32` and `u64` addition under `overflow-checks`: `none` is the trap. -/
def addU32 (a b : Nat) : Option Nat := if a + b < 2 ^ 32 then some (a + b) else none

def mulU32 (a b : Nat) : Option Nat := if a * b < 2 ^ 32 then some (a * b) else none

def addU64 (a b : Nat) : Option Nat := if a + b < 2 ^ 64 then some (a + b) else none

theorem inI128_eq_some {x y : Int} : inI128 x = some y ↔ (-2 ^ 127 ≤ x ∧ x < 2 ^ 127) ∧ y = x := by
  unfold inI128
  split <;> simp_all [eq_comm]

/-- A quotient of what is not negative is no larger, and fits. -/
theorem checkedDiv_of_nonneg {a b : Int} (ha : 0 ≤ a) (hfits : a < 2 ^ 127) (hb : 0 < b) :
    checkedDiv a b = some (a / b) := by
  have hlo : 0 ≤ a / b := Int.ediv_nonneg ha (by omega)
  have hhi : a / b ≤ a := Int.ediv_le_self b ha
  unfold checkedDiv
  rw [if_neg (by omega), Int.tdiv_eq_ediv_of_nonneg ha]
  exact inI128_eq_some.mpr ⟨⟨by omega, by omega⟩, rfl⟩

theorem addU32_eq_some {a b c : Nat} : addU32 a b = some c ↔ a + b < 2 ^ 32 ∧ c = a + b := by
  unfold addU32
  split <;> simp_all [eq_comm]

theorem addU32_eq_none {a b : Nat} : addU32 a b = none ↔ 2 ^ 32 ≤ a + b := by
  unfold addU32
  split <;> simp_all

theorem addU64_eq_some {a b c : Nat} : addU64 a b = some c ↔ a + b < 2 ^ 64 ∧ c = a + b := by
  unfold addU64
  split <;> simp_all [eq_comm]

theorem addU64_eq_none {a b : Nat} : addU64 a b = none ↔ 2 ^ 64 ≤ a + b := by
  unfold addU64
  split <;> simp_all

/-! ## §5. Token calls. -/

/-- What a transfer of `x.amount` leaves with every holder of `x.token`. -/
def moveBalance (b : Address → Address → Nat) (x : Transfer) : Address → Address → Nat :=
  fun token holder =>
    if token = x.token then
      -- out of the payer first, so that a transfer to oneself changes nothing
      (if holder = x.payer then b token holder - x.amount.toNat else b token holder)
        + (if holder = x.payee then x.amount.toNat else 0)
    else b token holder

/-- The world after the token contract has performed `x`. -/
def World.pay (w : World) (x : Transfer) : World :=
  { w with balances := moveBalance w.balances x, transfers := w.transfers ++ [x] }

/-- A transfer goes through when the amount is not negative, the payer holds
it and the token does not refuse. -/
def Transferable (env : Env) (w : World) (x : Transfer) : Prop :=
  0 ≤ x.amount ∧ x.amount ≤ w.balances x.token x.payer ∧ env.refuses x = false

instance (env : Env) (w : World) (x : Transfer) : Decidable (Transferable env w x) :=
  inferInstanceAs (Decidable (_ ∧ _))

/-- `token::Client::transfer`: a failed transfer traps. -/
def tokenTransfer (token payer payee : Address) (amount : Int) : Body Unit := fun env w =>
  if Transferable env w ⟨token, payer, payee, amount⟩ then
    (.ok (), w.pay ⟨token, payer, payee, amount⟩)
  else (.error .trap, w)

/-- `token::Client::balance`. -/
def tokenBalance (token holder : Address) : Body Int := reads fun w => w.balances token holder

/-! ## §6. The rules of these operations. -/

section Rules

variable {env : Env} {w w' : World}

@[simp] theorem failIf_ok {c : Prop} [Decidable c] {code : ErrorCode} {u : Unit} :
    failIf c code env w = (.ok u, w') ↔ ¬c ∧ w = w' := rejectIf_eq_ok

theorem failIf_of_pos {c : Prop} [Decidable c] {code : ErrorCode} (h : c) :
    failIf c code env w = (.error (.error code), w) := by
  unfold failIf rejectIf
  rw [if_pos h]
  rfl

theorem failIf_of_neg {c : Prop} [Decidable c] {code : ErrorCode} (h : ¬c) :
    failIf c code env w = (.ok (), w) := failIf_ok.mpr ⟨h, rfl⟩

@[simp] theorem orErr_ok {α : Type} {o : Option α} {code : ErrorCode} {a : α} :
    orErr o code env w = (.ok a, w') ↔ o = some a ∧ w = w' := okOr_eq_ok

@[simp] theorem orTrap_ok {α : Type} {o : Option α} {a : α} :
    orTrap o env w = (.ok a, w') ↔ o = some a ∧ w = w' := okOr_eq_ok

@[simp] theorem requireAuth_ok {a : Address} {u : Unit} :
    requireAuth a env w = (.ok u, w') ↔ env.authorized a = true ∧ w = w' := by
  simp [requireAuth]
  tauto

theorem requireAuth_of_authorized {a : Address} (h : env.authorized a = true) :
    requireAuth a env w = (.ok (), w) := requireAuth_ok.mpr ⟨h, rfl⟩

theorem requireAuth_state (a : Address) (env : Env) (w : World) : (requireAuth a env w).2 = w := by
  show (rejectIf (env.authorized a = false) Abort.trap env w).2 = w
  unfold rejectIf
  split <;> rfl

@[simp] theorem publish_ok {ev : Event} {u : Unit} :
    publish ev env w = (.ok u, w') ↔ w' = { w with events := w.events ++ [ev] } :=
  update_eq_ok

@[simp] theorem tokenTransfer_ok {token payer payee : Address} {amount : Int} {u : Unit} :
    tokenTransfer token payer payee amount env w = (.ok u, w') ↔
      Transferable env w ⟨token, payer, payee, amount⟩
        ∧ w' = w.pay ⟨token, payer, payee, amount⟩ := by
  unfold tokenTransfer
  split <;> simp_all [eq_comm]

@[simp] theorem tokenBalance_ok {token holder : Address} {b : Int} :
    tokenBalance token holder env w = (.ok b, w') ↔ w.balances token holder = b ∧ w = w' :=
  reads_eq_ok

/-! ## §7. What these operations never stop with. -/

variable {code code' : ErrorCode}

theorem failIf_avoids {c : Prop} [Decidable c] (h : code' ≠ code) :
    Avoids (.error code) (failIf c code') :=
  .rejectIf fun h' => h (Abort.error.inj h')

theorem orErr_avoids {α : Type} {o : Option α} (h : code' ≠ code) :
    Avoids (.error code) (orErr o code') :=
  .okOr fun h' => h (Abort.error.inj h')

theorem orTrap_avoids {α : Type} (o : Option α) : Avoids (.error code) (orTrap o) :=
  .okOr (nofun)

theorem tokenTransfer_avoids (token payer payee : Address) (amount : Int) :
    Avoids (.error code) (tokenTransfer token payer payee amount) := by
  intro env w v h
  unfold tokenTransfer at h
  split at h <;> cases h

/-! ## §8. What is published. -/

/-- From `w` to `w'`, `evs` was published, and before it only events aside. -/
def Publishes (w : World) (evs : List Event) (w' : World) : Prop :=
  ∃ asides, asides.all Event.aside = true ∧ w'.events = w.events ++ asides ++ evs

theorem Publishes.of_eq (h : w'.events = w.events) : Publishes w [] w' := by
  refine ⟨[], rfl, ?_⟩
  rw [h, List.append_nil, List.append_nil]

theorem Publishes.of_append {evs : List Event} (h : w'.events = w.events ++ evs) :
    Publishes w evs w' := by
  refine ⟨[], rfl, ?_⟩
  rw [h, List.append_nil]

/-- One event aside. -/
theorem Publishes.of_aside {ev : Event} (hev : ev.aside = true)
    (h : w'.events = w.events ++ [ev]) : Publishes w [] w' := by
  refine ⟨[ev], ?_, ?_⟩
  · rw [List.all_cons, hev]
    rfl
  · rw [h, List.append_nil]

/-- What was published after events aside. -/
theorem Publishes.trans {v : World} {evs : List Event} (h : Publishes w [] v)
    (h' : Publishes v evs w') : Publishes w evs w' := by
  obtain ⟨asides, hasides, hv⟩ := h
  obtain ⟨asides', hasides', hw'⟩ := h'
  refine ⟨asides ++ asides', ?_, ?_⟩
  · rw [List.all_append, hasides, hasides']
    rfl
  · rw [hw', hv, List.append_nil, List.append_assoc w.events]

end Rules

end PredictIQ.Contract
