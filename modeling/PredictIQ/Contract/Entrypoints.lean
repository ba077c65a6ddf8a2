/-
  PredictIQ.Contract.Entrypoints: the contract interface (`lib.rs`) as a
  transition system.

  `exec` is the body behind each entrypoint, guards of the interface included.
  A call runs its body and keeps the writes only if it returns `Ok`.  Between
  calls time passes and holders move tokens of their own.  The read-only
  entrypoints leave the world as it is and are left out, as are
  `claim_winnings` and `withdraw_refund`, which have no body in the source.
-/
import PredictIQ.Contract.Disputes
import PredictIQ.Contract.Governance
import PredictIQ.Foundation.Run

namespace PredictIQ.Contract

open Foundation Tx

/-! ## §1. Calls. -/

/-- The state-changing entrypoints, with their arguments. -/
inductive Call where
  | initializeContract (admin : Address) (baseFee : Int)
  | proposeAdmin (newAdmin : Address)
  | acceptAdmin (caller : Address)
  | cancelAdminTransfer
  | createMarket (p : MarketParams)
  | createMarketWithDisputeWindow (p : MarketParams) (disputeWindowSeconds : Option Nat)
  | placeBet (b : BetParams)
  | castVote (voter : Address) (marketId outcome : Nat) (weight : Int)
  | fileDispute (disciplinarian : Address) (marketId : Nat)
  | setDisputeWindow (seconds : Nat)
  | setDisputeWindowBounds (minSeconds maxSeconds : Nat)
  | setCircuitBreaker (state : CircuitBreakerState)
  | setCircuitBreakerThreshold (threshold : Int)
  | setBaseFee (amount : Int)
  | setFeeAdmin (feeAdmin : Address)
  | withdrawProtocolFees (token recipient : Address)
  | claimReferralRewards (address token : Address)
  | setOracleResult (marketId oracleId outcome : Nat)
  | validateOracleStaleness (marketId : Nat)
  | resolveMarket (marketId winningOutcome : Nat)
  | setGovernanceToken (token : Address)
  | attemptOracleResolution (marketId : Nat)
  | finalizeResolution (marketId : Nat)
  | resetMonitoring
  | setGuardian (guardian : Address)
  | pause
  | unpause
  | setCreatorReputation (creator : Address) (reputation : CreatorReputation)
  | setCreationDeposit (amount : Int)
  | releaseCreationDeposit (marketId : Nat) (nativeToken : Address)
  | setCreationFee (amount : Int)
  | setProtocolTreasury (treasury : Address)
  | initializeGuardians (guardians : List Guardian)
  | addGuardian (guardian : Guardian)
  | removeGuardian (address : Address)
  | voteOnGuardianRemoval (voter : Address) (approve : Bool)
  | executeGuardianRemoval
  | initiateUpgrade (wasmHash : BytesN32)
  | voteForUpgrade (voter : Address) (voteFor : Bool)
  | executeUpgrade
  | setTimelockDuration (seconds : Nat)
  | emergencyPause (voter : Address)
  | pruneMarket (marketId : Nat)
  | cancelMarketAdmin (marketId : Nat)
  | cancelMarketVote (marketId : Nat)

/-- What an entrypoint returns in `Ok`. -/
inductive Ret where
  | unit
  | marketId (id : Nat)
  | amount (x : Int)
  | recorded (b : Bool)
  | wasmHash (hash : BytesN32)
  deriving DecidableEq, Repr

/-- `initialize`. -/
def initializeContract (admin : Address) (baseFee : Int) : Body Unit := do
  let current ← getAdmin
  failIf (current ≠ none) .alreadyInitialized
  setAdmin admin
  update fun w => { w with fees.baseFee := some baseFee }
  update fun w => { w with breaker.persistentState := some .closed }

/-- Run a body that returns `()`. -/
def done (x : Body Unit) : Body Ret := do
  x
  pure .unit

/-- Run a body and wrap what it returns. -/
def returning {α : Type} (f : α → Ret) (x : Body α) : Body Ret := do
  let a ← x
  pure (f a)

/-- The body behind each entrypoint. -/
def exec (X : Externs) : Call → Body Ret
  | .initializeContract admin baseFee => done (initializeContract admin baseFee)
  | .proposeAdmin newAdmin => done (proposeAdmin newAdmin)
  | .acceptAdmin caller => done (acceptAdmin caller)
  | .cancelAdminTransfer => done cancelAdminTransfer
  | .createMarket p => returning .marketId (createMarket p)
  | .createMarketWithDisputeWindow p dw =>
      returning .marketId (createMarketWithDisputeWindow p dw)
  | .placeBet b => done (placeBet b)
  | .castVote voter marketId outcome weight => done do
      requireClosed
      castVote voter marketId outcome weight
  | .fileDispute disciplinarian marketId => done do
      requireClosed
      fileDispute disciplinarian marketId
  | .setDisputeWindow seconds => done (setDisputeWindow seconds)
  | .setDisputeWindowBounds minSeconds maxSeconds =>
      done (setDisputeWindowBounds minSeconds maxSeconds)
  | .setCircuitBreaker state => done (setState state)
  | .setCircuitBreakerThreshold threshold => done (setThreshold threshold)
  | .setBaseFee amount => done (setBaseFee amount)
  | .setFeeAdmin feeAdmin => done (setFeeAdmin feeAdmin)
  | .withdrawProtocolFees token recipient =>
      returning .amount (withdrawProtocolFees token recipient)
  | .claimReferralRewards address token => returning .amount (claimReferralRewards address token)
  | .setOracleResult marketId oracleId outcome => done do
      requireAdmin
      setOracleResult marketId oracleId outcome
  | .validateOracleStaleness marketId => done do
      let market ← loadMarket marketId
      validateOracleStaleness marketId market.oracleConfig
  | .resolveMarket marketId winningOutcome => done do
      requireAdmin
      resolveMarket marketId winningOutcome
  | .setGovernanceToken token => done (setGovernanceToken token)
  | .attemptOracleResolution marketId => done (attemptOracleResolution marketId)
  | .finalizeResolution marketId => done (finalizeResolution X marketId)
  | .resetMonitoring => done do
      requireAdmin
      resetMonitoring
  | .setGuardian guardian => done (setGuardian guardian)
  | .pause => done pause
  | .unpause => done unpause
  | .setCreatorReputation creator reputation => done (setCreatorReputation creator reputation)
  | .setCreationDeposit amount => done (setCreationDeposit amount)
  | .releaseCreationDeposit marketId nativeToken =>
      done (releaseCreationDeposit marketId nativeToken)
  | .setCreationFee amount => done (setCreationFee amount)
  | .setProtocolTreasury treasury => done (setProtocolTreasury treasury)
  | .initializeGuardians guardians => done do
      requireAdmin
      initializeGuardians guardians
  | .addGuardian guardian => done (addGuardian guardian)
  | .removeGuardian address => done (removeGuardian address)
  | .voteOnGuardianRemoval voter approve => done (voteOnGuardianRemoval voter approve)
  | .executeGuardianRemoval => done executeGuardianRemoval
  | .initiateUpgrade wasmHash => done (initiateUpgrade wasmHash)
  | .voteForUpgrade voter voteFor => returning .recorded (voteForUpgrade voter voteFor)
  | .executeUpgrade => returning .wasmHash (executeUpgrade X)
  | .setTimelockDuration seconds => done (setTimelockDuration seconds)
  | .emergencyPause voter => done (emergencyPause voter)
  | .pruneMarket marketId => done (pruneMarket marketId)
  | .cancelMarketAdmin marketId => done (cancelMarketAdmin marketId)
  | .cancelMarketVote marketId => done (cancelMarketVote marketId)

/-! ## §2. The transition system. -/

/-- What can happen next. -/
inductive Action where
  /-- Somebody calls an entrypoint. -/
  | call (env : Env) (c : Call)
  /-- The ledger closes: time and sequence number grow. -/
  | advance (seconds ledgers : Nat)
  /-- Token holders move, mint or burn tokens outside the contract. -/
  | external (balances : Address → Address → Nat)

/-- One step: a call keeps its writes only if it returns `Ok`. -/
def step (X : Externs) (w : World) : Action → World
  | .call env c => (commit (exec X c) env w).2
  | .advance seconds ledgers =>
      { w with timestamp := w.timestamp + seconds, sequence := w.sequence + ledgers }
  | .external balances => { w with balances := balances }

/-- The world the contract is deployed into: its storage is empty. -/
def genesis (balances : Address → Address → Nat) (timestamp sequence : Nat) : World :=
  { balances := balances, timestamp := timestamp, sequence := sequence }

/-- A state some run reaches after deployment. -/
def Reachable (X : Externs) (w : World) : Prop :=
  ∃ b t s as, w = run (step X) (genesis b t s) as

/-- The transition is a call of `c` that returned `Ok`. -/
def Succeeds (X : Externs) (env : Env) (c : Call) (w w' : World) : Prop :=
  ∃ r, exec X c env w = (.ok r, w')

@[simp] theorem done_eq_ok {x : Body Unit} {env : Env} {w w' : World} {r : Ret} :
    done x env w = (.ok r, w') ↔ x env w = (.ok (), w') ∧ r = .unit := by
  simp only [done, bind_eq_ok, pure_eq_ok]
  constructor
  · intro h
    obtain ⟨_, _, hx, rfl, rfl⟩ := h
    exact ⟨hx, rfl⟩
  · intro h
    obtain ⟨hx, rfl⟩ := h
    exact ⟨(), w', hx, rfl, rfl⟩

@[simp] theorem returning_eq_ok {α : Type} {f : α → Ret} {x : Body α} {env : Env} {w w' : World}
    {r : Ret} : returning f x env w = (.ok r, w') ↔ ∃ a, x env w = (.ok a, w') ∧ r = f a := by
  simp only [returning, bind_eq_ok, pure_eq_ok]
  constructor
  · intro h
    obtain ⟨a, _, hx, rfl, rfl⟩ := h
    exact ⟨a, hx, rfl⟩
  · intro h
    obtain ⟨a, hx, rfl⟩ := h
    exact ⟨a, w', hx, rfl, rfl⟩

theorem returning_eq_error {α : Type} {f : α → Ret} {x : Body α} {env : Env} {w w' : World}
    {e : Abort} : returning f x env w = (.error e, w') ↔ x env w = (.error e, w') := by
  unfold returning
  rcases hx : x env w with ⟨e' | a, v⟩
  · rw [bind_of_error hx]
    simp
  · rw [bind_of_ok hx]
    simp [Pure.pure, Tx.pure]

theorem done_eq_error {x : Body Unit} {env : Env} {w w' : World} {e : Abort} :
    done x env w = (.error e, w') ↔ x env w = (.error e, w') :=
  returning_eq_error (f := fun _ => .unit)

/-- A step is a success of its call, or it leaves the world alone. -/
theorem step_call_cases (X : Externs) (env : Env) (c : Call) (w : World) :
    step X w (.call env c) = w ∨ Succeeds X env c w (step X w (.call env c)) :=
  commit_state_cases (exec X c) env w

/-- **Error returns change nothing.** -/
theorem step_of_not_succeeds {X : Externs} {env : Env} {c : Call} {w : World}
    (h : ∀ w', ¬Succeeds X env c w w') : step X w (.call env c) = w :=
  (step_call_cases X env c w).resolve_right (h _)

theorem step_of_succeeds {X : Externs} {env : Env} {c : Call} {w w' : World}
    (h : Succeeds X env c w w') : step X w (.call env c) = w' := by
  obtain ⟨r, hr⟩ := h
  show (commit (exec X c) env w).2 = w'
  rw [commit_eq_ok.mpr hr]

/-- The call of this step returned `Ok`. -/
def callOk (X : Externs) (t : Transition World Action) : Bool :=
  match t.act with
  | .call env c => (exec X c env t.pre).1.isOk
  | _ => false

theorem callOk_iff {X : Externs} {env : Env} {c : Call} {w w' : World} :
    callOk X ⟨w, .call env c, w'⟩ = true ↔ Succeeds X env c w (step X w (.call env c)) := by
  constructor
  · intro h
    cases hx : exec X c env w with
    | mk r v =>
        cases r with
        | error e => simp [callOk, hx, Except.isOk, Except.toBool] at h
        | ok a =>
            have hsucc : Succeeds X env c w v := ⟨a, hx⟩
            rw [step_of_succeeds hsucc]
            exact hsucc
  · intro h
    obtain ⟨r, hr⟩ := h
    simp [callOk, hr, Except.isOk, Except.toBool]

theorem callOk_of_succeeds {X : Externs} {env : Env} {c : Call} {w w' : World}
    (h : Succeeds X env c w w') : callOk X ⟨w, .call env c, w'⟩ = true := by
  rw [callOk_iff, step_of_succeeds h]
  exact h

/-- A call that failed left everything. -/
theorem step_of_not_callOk {X : Externs} {env : Env} {c : Call} {w w' : World}
    (h : ¬callOk X ⟨w, .call env c, w'⟩ = true) : step X w (.call env c) = w :=
  (step_call_cases X env c w).resolve_right fun hsucc => h (callOk_iff.mpr hsucc)

/-! ## §3. A deployment to run the contract on. -/

/-- The stored votes of a market, which is what `calculate_voting_outcome`
expects of `get_market_votes`. -/
def storedVotes (s : VotingStore) (marketId : Nat) : List Vote :=
  (s.vote.entries.filter fun e => e.1.1 = marketId).map (·.2)

def sampleExterns : Externs where
  getMarketVotes := storedVotes
  emitUpgradeExecuted := fun executor hash => .upgInit executor hash
  emitUpgradeRejected := fun hash => .upgInit currentContractAddress hash

/-- Calls signed by everybody but the contract, on tokens that refuse nothing. -/
def everybody : Env where
  authorized := fun a => a ≠ currentContractAddress

/-- Everybody but the contract holds a million of every token. -/
def sampleBalances (_token holder : Address) : Nat :=
  if holder = currentContractAddress then 0 else 1000000

def sampleGenesis : World := genesis sampleBalances 0 0

/-- A yes-or-no market closing at 100000, to be resolved from 200000 on. -/
def sampleMarket (creator nativeToken : Address) : MarketParams where
  creator := creator
  description := "sample"
  options := ["yes", "no"]
  deadline := 100000
  resolutionDeadline := 200000
  oracleConfig :=
    { oracleAddress := creator, feedId := "feed", minResponses := some 1, maxStalenessSeconds := 60
      maxConfidenceBps := 100, strikePrice := none }
  tier := .basic
  nativeToken := nativeToken
  parentId := 0
  parentOutcomeIdx := 0

/-- A bet without a referrer. -/
def sampleBet (bettor tokenAddress : Address) (marketId outcome : Nat) (amount : Int) :
    BetParams where
  bettor := bettor
  marketId := marketId
  outcome := outcome
  amount := amount
  tokenAddress := tokenAddress
  referrer := none

/-- Account 1 deploys; account 2 opens a market in token 10; account 3 bets
`stake` on its first outcome. -/
def sampleOpening (baseFee stake : Int) : List Action :=
  [.call everybody (.initializeContract ⟨1⟩ baseFee),
    .call everybody (.createMarket (sampleMarket ⟨2⟩ ⟨10⟩)),
    .call everybody (.placeBet (sampleBet ⟨3⟩ ⟨10⟩ 1 0 stake))]

/-- The state a list of actions leads to. -/
def sampleRun (as : List Action) : World := run (step sampleExterns) sampleGenesis as

theorem sampleRun_reachable (as : List Action) : Reachable sampleExterns (sampleRun as) :=
  ⟨_, _, _, as, rfl⟩

/-- Account 1 deploys and appoints `gs`. -/
def guardianOpening (gs : List Guardian) : List Action :=
  [.call everybody (.initializeContract ⟨1⟩ 0), .call everybody (.initializeGuardians gs)]

theorem guardianOpening_guardians {gs : List Guardian} (hne : gs ≠ [])
    (hadmin : ∀ g ∈ gs, g.address ≠ ⟨1⟩) :
    (sampleRun (guardianOpening gs)).governance.getGuardians = gs := by
  let w : World := sampleRun [.call everybody (.initializeContract ⟨1⟩ 0)]
  have hsucc : Succeeds sampleExterns everybody (.initializeGuardians gs) w
      { w with governance.guardianSet := some gs } := by
    refine ⟨.unit, done_eq_ok.mpr ⟨bind_eq_ok.mpr ⟨(), w, ?_, ?_⟩, rfl⟩⟩
    · exact requireAdmin_ok.mpr ⟨⟨⟨1⟩, rfl, rfl⟩, rfl⟩
    · refine initializeGuardians_ok.mpr ⟨rfl, hne, ?_, rfl⟩
      intro g hg hadm
      exact hadmin g hg (Option.some.inj hadm).symm
  show (step sampleExterns w (.call everybody (.initializeGuardians gs))).governance.getGuardians
    = gs
  rw [step_of_succeeds hsucc]
  rfl

end PredictIQ.Contract
