/-
  PredictIQ.Contract.Markets: `markets.rs`, and the dispute window
  configuration of `resolution.rs` that market creation reads.

  A market record is written whole: every change goes through
  `updateMarket`, which also moves the entry of the status index.
-/
import PredictIQ.Contract.Fees

namespace PredictIQ.Contract

open Foundation Tx

/-! ## §1. Dispute window configuration (`resolution.rs`). -/

/-- `DEFAULT_DISPUTE_WINDOW_SECONDS`: 72 hours. -/
def defaultDisputeWindowSeconds : Nat := 259200

/-- `MIN_DISPUTE_WINDOW_SECONDS`: 1 hour. -/
def minDisputeWindowSeconds : Nat := 3600

/-- `MAX_DISPUTE_WINDOW_SECONDS`: 30 days. -/
def maxDisputeWindowSeconds : Nat := 30 * 24 * 60 * 60

def WindowStore.getDefaultDisputeWindow (s : WindowStore) : Nat :=
  s.defaultDisputeWindow.getD defaultDisputeWindowSeconds

def WindowStore.getDisputeWindowBounds (s : WindowStore) : Nat × Nat :=
  (s.minDisputeWindow.getD minDisputeWindowSeconds, s.maxDisputeWindow.getD maxDisputeWindowSeconds)

def validateDisputeWindow (seconds : Nat) : Body Unit := do
  let bounds ← reads (·.windows.getDisputeWindowBounds)
  failIf (seconds < bounds.1 ∨ bounds.2 < seconds) .invalidAmount

def setDisputeWindow (seconds : Nat) : Body Unit := do
  requireAdmin
  validateDisputeWindow seconds
  update fun w => { w with windows.defaultDisputeWindow := some seconds }

def setDisputeWindowBounds (minSeconds maxSeconds : Nat) : Body Unit := do
  requireAdmin
  failIf (minSeconds = 0 ∨ maxSeconds < minSeconds) .invalidAmount
  let defaultWindow ← reads (·.windows.getDefaultDisputeWindow)
  failIf (defaultWindow < minSeconds ∨ maxSeconds < defaultWindow) .invalidAmount
  update fun w => { w with windows.minDisputeWindow := some minSeconds }
  update fun w => { w with windows.maxDisputeWindow := some maxSeconds }

def resolveMarketDisputeWindow (disputeWindowSeconds : Option Nat) : Body Nat := do
  let window ← reads fun w => disputeWindowSeconds.getD w.windows.getDefaultDisputeWindow
  validateDisputeWindow window
  pure window

/-! ## §2. Market records. -/

/-- The status index after market `id` went from `old` to `new`. -/
def updateStatusIndex (index : Store (Nat × MarketStatus) Bool) (id : Nat) (old new : MarketStatus) :
    Store (Nat × MarketStatus) Bool :=
  (if old ≠ new then index.erase (id, old) else index).insert (id, new) true

/-- `update_market`: write the record, keeping the status index in step. -/
def MarketStore.updateMarket (s : MarketStore) (market : Market) : MarketStore :=
  { s with
    statusIndex :=
      match s.market.lookup market.id with
      | some old => updateStatusIndex s.statusIndex market.id old.status market.status
      | none => s.statusIndex
    market := s.market.insert market.id market }

def getMarket (id : Nat) : Body (Option Market) := reads (·.markets.market.lookup id)

/-- `get_market(e, id).ok_or(ErrorCode::MarketNotFound)?`. -/
def loadMarket (id : Nat) : Body Market := do
  orErr (← getMarket id) .marketNotFound

def updateMarket (market : Market) : Body Unit :=
  update fun w => { w with markets := w.markets.updateMarket market }

def getMarketDisputeWindow (marketId : Nat) : Body Nat :=
  reads fun w => (w.markets.marketDisputeWindow.lookup marketId).getD
    w.windows.getDefaultDisputeWindow

def getOutcomeStake (market : Market) (outcome : Nat) : Int :=
  (market.outcomeStakes.lookup outcome).getD 0

def setOutcomeStake (market : Market) (outcome : Nat) (amount : Int) : Market :=
  { market with outcomeStakes := market.outcomeStakes.insert outcome amount }

def getOutcomeBetCount (market : Market) (outcome : Nat) : Nat :=
  (market.winnerCounts.lookup outcome).getD 0

/-- `increment_outcome_bet_count`; `none` is the `u32` overflow trap. -/
def incrementOutcomeBetCount (market : Market) (outcome : Nat) : Option Market :=
  (addU32 (getOutcomeBetCount market outcome) 1).map fun count =>
    { market with winnerCounts := market.winnerCounts.insert outcome count }

def validateParentMarket (parentId parentOutcomeIdx : Nat) : Body Unit := do
  let parentMarket ← loadMarket parentId
  failIf (parentMarket.status ≠ .resolved) .parentMarketNotResolved
  let parentWinningOutcome ← orErr parentMarket.winningOutcome .parentMarketNotResolved
  failIf (parentWinningOutcome ≠ parentOutcomeIdx) .parentMarketInvalidOutcome
  failIf (parentMarket.options.length ≤ parentOutcomeIdx) .invalidOutcome

/-! ## §3. Creation configuration. -/

def MarketConfigStore.getCreationDeposit (s : MarketConfigStore) : Int := s.creationDeposit.getD 0

def MarketConfigStore.getCreationFee (s : MarketConfigStore) : Int := s.creationFee.getD 0

def MarketConfigStore.getProtocolTreasury (s : MarketConfigStore) : Address :=
  s.protocolTreasury.getD currentContractAddress

def MarketConfigStore.getCreatorReputation (s : MarketConfigStore) (creator : Address) :
    CreatorReputation :=
  (s.creatorReputation.lookup creator).getD .none

def setCreatorReputation (creator : Address) (reputation : CreatorReputation) : Body Unit := do
  requireAdmin
  update fun w => { w with
    marketConfig.creatorReputation := w.marketConfig.creatorReputation.insert creator reputation }

def setCreationDeposit (amount : Int) : Body Unit := do
  requireAdmin
  update fun w => { w with marketConfig.creationDeposit := some amount }

def setCreationFee (amount : Int) : Body Unit := do
  requireAdmin
  update fun w => { w with marketConfig.creationFee := some amount }

def setProtocolTreasury (treasury : Address) : Body Unit := do
  requireAdmin
  update fun w => { w with marketConfig.protocolTreasury := some treasury }

/-! ## §4. Creation. -/

/-- The caller's arguments of `create_market`. -/
structure MarketParams where
  creator : Address
  description : String
  options : List String
  deadline : Nat
  resolutionDeadline : Nat
  oracleConfig : OracleConfig
  tier : MarketTier
  nativeToken : Address
  parentId : Nat
  parentOutcomeIdx : Nat

/-- `MIN_DEADLINE_GAP`: 24 hours. -/
def minDeadlineGap : Nat := 86400

def tierAllowed : MarketTier → CreatorReputation → Bool
  | .basic, _ => true
  | .pro, .pro => true
  | .pro, .institutional => true
  | .institutional, .institutional => true
  | _, _ => false

def depositRequired : CreatorReputation → Bool
  | .pro => false
  | .institutional => false
  | _ => true

/-- The record `create_market` stores. -/
def MarketParams.newMarket (p : MarketParams) (id : Nat) (creationDeposit : Int) : Market where
  id := id
  creator := p.creator
  description := p.description
  options := p.options
  status := .active
  deadline := p.deadline
  resolutionDeadline := p.resolutionDeadline
  winningOutcome := none
  oracleConfig := p.oracleConfig
  totalStaked := 0
  payoutMode := .pull
  tier := p.tier
  creationDeposit := creationDeposit
  parentId := p.parentId
  parentOutcomeIdx := p.parentOutcomeIdx
  resolvedAt := none
  tokenAddress := p.nativeToken
  outcomeStakes := ∅
  pendingResolutionTimestamp := none
  disputeSnapshotLedger := none
  disputeTimestamp := none
  winnerCounts := ∅
  totalClaimed := 0

/-- The guards of `create_market` on times, options and parent. -/
def checkNewMarket (p : MarketParams) : Body Unit := do
  let currentTime ← reads (·.timestamp)
  failIf (p.deadline ≤ currentTime) .invalidTimeRange
  failIf (p.resolutionDeadline ≤ p.deadline) .invalidTimeRange
  failIf (p.resolutionDeadline - p.deadline < minDeadlineGap) .invalidTimeRange
  failIf (maxOutcomesPerMarket < p.options.length) .tooManyOutcomes
  whenever (0 < p.parentId) do
    validateParentMarket p.parentId p.parentOutcomeIdx
    let parentMarket ← loadMarket p.parentId
    failIf (parentMarket.resolutionDeadline < p.deadline) .deadlinePassed

/-- The guards of `create_market` on the creator: tier access and balance.
Returns whether a deposit is required, the deposit and the fee. -/
def checkCreator (p : MarketParams) : Body (Bool × Int × Int) := do
  let reputation ← reads (·.marketConfig.getCreatorReputation p.creator)
  failIf (tierAllowed p.tier reputation = false) .insufficientReputation
  let creationDeposit ← reads (·.marketConfig.getCreationDeposit)
  let creationFee ← reads (·.marketConfig.getCreationFee)
  let required := depositRequired reputation
  let balance ← tokenBalance p.nativeToken p.creator
  let totalRequired ← orTrap (checkedAdd (if required then creationDeposit else 0) creationFee)
  -- the balance is looked at once for both payments
  failIf (0 < totalRequired ∧ balance < totalRequired) .insufficientDeposit
  pure (required, creationDeposit, creationFee)

/-- The creation fee goes from the creator to the treasury. -/
def chargeCreationFee (creator nativeToken : Address) (creationFee : Int) : Body Unit :=
  whenever (0 < creationFee) do
    let treasury ← reads (·.marketConfig.getProtocolTreasury)
    tokenTransfer nativeToken creator treasury creationFee
    publish (.feeColct 0 nativeToken treasury creationFee)

/-- The deposit goes from the creator to the contract. -/
def lockCreationDeposit (creator nativeToken : Address) (required : Bool) (deposit : Int) :
    Body Unit :=
  whenever (required = true ∧ 0 < deposit)
    (tokenTransfer nativeToken creator currentContractAddress deposit)

/-- Store a new market record under the next id, with its indexes. -/
def MarketStore.addMarket (s : MarketStore) (market : Market) (disputeWindow : Nat) : MarketStore :=
  { s with
    market := s.market.insert market.id market
    marketDisputeWindow := s.marketDisputeWindow.insert market.id disputeWindow
    statusIndex := s.statusIndex.insert (market.id, .active) true
    marketCount := some market.id }

/-- The part of `create_market` that draws an id and stores the record. -/
def storeMarket (p : MarketParams) (creationDeposit : Int) (disputeWindowSeconds : Option Nat) :
    Body Nat := do
  let count ← orTrap (addU64 (← reads (·.markets.marketCount.getD 0)) 1)
  let disputeWindow ← resolveMarketDisputeWindow disputeWindowSeconds
  let market := p.newMarket count creationDeposit
  update fun w => { w with markets := w.markets.addMarket market disputeWindow }
  publish (.mktCreat count p.creator p.description p.options.length p.deadline)
  pure count

def createMarketWithDisputeWindow (p : MarketParams) (disputeWindowSeconds : Option Nat) :
    Body Nat := do
  requireAuth p.creator
  requireNotPausedForHighRisk
  checkNewMarket p
  let (required, creationDeposit, creationFee) ← checkCreator p
  chargeCreationFee p.creator p.nativeToken creationFee
  lockCreationDeposit p.creator p.nativeToken required creationDeposit
  storeMarket p (if required then creationDeposit else 0) disputeWindowSeconds

def createMarket (p : MarketParams) : Body Nat := createMarketWithDisputeWindow p none

/-! ## §5. Returning the deposit. -/

def releaseCreationDeposit (marketId : Nat) (nativeToken : Address) : Body Unit := do
  let market ← loadMarket marketId
  requireAuth market.creator
  failIf (market.status ≠ .resolved) .marketNotActive
  let deposit := market.creationDeposit
  whenever (0 < deposit) do
    -- `native_token` is the caller's: it is not compared with `token_address`
    updateMarket { market with creationDeposit := 0 }
    tokenTransfer nativeToken currentContractAddress market.creator deposit

/-! ## §6. Rules: configuration and records. -/

section Rules

variable {env : Env} {w w' : World} {u : Unit}

@[simp] theorem validateDisputeWindow_ok {seconds : Nat} :
    validateDisputeWindow seconds env w = (.ok u, w') ↔
      (w.windows.getDisputeWindowBounds.1 ≤ seconds
        ∧ seconds ≤ w.windows.getDisputeWindowBounds.2) ∧ w = w' := by
  simp [validateDisputeWindow, and_comm]

theorem setDisputeWindow_ok {seconds : Nat} :
    setDisputeWindow seconds env w = (.ok u, w') ↔
      ByAdmin env w ∧ (w.windows.getDisputeWindowBounds.1 ≤ seconds
        ∧ seconds ≤ w.windows.getDisputeWindowBounds.2)
        ∧ w' = { w with windows.defaultDisputeWindow := some seconds } := by
  simp [setDisputeWindow, and_assoc]

theorem setDisputeWindowBounds_ok {lo hi : Nat}
    (h : setDisputeWindowBounds lo hi env w = (.ok u, w')) :
    ByAdmin env w ∧ w' = { w with
      windows.minDisputeWindow := some lo, windows.maxDisputeWindow := some hi } := by
  simp only [setDisputeWindowBounds, bind_eq_ok, requireAdmin_ok, failIf_ok, reads_eq_ok,
    update_eq_ok, and_assoc, exists_and_left, exists_eq_left', exists_eq_left, exists_const] at h
  obtain ⟨hadm, _, _, hw'⟩ := h
  exact ⟨hadm, hw'⟩

/-- New bounds are ordered, and lie around the current default. -/
theorem setDisputeWindowBounds_guards {lo hi : Nat}
    (h : setDisputeWindowBounds lo hi env w = (.ok u, w')) :
    1 ≤ lo ∧ lo ≤ w.windows.getDefaultDisputeWindow
      ∧ w.windows.getDefaultDisputeWindow ≤ hi := by
  simp only [setDisputeWindowBounds, bind_eq_ok, requireAdmin_ok, failIf_ok, reads_eq_ok,
    update_eq_ok, and_assoc, exists_and_left, exists_eq_left', exists_eq_left, exists_const] at h
  obtain ⟨_, hordered, haround, _⟩ := h
  omega

@[simp] theorem resolveMarketDisputeWindow_ok {o : Option Nat} {window : Nat} :
    resolveMarketDisputeWindow o env w = (.ok window, w') ↔
      (o.getD w.windows.getDefaultDisputeWindow = window
        ∧ w.windows.getDisputeWindowBounds.1 ≤ window
        ∧ window ≤ w.windows.getDisputeWindowBounds.2) ∧ w = w' := by
  simp only [resolveMarketDisputeWindow, bind_eq_ok, reads_eq_ok, validateDisputeWindow_ok,
    pure_eq_ok, and_assoc, exists_and_left, exists_eq_left', exists_const]
  constructor
  · intro h
    obtain ⟨hlo, hhi, hwindow, hw'⟩ := h
    subst hwindow
    exact ⟨rfl, hlo, hhi, hw'⟩
  · intro h
    obtain ⟨hwindow, hlo, hhi, hw'⟩ := h
    subst hwindow
    exact ⟨hlo, hhi, rfl, hw'⟩

@[simp] theorem getMarket_ok {id : Nat} {m : Option Market} :
    getMarket id env w = (.ok m, w') ↔ w.markets.market.lookup id = m ∧ w = w' := reads_eq_ok

@[simp] theorem loadMarket_ok {id : Nat} {m : Market} :
    loadMarket id env w = (.ok m, w') ↔ w.markets.market.lookup id = some m ∧ w = w' := by
  simp [loadMarket, and_comm]

@[simp] theorem updateMarket_ok {m : Market} :
    updateMarket m env w = (.ok u, w') ↔ w' = { w with markets := w.markets.updateMarket m } :=
  update_eq_ok

@[simp] theorem getMarketDisputeWindow_ok {id n : Nat} :
    getMarketDisputeWindow id env w = (.ok n, w') ↔
      (w.markets.marketDisputeWindow.lookup id).getD w.windows.getDefaultDisputeWindow = n
        ∧ w = w' := reads_eq_ok

/-- The parent is stored, resolved, and to the outcome the child depends on. -/
def ParentResolvedTo (s : MarketStore) (parentId parentOutcomeIdx : Nat) : Prop :=
  ∃ m, s.market.lookup parentId = some m ∧ m.status = .resolved
    ∧ m.winningOutcome = some parentOutcomeIdx ∧ parentOutcomeIdx < m.options.length

@[simp] theorem validateParentMarket_ok {id idx : Nat} :
    validateParentMarket id idx env w = (.ok u, w') ↔
      ParentResolvedTo w.markets id idx ∧ w = w' := by
  simp only [validateParentMarket, bind_eq_ok, loadMarket_ok, failIf_ok, orErr_ok,
    ParentResolvedTo, and_assoc, exists_and_left, exists_eq_left', exists_const, ne_eq, not_not,
    not_le]
  constructor
  · intro h
    obtain ⟨m, hm, hs, o, ho, hoi, hl, hw'⟩ := h
    subst hoi
    exact ⟨⟨m, hm, hs, ho, hl⟩, hw'⟩
  · intro h
    obtain ⟨⟨m, hm, hs, ho, hl⟩, hw'⟩ := h
    exact ⟨m, hm, hs, idx, ho, rfl, hl, hw'⟩

theorem setCreatorReputation_ok {creator : Address} {reputation : CreatorReputation} :
    setCreatorReputation creator reputation env w = (.ok u, w') ↔
      ByAdmin env w ∧ w' = { w with marketConfig.creatorReputation :=
        w.marketConfig.creatorReputation.insert creator reputation } := by
  simp [setCreatorReputation, and_assoc]

theorem setCreationDeposit_ok {amount : Int} :
    setCreationDeposit amount env w = (.ok u, w') ↔
      ByAdmin env w ∧ w' = { w with marketConfig.creationDeposit := some amount } := by
  simp [setCreationDeposit, and_assoc]

theorem setCreationFee_ok {amount : Int} :
    setCreationFee amount env w = (.ok u, w') ↔
      ByAdmin env w ∧ w' = { w with marketConfig.creationFee := some amount } := by
  simp [setCreationFee, and_assoc]

theorem setProtocolTreasury_ok {treasury : Address} :
    setProtocolTreasury treasury env w = (.ok u, w') ↔
      ByAdmin env w ∧ w' = { w with marketConfig.protocolTreasury := some treasury } := by
  simp [setProtocolTreasury, and_assoc]

/-! ## §7. Rules: creation. -/

/-- Two worlds that differ at most in what payments and events record. -/
def SameButPayments (w w' : World) : Prop :=
  ∃ b ts evs, w' = { w with balances := b, transfers := ts, events := evs }

theorem SameButPayments.refl (w : World) : SameButPayments w w :=
  ⟨w.balances, w.transfers, w.events, rfl⟩

theorem SameButPayments.trans {w w' w'' : World} (h : SameButPayments w w')
    (h' : SameButPayments w' w'') : SameButPayments w w'' := by
  obtain ⟨b, ts, evs, rfl⟩ := h
  obtain ⟨b', ts', evs', rfl⟩ := h'
  exact ⟨b', ts', evs', rfl⟩

theorem checkNewMarket_ok {p : MarketParams} (h : checkNewMarket p env w = (.ok u, w')) :
    w.timestamp < p.deadline ∧ p.deadline + minDeadlineGap ≤ p.resolutionDeadline
      ∧ p.options.length ≤ maxOutcomesPerMarket
      ∧ (0 < p.parentId → ParentResolvedTo w.markets p.parentId p.parentOutcomeIdx)
      ∧ w = w' := by
  simp only [checkNewMarket, bind_eq_ok, reads_eq_ok, failIf_ok, and_assoc, exists_and_left,
    exists_eq_left', exists_const] at h
  obtain ⟨hd, hr, hg, ho, h⟩ := h
  -- the two guards on the resolution deadline make one
  have hgap : p.deadline + minDeadlineGap ≤ p.resolutionDeadline := by omega
  rcases whenever_eq_ok.mp h with ⟨_, h⟩ | ⟨hp, rfl⟩
  · simp only [bind_eq_ok, validateParentMarket_ok, loadMarket_ok, failIf_ok, and_assoc,
      exists_and_left, exists_eq_left', exists_const] at h
    obtain ⟨hpar, parentMarket, _, _, hw'⟩ := h
    exact ⟨by omega, hgap, by omega, fun _ => hpar, hw'⟩
  · exact ⟨by omega, hgap, by omega, fun hp' => absurd hp' hp, rfl⟩

/-- What a transfer that does not leave the contract may do to its balance:
nothing, or raise it. -/
theorem balance_le_pay {x : Transfer} (hx : x.payer ≠ currentContractAddress) (token : Address) :
    w.balances token currentContractAddress
      ≤ (w.pay x).balances token currentContractAddress := by
  simp only [World.pay, moveBalance]
  split
  · rw [if_neg (fun h => hx h.symm)]
    omega
  · exact le_refl _

/-- Charging the creation fee moves payments only; it appends transfers, and
takes nothing from the contract unless the contract is the creator. -/
theorem chargeCreationFee_ok {creator token : Address} {fee : Int}
    (h : chargeCreationFee creator token fee env w = (.ok u, w')) :
    SameButPayments w w' ∧ (∃ ts, w'.transfers = w.transfers ++ ts)
      ∧ (creator ≠ currentContractAddress → ∀ t,
          w.balances t currentContractAddress ≤ w'.balances t currentContractAddress) := by
  rcases whenever_eq_ok.mp h with ⟨_, h⟩ | ⟨_, rfl⟩
  · simp only [bind_eq_ok, reads_eq_ok, tokenTransfer_ok, publish_ok, and_assoc, exists_and_left,
      exists_eq_left', exists_eq_left, exists_const] at h
    obtain ⟨_, rfl⟩ := h
    exact ⟨⟨_, _, _, rfl⟩, ⟨_, rfl⟩, fun hc t => balance_le_pay hc t⟩
  · exact ⟨.refl w, ⟨[], (List.append_nil _).symm⟩, fun _ t => le_refl _⟩

/-- The deposit a market created in `w` by `creator` locks. -/
def depositFor (w : World) (creator : Address) : Int :=
  if depositRequired (w.marketConfig.getCreatorReputation creator) then
    w.marketConfig.getCreationDeposit
  else 0

theorem checkCreator_ok {p : MarketParams} {required : Bool} {deposit fee : Int}
    (h : checkCreator p env w = (.ok (required, deposit, fee), w')) :
    (if required = true then deposit else 0) = depositFor w p.creator ∧ w = w' := by
  simp only [checkCreator, bind_eq_ok, reads_eq_ok, failIf_ok, tokenBalance_ok, orTrap_ok,
    pure_eq_ok, Prod.mk.injEq, and_assoc, exists_and_left, exists_eq_left', exists_const] at h
  obtain ⟨_, total, _, _, hrequired, hdeposit, _, hw'⟩ := h
  rw [← hrequired, ← hdeposit]
  exact ⟨rfl, hw'⟩

/-- Locking makes one transfer exactly when the market's deposit is positive. -/
theorem lockCreationDeposit_ok {creator token : Address} {required : Bool} {deposit d : Int}
    (hd : (if required = true then deposit else 0) = d)
    (h : lockCreationDeposit creator token required deposit env w = (.ok u, w')) :
    SameButPayments w w'
      ∧ w'.transfers = w.transfers ++
          (if 0 < d then [⟨token, creator, currentContractAddress, d⟩] else [])
      ∧ (creator ≠ currentContractAddress → ∀ t,
          w.balances t currentContractAddress ≤ w'.balances t currentContractAddress) := by
  -- a deposit is locked exactly when it is required and positive
  rcases whenever_eq_ok.mp h with ⟨⟨hreq, hpos⟩, h⟩ | ⟨hnone, rfl⟩
  · obtain ⟨_, rfl⟩ := tokenTransfer_ok.mp h
    rw [if_pos hreq] at hd
    subst hd
    rw [if_pos hpos]
    exact ⟨⟨_, _, _, rfl⟩, rfl, fun hc t => balance_le_pay hc t⟩
  · have hnp : ¬0 < d := by
      intro hpos
      refine hnone ?_
      rw [← hd] at hpos
      split at hpos
      · exact ⟨by assumption, hpos⟩
      · omega
    rw [if_neg hnp, List.append_nil]
    exact ⟨.refl w, rfl, fun _ _ => le_refl _⟩

/-- The window a creation asks for: its own, or the current default. -/
def requestedWindow (w : World) (dw : Option Nat) : Nat := dw.getD w.windows.getDefaultDisputeWindow

/-- Storing draws the next id, and keeps the requested window if it lies
within the bounds of the moment. -/
theorem storeMarket_ok {p : MarketParams} {deposit : Int} {dw : Option Nat} {id : Nat}
    (h : storeMarket p deposit dw env w = (.ok id, w')) :
    id = w.markets.marketCount.getD 0 + 1
      ∧ (w.windows.getDisputeWindowBounds.1 ≤ requestedWindow w dw
        ∧ requestedWindow w dw ≤ w.windows.getDisputeWindowBounds.2)
      ∧ w' = { w with
          markets := w.markets.addMarket (p.newMarket id deposit) (requestedWindow w dw)
          events := w.events
            ++ [.mktCreat id p.creator p.description p.options.length p.deadline] } := by
  simp only [storeMarket, bind_eq_ok, reads_eq_ok, orTrap_ok, resolveMarketDisputeWindow_ok,
    update_eq_ok, publish_ok, pure_eq_ok, addU64_eq_some, and_assoc, exists_and_left,
    exists_eq_left', exists_eq_left, exists_const] at h
  obtain ⟨_, hlo, hhi, rfl, rfl⟩ := h
  exact ⟨rfl, ⟨hlo, hhi⟩, rfl⟩

/-- What a successful `create_market` does. -/
structure CreateMarketEffect (env : Env) (w : World) (p : MarketParams) (id : Nat) (w' : World) :
    Prop where
  auth : env.authorized p.creator = true
  not_paused : w.breaker.getState ≠ .paused
  future : w.timestamp < p.deadline
  gap : p.deadline + minDeadlineGap ≤ p.resolutionDeadline
  options_le : p.options.length ≤ maxOutcomesPerMarket
  parent : 0 < p.parentId → ParentResolvedTo w.markets p.parentId p.parentOutcomeIdx
  id_eq : id = w.markets.marketCount.getD 0 + 1
  markets : ∃ window, w'.markets = w.markets.addMarket (p.newMarket id (depositFor w p.creator)) window
  /-- Everything else but payments and events is as it was. -/
  frame : SameButPayments { w with markets := w'.markets } w'
  /-- The call appends its transfers; the last one, if a deposit is due, is the deposit. -/
  transfers : ∃ ts, w'.transfers = w.transfers ++ ts ++
    (if 0 < depositFor w p.creator then
      [⟨p.nativeToken, p.creator, currentContractAddress, depositFor w p.creator⟩] else [])
  /-- A creator other than the contract can only raise the contract's balances. -/
  balance : p.creator ≠ currentContractAddress → ∀ token,
    w.balances token currentContractAddress ≤ w'.balances token currentContractAddress

/-- The steps of a successful creation: the guards, the two payments, the record. -/
theorem createMarketWithDisputeWindow_steps {p : MarketParams} {dw : Option Nat} {id : Nat}
    (h : createMarketWithDisputeWindow p dw env w = (.ok id, w')) :
    env.authorized p.creator = true ∧ w.breaker.getState ≠ .paused
      ∧ checkNewMarket p env w = (.ok (), w) ∧ ∃ required dep fee w₁ w₂,
        (if required = true then dep else 0) = depositFor w p.creator
          ∧ chargeCreationFee p.creator p.nativeToken fee env w = (.ok (), w₁)
          ∧ lockCreationDeposit p.creator p.nativeToken required dep env w₁ = (.ok (), w₂)
          ∧ storeMarket p (depositFor w p.creator) dw env w₂ = (.ok id, w') := by
  simp only [createMarketWithDisputeWindow, bind_eq_ok, requireAuth_ok,
    requireNotPausedForHighRisk_ok, and_assoc, exists_and_left, exists_eq_left', exists_const] at h
  obtain ⟨hauth, hnp, _, v, hcheck, ⟨required, dep, fee⟩, v', hcreator, _, w₁, hfee, _, w₂, hlock,
    hstore⟩ := h
  obtain ⟨_, _, _, _, rfl⟩ := checkNewMarket_ok hcheck
  obtain ⟨hdep, rfl⟩ := checkCreator_ok hcreator
  simp only [hdep] at hstore
  exact ⟨hauth, hnp, hcheck, required, dep, fee, w₁, w₂, hdep, hfee, hlock, hstore⟩

theorem createMarketWithDisputeWindow_ok {p : MarketParams} {dw : Option Nat} {id : Nat}
    (h : createMarketWithDisputeWindow p dw env w = (.ok id, w')) :
    CreateMarketEffect env w p id w' := by
  obtain ⟨hauth, hnp, hcheck, required, dep, fee, w₁, w₂, hdep, hfee, hlock, hstore⟩ :=
    createMarketWithDisputeWindow_steps h
  obtain ⟨hfut, hgap, hopt, hpar, _⟩ := checkNewMarket_ok hcheck
  obtain ⟨hframe₁, ⟨ts, hts⟩, hbal₁⟩ := chargeCreationFee_ok hfee
  obtain ⟨hframe₂, htr, hbal₂⟩ := lockCreationDeposit_ok hdep hlock
  obtain ⟨hid, _, rfl⟩ := storeMarket_ok hstore
  -- payments do not touch the market store
  obtain ⟨b, tr, evs', hw₂⟩ := hframe₁.trans hframe₂
  have hm : w₂.markets = w.markets := by rw [hw₂]
  refine ⟨hauth, hnp, hfut, hgap, hopt, hpar, by rw [hid, hm], ⟨requestedWindow w₂ dw, ?_⟩, ?_, ⟨ts, ?_⟩,
    fun hc t => (hbal₁ hc t).trans (hbal₂ hc t)⟩
  · show w₂.markets.addMarket _ _ = _
    rw [hm]
  · subst hw₂
    exact ⟨b, tr, _, rfl⟩
  · show w₂.transfers = _
    rw [htr, hts]

/-- The window, the record and the events of a successful `create_market`. -/
structure MarketListed (w : World) (p : MarketParams) (dw : Option Nat) (id : Nat) (w' : World) :
    Prop where
  id_eq : id = w.markets.marketCount.getD 0 + 1
  window_ge : w.windows.getDisputeWindowBounds.1 ≤ requestedWindow w dw
  window_le : requestedWindow w dw ≤ w.windows.getDisputeWindowBounds.2
  markets : w'.markets =
    w.markets.addMarket (p.newMarket id (depositFor w p.creator)) (requestedWindow w dw)
  /-- The announcement comes after the fee, if one was charged. -/
  events : ∃ fees, (∀ ev ∈ fees, ∃ token recipient amount, ev = .feeColct 0 token recipient amount)
    ∧ w'.events = w.events ++ fees
      ++ [.mktCreat id p.creator p.description p.options.length p.deadline]

theorem chargeCreationFee_events {creator token : Address} {fee : Int}
    (h : chargeCreationFee creator token fee env w = (.ok u, w')) :
    ∃ fees, (∀ ev ∈ fees, ∃ token recipient amount, ev = .feeColct 0 token recipient amount)
      ∧ w'.events = w.events ++ fees := by
  rcases whenever_eq_ok.mp h with ⟨_, h⟩ | ⟨_, rfl⟩
  · simp only [bind_eq_ok, reads_eq_ok, tokenTransfer_ok, publish_ok, and_assoc, exists_and_left,
      exists_eq_left', exists_eq_left, exists_const] at h
    obtain ⟨_, rfl⟩ := h
    refine ⟨[_], ?_, rfl⟩
    intro ev hev
    exact ⟨_, _, _, List.mem_singleton.mp hev⟩
  · exact ⟨[], fun _ hev => absurd hev List.not_mem_nil, (List.append_nil _).symm⟩

theorem lockCreationDeposit_events {creator token : Address} {required : Bool} {deposit : Int}
    (h : lockCreationDeposit creator token required deposit env w = (.ok u, w')) :
    w'.events = w.events := by
  rcases whenever_eq_ok.mp h with ⟨_, h⟩ | ⟨_, rfl⟩
  · obtain ⟨_, rfl⟩ := tokenTransfer_ok.mp h
    rfl
  · rfl

theorem createMarketWithDisputeWindow_listed {p : MarketParams} {dw : Option Nat} {id : Nat}
    (h : createMarketWithDisputeWindow p dw env w = (.ok id, w')) : MarketListed w p dw id w' := by
  obtain ⟨_, _, _, required, dep, fee, w₁, w₂, hdep, hfee, hlock, hstore⟩ :=
    createMarketWithDisputeWindow_steps h
  obtain ⟨hframe₁, _, _⟩ := chargeCreationFee_ok hfee
  obtain ⟨hframe₂, _, _⟩ := lockCreationDeposit_ok hdep hlock
  obtain ⟨fees, hfees, hevents⟩ := chargeCreationFee_events hfee
  obtain ⟨hid, ⟨hlo, hhi⟩, rfl⟩ := storeMarket_ok hstore
  -- payments touch neither the market store nor the window configuration
  obtain ⟨b, tr, evs', hw₂⟩ := hframe₁.trans hframe₂
  have hm : w₂.markets = w.markets := by rw [hw₂]
  have hwin : w₂.windows = w.windows := by rw [hw₂]
  unfold requestedWindow at hlo hhi
  rw [hwin] at hlo hhi
  refine ⟨by rw [hid, hm], hlo, hhi, ?_, fees, hfees, ?_⟩
  · show w₂.markets.addMarket _ (dw.getD w₂.windows.getDefaultDisputeWindow) = _
    rw [hm, hwin]
    rfl
  · show w₂.events ++ _ = _
    rw [lockCreationDeposit_events hlock, hevents]

/-- What a successful `release_creation_deposit` does: a positive deposit is
zeroed in the record and paid out in the token the caller names. -/
theorem releaseCreationDeposit_ok {id : Nat} {token : Address}
    (h : releaseCreationDeposit id token env w = (.ok u, w')) :
    ∃ m, w.markets.market.lookup id = some m ∧ env.authorized m.creator = true
      ∧ m.status = .resolved
      ∧ ((m.creationDeposit ≤ 0 ∧ w' = w) ∨
        (0 < m.creationDeposit
          ∧ Transferable env w ⟨token, currentContractAddress, m.creator, m.creationDeposit⟩
          ∧ w' = { w.pay ⟨token, currentContractAddress, m.creator, m.creationDeposit⟩ with
              markets := w.markets.updateMarket { m with creationDeposit := 0 } })) := by
  simp only [releaseCreationDeposit, bind_eq_ok, loadMarket_ok, requireAuth_ok, failIf_ok,
    and_assoc, exists_and_left, exists_eq_left', exists_const] at h
  obtain ⟨m, hm, hauth, hs, h⟩ := h
  refine ⟨m, hm, hauth, not_not.mp hs, ?_⟩
  rcases whenever_eq_ok.mp h with ⟨hd, h⟩ | ⟨hd, rfl⟩
  · simp only [bind_eq_ok, updateMarket_ok, tokenTransfer_ok] at h
    obtain ⟨_, _, rfl, ht, rfl⟩ := h
    exact Or.inr ⟨hd, ht, rfl⟩
  · exact Or.inl ⟨not_lt.mp hd, rfl⟩

end Rules

end PredictIQ.Contract
