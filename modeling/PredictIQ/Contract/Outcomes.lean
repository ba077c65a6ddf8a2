/-
  PredictIQ.Contract.Outcomes: every entrypoint, inverted once.

  `exec_outcome` says of a call that returned `Ok` which guards it passed, what
  it wrote and what it published, one constructor for each way to succeed.
  What later modules need to know of all calls at once (their effect on the
  records, the breaker they leave, their events) is a case analysis over
  `Outcome`; no other proof walks through the entrypoints.
-/
import PredictIQ.Contract.Entrypoints

namespace PredictIQ.Contract

open Foundation Tx

/-! ## §1. Kinds of calls. -/

/-- What a call is there to do. -/
inductive CallKind where
  | creates (p : MarketParams)
  | bets (b : BetParams)
  | moves (marketId : Nat) (f : LifecycleCall)
  | releases (marketId : Nat) (token : Address)
  | prunes (marketId : Nat)
  | votes (marketId : Nat)
  | paysFees
  | configures
  | initializes
  | appoints
  | governs

def Call.kind : Call → CallKind
  | .initializeContract .. => .initializes
  | .proposeAdmin .. => .appoints
  | .acceptAdmin .. => .appoints
  | .cancelAdminTransfer => .appoints
  | .createMarket p => .creates p
  | .createMarketWithDisputeWindow p _ => .creates p
  | .placeBet b => .bets b
  | .castVote _ id _ _ => .votes id
  | .fileDispute _ id => .moves id .fileDispute
  | .setDisputeWindow .. => .configures
  | .setDisputeWindowBounds .. => .configures
  | .setCircuitBreaker .. => .configures
  | .setCircuitBreakerThreshold .. => .configures
  | .setBaseFee .. => .configures
  | .setFeeAdmin .. => .configures
  | .withdrawProtocolFees .. => .paysFees
  | .claimReferralRewards .. => .paysFees
  | .setOracleResult .. => .configures
  | .validateOracleStaleness .. => .configures
  | .resolveMarket id _ => .moves id .resolveMarket
  | .setGovernanceToken .. => .appoints
  | .attemptOracleResolution id => .moves id .attemptOracleResolution
  | .finalizeResolution id => .moves id .finalizeResolution
  | .resetMonitoring => .configures
  | .setGuardian .. => .appoints
  | .pause => .configures
  | .unpause => .configures
  | .setCreatorReputation .. => .configures
  | .setCreationDeposit .. => .configures
  | .releaseCreationDeposit id token => .releases id token
  | .setCreationFee .. => .configures
  | .setProtocolTreasury .. => .configures
  | .initializeGuardians .. => .governs
  | .addGuardian .. => .governs
  | .removeGuardian .. => .governs
  | .voteOnGuardianRemoval .. => .governs
  | .executeGuardianRemoval => .governs
  | .initiateUpgrade .. => .governs
  | .voteForUpgrade .. => .governs
  | .executeUpgrade => .governs
  | .setTimelockDuration .. => .governs
  | .emergencyPause .. => .governs
  | .pruneMarket id => .prunes id
  | .cancelMarketAdmin id => .moves id .cancelMarketAdmin
  | .cancelMarketVote id => .moves id .cancelMarketVote

/-! ## §2. Roles and governance. -/

/-- How a call may change the roles. -/
inductive AdminStep (env : Env) (w : World) : Call → AdminStore → Prop
  | propose (newAdmin : Address) (byAdmin : ByAdmin env w)
      (notGuardian : w.admin.guardianAccount ≠ some newAdmin) :
      AdminStep env w (.proposeAdmin newAdmin) { w.admin with pendingAdmin := some newAdmin }
  | accept (caller : Address) (auth : env.authorized caller = true)
      (pending : w.admin.pendingAdmin = some caller)
      (notGuardian : w.admin.guardianAccount ≠ some caller) :
      AdminStep env w (.acceptAdmin caller)
        { w.admin with admin := some caller, pendingAdmin := none }
  | cancel (byAdmin : ByAdmin env w) (pending : w.admin.pendingAdmin ≠ none) :
      AdminStep env w .cancelAdminTransfer { w.admin with pendingAdmin := none }
  | guardian (g : Address) (byAdmin : ByAdmin env w) :
      AdminStep env w (.setGuardian g) { w.admin with guardianAccount := some g }
  | governanceToken (token : Address) (byAdmin : ByAdmin env w) :
      AdminStep env w (.setGovernanceToken token) { w.admin with governanceToken := some token }

/-- How a call may change the governance state. -/
inductive GovernanceStep (env : Env) (w : World) : Call → GovernanceStore → Prop
  | initGuardians (gs : List Guardian) (byAdmin : ByAdmin env w)
      (first : w.governance.guardianSet = none) (nonempty : gs ≠ [])
      (notAdmin : ∀ g ∈ gs, w.admin.admin ≠ some g.address) :
      GovernanceStep env w (.initializeGuardians gs) { w.governance with guardianSet := some gs }
  | add (g : Guardian) (byAdmin : ByAdmin env w) (notAdmin : w.admin.admin ≠ some g.address)
      (fresh : isGuardian w.governance.getGuardians g.address = false) :
      GovernanceStep env w (.addGuardian g)
        { w.governance with guardianSet := some (w.governance.getGuardians ++ [g]) }
  | proposeRemoval (a : Address) (byAdmin : ByAdmin env w)
      (member : isGuardian w.governance.getGuardians a = true) :
      GovernanceStep env w (.removeGuardian a) { w.governance with
        pendingGuardianRemoval := some
          { targetGuardian := a, initiatedAt := w.timestamp, votesFor := [], votesAgainst := [] }
        pendingGuardianRemovalPassedAt := none }
  | voteRemoval (voter : Address) (approve : Bool) (p : PendingGuardianRemoval) (needed : Nat)
      (auth : env.authorized voter = true)
      (member : isGuardian w.governance.getGuardians voter = true)
      (pending : w.governance.pendingGuardianRemoval = some p)
      (inTime : w.timestamp - p.initiatedAt ≤ guardianRemovalVoteWindow)
      (once : voter ∉ p.votesFor ∧ voter ∉ p.votesAgainst)
      (threshold : removalVotesNeeded w.governance.getGuardians = some needed) :
      GovernanceStep env w (.voteOnGuardianRemoval voter approve) { w.governance with
        pendingGuardianRemoval :=
          if needed ≤ (p.withVote voter approve).votesAgainst.length then none
          else some (p.withVote voter approve)
        pendingGuardianRemovalPassedAt :=
          if needed ≤ (p.withVote voter approve).votesAgainst.length then none
          else if needed ≤ (p.withVote voter approve).votesFor.length
              ∧ w.governance.pendingGuardianRemovalPassedAt = none then some w.timestamp
          else w.governance.pendingGuardianRemovalPassedAt }
  | executeRemoval (p : PendingGuardianRemoval) (t : Nat) (byAdmin : ByAdmin env w)
      (pending : w.governance.pendingGuardianRemoval = some p)
      (passed : w.governance.pendingGuardianRemovalPassedAt = some t)
      (elapsed : w.governance.getTimelockDuration ≤ w.timestamp - t)
      (member : isGuardian w.governance.getGuardians p.targetGuardian = true) :
      GovernanceStep env w .executeGuardianRemoval { w.governance with
        guardianSet := some
          (w.governance.getGuardians.filter fun g => g.address ≠ p.targetGuardian)
        pendingGuardianRemoval := none
        pendingGuardianRemovalPassedAt := none }
  | initiate (hash : BytesN32) (byAdmin : ByAdmin env w) (free : NoCollision w hash)
      (idle : w.governance.pendingUpgrade = none) :
      GovernanceStep env w (.initiateUpgrade hash) { w.governance with
        pendingUpgrade := some
          { wasmHash := hash, initiatedAt := w.timestamp, votesFor := [], votesAgainst := [] }
        pendingUpgradePassedAt := none }
  | vote (voter : Address) (voteFor : Bool) (p : PendingUpgrade) (met : Bool)
      (pending : w.governance.pendingUpgrade = some p)
      (majority : isMajorityMet w.governance.getGuardians (p.withVote voter voteFor).votesFor
        = some met) :
      GovernanceStep env w (.voteForUpgrade voter voteFor) { w.governance with
        pendingUpgrade := some (p.withVote voter voteFor)
        pendingUpgradePassedAt :=
          if met = true ∧ w.governance.pendingUpgradePassedAt = none then some w.timestamp
          else w.governance.pendingUpgradePassedAt }
  | execute (p : PendingUpgrade) (pending : w.governance.pendingUpgrade = some p)
      (elapsed : w.governance.getTimelockDuration
        ≤ w.timestamp - w.governance.timelockStartedAt p)
      (majority : isMajorityMet w.governance.getGuardians p.votesFor = some true) :
      GovernanceStep env w .executeUpgrade { w.governance with
        pendingUpgrade := none
        pendingUpgradePassedAt := none
        upgradeRejectedAt := w.governance.upgradeRejectedAt.erase p.wasmHash }
  | timelock (seconds : Nat) (byAdmin : ByAdmin env w)
      (bounds : timelockMinSeconds ≤ seconds ∧ seconds ≤ timelockMaxSeconds) :
      GovernanceStep env w (.setTimelockDuration seconds)
        { w.governance with timelockDuration := some seconds }
  | emergency (voter : Address) (votes : Option (List Address)) :
      GovernanceStep env w (.emergencyPause voter)
        { w.governance with pendingEmergencyPause := votes }

/-! ## §3. Outcomes. -/

/-- The ways a call can succeed. -/
inductive Outcome (X : Externs) (env : Env) (w : World) : Call → World → Prop
  | initialized (admin : Address) (baseFee : Int) (first : w.admin.admin = none) :
      Outcome X env w (.initializeContract admin baseFee) { w with
        admin.admin := some admin
        fees.baseFee := some baseFee
        breaker.persistentState := some .closed }
  | appointed (c : Call) (a : AdminStore) (h : AdminStep env w c a) :
      Outcome X env w c { w with admin := a }
  | created (c : Call) (p : MarketParams) (dw : Option Nat) (id : Nat) (w' : World)
      (hc : c.kind = .creates p) (effect : CreateMarketEffect env w p id w')
      (listed : MarketListed w p dw id w') : Outcome X env w c w'
  | bet (b : BetParams) (m : Market) (fee : Int) (w' : World)
      (effect : PlaceBetEffect env w b m fee w')
      (publishes : Publishes w [.betPlace b.marketId b.bettor b.outcome b.amount] w') :
      Outcome X env w (.placeBet b) w'
  /-- `require_closed` let the vote through, in `v`. -/
  | voted (voter : Address) (id outcome : Nat) (weight : Int) (v u w' : World) (m : Market)
      (govToken : Address) (vote : Vote) (pass : Guarded w (.ok ()) v)
      (effect : CastVoteEffect env v voter id outcome weight m govToken u vote w') :
      Outcome X env w (.castVote voter id outcome weight) w'
  /-- `require_closed` let the dispute through, in `v`. -/
  | disputed (disciplinarian : Address) (id : Nat) (evs : List Event) (v w' : World)
      (pass : Guarded w (.ok ()) v) (moves : AnnouncesMove X v id .fileDispute evs w') :
      Outcome X env w (.fileDispute disciplinarian id) w'
  | moved (c : Call) (id : Nat) (f : LifecycleCall) (evs : List Event) (w' : World)
      (hc : c.kind = .moves id f) (moves : AnnouncesMove X w id f evs w') : Outcome X env w c w'
  | released (id : Nat) (token : Address) (m : Market)
      (lookup : w.markets.market.lookup id = some m) (auth : env.authorized m.creator = true)
      (resolved : m.status = .resolved) (deposit : 0 < m.creationDeposit)
      (funded : Transferable env w ⟨token, currentContractAddress, m.creator, m.creationDeposit⟩) :
      Outcome X env w (.releaseCreationDeposit id token)
        { w.pay ⟨token, currentContractAddress, m.creator, m.creationDeposit⟩ with
          markets := w.markets.updateMarket { m with creationDeposit := 0 } }
  | releasedNothing (id : Nat) (token : Address) (m : Market)
      (lookup : w.markets.market.lookup id = some m) (resolved : m.status = .resolved)
      (empty : m.creationDeposit ≤ 0) :
      Outcome X env w (.releaseCreationDeposit id token) w
  | pruned (id : Nat) (m : Market) (t : Nat) (ar : ArchiveStore)
      (lookup : w.markets.market.lookup id = some m) (resolved : m.status = .resolved)
      (since : m.resolvedAt = some t) (elapsed : t + pruneGracePeriod ≤ w.timestamp) :
      Outcome X env w (.pruneMarket id) { w with
        archive := ar
        voting := w.voting.prune id m.options.length
        markets := w.markets.removeMarket id
        events := w.events ++ [.mktPrune id w.timestamp] }
  | feesWithdrawn (token recipient : Address)
      (funded : Transferable env w
        ⟨token, currentContractAddress, recipient, w.fees.getRevenue token⟩) :
      Outcome X env w (.withdrawProtocolFees token recipient)
        { w.pay ⟨token, currentContractAddress, recipient, w.fees.getRevenue token⟩ with
          fees.feeRevenue := w.fees.feeRevenue.insert token 0
          events := w.events ++ [.feesWithdrawn recipient token (w.fees.getRevenue token)] }
  | rewardsClaimed (address token : Address)
      (funded : Transferable env w
        ⟨token, currentContractAddress, address, w.fees.getReferrerBalance address token⟩) :
      Outcome X env w (.claimReferralRewards address token)
        { w.pay ⟨token, currentContractAddress, address,
            w.fees.getReferrerBalance address token⟩ with
          fees.referrerBalance := w.fees.referrerBalance.insert (address, token) 0
          events := w.events
            ++ [.refClaim 0 address (w.fees.getReferrerBalance address token)] }
  | windowSet (seconds : Nat) (byAdmin : ByAdmin env w)
      (bounds : w.windows.getDisputeWindowBounds.1 ≤ seconds
        ∧ seconds ≤ w.windows.getDisputeWindowBounds.2) :
      Outcome X env w (.setDisputeWindow seconds)
        { w with windows.defaultDisputeWindow := some seconds }
  | windowBoundsSet (lo hi : Nat) (byAdmin : ByAdmin env w) :
      Outcome X env w (.setDisputeWindowBounds lo hi)
        { w with windows.minDisputeWindow := some lo, windows.maxDisputeWindow := some hi }
  | breakerSet (state : CircuitBreakerState) (byAdmin : ByAdmin env w) :
      Outcome X env w (.setCircuitBreaker state) { w with
        breaker := w.breaker.setState w.timestamp state
        events := w.events ++ [.cbState currentContractAddress state] }
  | thresholdSet (n : Int) (byAdmin : ByAdmin env w) (positive : 0 < n) :
      Outcome X env w (.setCircuitBreakerThreshold n) { w with
        breaker.circuitBreakerThreshold := some n
        events := w.events ++ [.cbThrSet
          (w.breaker.circuitBreakerThreshold.getD defaultCircuitBreakerThreshold) n] }
  | paused (allowed : ByGuardianOrAdmin env w) : Outcome X env w .pause { w with
        breaker := w.breaker.setState w.timestamp .paused
        events := w.events ++ [.cbState currentContractAddress .paused] }
  | unpaused (allowed : ByGuardianOrAdmin env w) : Outcome X env w .unpause { w with
        breaker := w.breaker.setState w.timestamp .closed
        events := w.events ++ [.cbState currentContractAddress .closed] }
  | monitoringReset (byAdmin : ByAdmin env w) : Outcome X env w .resetMonitoring { w with
        breaker.errorCount := some 0
        breaker.lastObservation := some 0
        events := w.events ++ [.monReset (w.admin.admin.getD currentContractAddress)
          (w.breaker.errorCount.getD 0) (w.breaker.lastObservation.getD 0)] }
  | baseFeeSet (amount : Int) (byAdmin : ByAdmin env w) :
      Outcome X env w (.setBaseFee amount) { w with fees.baseFee := some amount }
  | feeAdminSet (feeAdmin : Address) (byAdmin : ByAdmin env w) :
      Outcome X env w (.setFeeAdmin feeAdmin) { w with fees.feeAdmin := some feeAdmin }
  | oracleResultSet (id oracleId outcome : Nat) (source : Address) (byAdmin : ByAdmin env w) :
      Outcome X env w (.setOracleResult id oracleId outcome) { w with
        oracles.result := w.oracles.result.insert (id, oracleId) outcome
        oracles.lastUpdate := w.oracles.lastUpdate.insert (id, oracleId) w.timestamp
        events := w.events ++ [.oracleOk id source oracleId outcome] }
  | stalenessValidated (id : Nat) : Outcome X env w (.validateOracleStaleness id) w
  | reputationSet (creator : Address) (reputation : CreatorReputation) (byAdmin : ByAdmin env w) :
      Outcome X env w (.setCreatorReputation creator reputation)
        { w with marketConfig.creatorReputation :=
          w.marketConfig.creatorReputation.insert creator reputation }
  | creationDepositSet (amount : Int) (byAdmin : ByAdmin env w) :
      Outcome X env w (.setCreationDeposit amount)
        { w with marketConfig.creationDeposit := some amount }
  | creationFeeSet (amount : Int) (byAdmin : ByAdmin env w) :
      Outcome X env w (.setCreationFee amount) { w with marketConfig.creationFee := some amount }
  | treasurySet (treasury : Address) (byAdmin : ByAdmin env w) :
      Outcome X env w (.setProtocolTreasury treasury)
        { w with marketConfig.protocolTreasury := some treasury }
  /-- The governance calls that publish nothing. -/
  | governed (c : Call) (g : GovernanceStore) (h : GovernanceStep env w c g) :
      Outcome X env w c { w with governance := g }
  | upgradeInitiated (hash : BytesN32) (g : GovernanceStore)
      (h : GovernanceStep env w (.initiateUpgrade hash) g) :
      Outcome X env w (.initiateUpgrade hash) { w with
        governance := g
        events := w.events ++ [.upgInit (w.admin.admin.getD currentContractAddress) hash] }
  | upgradeVoted (voter : Address) (voteFor : Bool) (g : GovernanceStore)
      (h : GovernanceStep env w (.voteForUpgrade voter voteFor) g) :
      Outcome X env w (.voteForUpgrade voter voteFor) { w with
        governance := g
        events := w.events ++ [.upgVote voter voteFor] }
  | upgradeExecuted (executor : Address) (hash : BytesN32) (g : GovernanceStore)
      (h : GovernanceStep env w .executeUpgrade g) :
      Outcome X env w .executeUpgrade { w with
        governance := g
        wasm := some hash
        events := w.events ++ [X.emitUpgradeExecuted executor hash] }
  /-- The emergency vote that makes the majority. -/
  | emergencyPaused (voter : Address) (now : PausesNow env w voter) :
      Outcome X env w (.emergencyPause voter) { w with
        governance.pendingEmergencyPause := none
        breaker := w.breaker.setState w.timestamp .paused
        events := w.events ++ [.cbState currentContractAddress .paused] }

section Inversion

variable {X : Externs} {env : Env} {w w' : World}

theorem initializeContract_ok {admin : Address} {baseFee : Int} {u : Unit} :
    initializeContract admin baseFee env w = (.ok u, w') ↔
      w.admin.admin = none ∧ w' = { w with
        admin.admin := some admin
        fees.baseFee := some baseFee
        breaker.persistentState := some .closed } := by
  simp [initializeContract, getAdmin, setAdmin]

/-- **Inversion of the entrypoints.** -/
theorem exec_outcome {c : Call} {r : Ret} (h : exec X c env w = (.ok r, w')) :
    Outcome X env w c w' := by
  cases c with
  | initializeContract admin baseFee =>
      obtain ⟨hnone, rfl⟩ := initializeContract_ok.mp (done_eq_ok.mp h).1
      exact .initialized admin baseFee hnone
  | proposeAdmin newAdmin =>
      obtain ⟨hby, hnot, rfl⟩ := proposeAdmin_ok.mp (done_eq_ok.mp h).1
      exact .appointed _ _ (.propose newAdmin hby hnot)
  | acceptAdmin caller =>
      obtain ⟨hauth, hpending, hnot, rfl⟩ := acceptAdmin_ok.mp (done_eq_ok.mp h).1
      exact .appointed _ _ (.accept caller hauth hpending hnot)
  | cancelAdminTransfer =>
      obtain ⟨hby, hpending, rfl⟩ := cancelAdminTransfer_ok.mp (done_eq_ok.mp h).1
      exact .appointed _ _ (.cancel hby hpending)
  | createMarket p =>
      obtain ⟨id, h, _⟩ := returning_eq_ok.mp h
      exact .created _ p none id w' rfl (createMarketWithDisputeWindow_ok h)
        (createMarketWithDisputeWindow_listed h)
  | createMarketWithDisputeWindow p dw =>
      obtain ⟨id, h, _⟩ := returning_eq_ok.mp h
      exact .created _ p dw id w' rfl (createMarketWithDisputeWindow_ok h)
        (createMarketWithDisputeWindow_listed h)
  | placeBet b =>
      obtain ⟨m, fee, hbet, -, hp⟩ := placeBet_ok (done_eq_ok.mp h).1
      exact .bet b m fee w' hbet hp
  | castVote voter id outcome weight =>
      obtain ⟨_, v, hclosed, h⟩ := bind_eq_ok.mp (done_eq_ok.mp h).1
      obtain ⟨m, govToken, u, vote, hvote⟩ := castVote_effect h
      exact .voted voter id outcome weight v u w' m govToken vote (requireClosed_ok hclosed) hvote
  | fileDispute disciplinarian id =>
      obtain ⟨_, v, hclosed, h⟩ := bind_eq_ok.mp (done_eq_ok.mp h).1
      obtain ⟨evs, h⟩ := fileDispute_announces (X := X) h
      exact .disputed disciplinarian id evs v w' (requireClosed_ok hclosed) h
  | setDisputeWindow seconds =>
      obtain ⟨hby, hbounds, rfl⟩ := setDisputeWindow_ok.mp (done_eq_ok.mp h).1
      exact .windowSet seconds hby hbounds
  | setDisputeWindowBounds lo hi =>
      obtain ⟨hby, rfl⟩ := setDisputeWindowBounds_ok (done_eq_ok.mp h).1
      exact .windowBoundsSet lo hi hby
  | setCircuitBreaker state =>
      obtain ⟨hby, rfl⟩ := setState_ok.mp (done_eq_ok.mp h).1
      exact .breakerSet state hby
  | setCircuitBreakerThreshold n =>
      obtain ⟨hby, hpos, rfl⟩ := setThreshold_ok.mp (done_eq_ok.mp h).1
      exact .thresholdSet n hby hpos
  | setBaseFee amount =>
      obtain ⟨hby, rfl⟩ := setBaseFee_ok.mp (done_eq_ok.mp h).1
      exact .baseFeeSet amount hby
  | setFeeAdmin feeAdmin =>
      obtain ⟨hby, rfl⟩ := setFeeAdmin_ok.mp (done_eq_ok.mp h).1
      exact .feeAdminSet feeAdmin hby
  | withdrawProtocolFees token recipient =>
      obtain ⟨amount, h, _⟩ := returning_eq_ok.mp h
      obtain ⟨rfl, hfunded, rfl⟩ := withdrawProtocolFees_ok h
      exact .feesWithdrawn token recipient hfunded
  | claimReferralRewards address token =>
      obtain ⟨amount, h, _⟩ := returning_eq_ok.mp h
      obtain ⟨rfl, hfunded, rfl⟩ := claimReferralRewards_ok h
      exact .rewardsClaimed address token hfunded
  | setOracleResult id oracleId outcome =>
      obtain ⟨_, _, hadm, h⟩ := bind_eq_ok.mp (done_eq_ok.mp h).1
      obtain ⟨hby, rfl⟩ := requireAdmin_ok.mp hadm
      obtain ⟨source, rfl⟩ := setOracleResult_ok h
      exact .oracleResultSet id oracleId outcome source hby
  | validateOracleStaleness id =>
      obtain ⟨_, _, hm, h⟩ := bind_eq_ok.mp (done_eq_ok.mp h).1
      obtain ⟨_, rfl⟩ := loadMarket_ok.mp hm
      obtain ⟨_, _, rfl⟩ := validateOracleStaleness_ok h
      exact .stalenessValidated id
  | resolveMarket id outcome =>
      obtain ⟨_, _, hadm, h⟩ := bind_eq_ok.mp (done_eq_ok.mp h).1
      obtain ⟨_, rfl⟩ := requireAdmin_ok.mp hadm
      obtain ⟨evs, h⟩ := resolveMarket_announces h
      exact .moved _ id _ evs w' rfl h
  | setGovernanceToken token =>
      obtain ⟨hby, rfl⟩ := setGovernanceToken_ok.mp (done_eq_ok.mp h).1
      exact .appointed _ _ (.governanceToken token hby)
  | attemptOracleResolution id =>
      obtain ⟨evs, h⟩ := attemptOracleResolution_announces (done_eq_ok.mp h).1
      exact .moved _ id _ evs w' rfl h
  | finalizeResolution id =>
      obtain ⟨evs, h⟩ := finalizeResolution_announces (done_eq_ok.mp h).1
      exact .moved _ id _ evs w' rfl h
  | resetMonitoring =>
      obtain ⟨_, _, hadm, h⟩ := bind_eq_ok.mp (done_eq_ok.mp h).1
      obtain ⟨hby, rfl⟩ := requireAdmin_ok.mp hadm
      obtain rfl := resetMonitoring_ok.mp h
      exact .monitoringReset hby
  | setGuardian guardian =>
      obtain ⟨hby, rfl⟩ := setGuardian_ok.mp (done_eq_ok.mp h).1
      exact .appointed _ _ (.guardian guardian hby)
  | pause =>
      obtain ⟨hby, rfl⟩ := pause_ok.mp (done_eq_ok.mp h).1
      exact .paused hby
  | unpause =>
      obtain ⟨hby, rfl⟩ := unpause_ok.mp (done_eq_ok.mp h).1
      exact .unpaused hby
  | setCreatorReputation creator reputation =>
      obtain ⟨hby, rfl⟩ := setCreatorReputation_ok.mp (done_eq_ok.mp h).1
      exact .reputationSet creator reputation hby
  | setCreationDeposit amount =>
      obtain ⟨hby, rfl⟩ := setCreationDeposit_ok.mp (done_eq_ok.mp h).1
      exact .creationDepositSet amount hby
  | releaseCreationDeposit id token =>
      obtain ⟨m, hm, hauth, hs, ⟨hd, rfl⟩ | ⟨hd, ht, rfl⟩⟩ :=
        releaseCreationDeposit_ok (done_eq_ok.mp h).1
      · exact .releasedNothing id token m hm hs hd
      · exact .released id token m hm hauth hs hd ht
  | setCreationFee amount =>
      obtain ⟨hby, rfl⟩ := setCreationFee_ok.mp (done_eq_ok.mp h).1
      exact .creationFeeSet amount hby
  | setProtocolTreasury treasury =>
      obtain ⟨hby, rfl⟩ := setProtocolTreasury_ok.mp (done_eq_ok.mp h).1
      exact .treasurySet treasury hby
  | initializeGuardians gs =>
      obtain ⟨_, _, hadm, h⟩ := bind_eq_ok.mp (done_eq_ok.mp h).1
      obtain ⟨hby, rfl⟩ := requireAdmin_ok.mp hadm
      obtain ⟨hnone, hne, hnot, rfl⟩ := initializeGuardians_ok.mp h
      exact .governed _ _ (.initGuardians gs hby hnone hne hnot)
  | addGuardian g =>
      obtain ⟨hby, hnot, hfresh, rfl⟩ := addGuardian_ok.mp (done_eq_ok.mp h).1
      exact .governed _ _ (.add g hby hnot hfresh)
  | removeGuardian a =>
      obtain ⟨hby, hmem, rfl⟩ := removeGuardian_ok.mp (done_eq_ok.mp h).1
      exact .governed _ _ (.proposeRemoval a hby hmem)
  | voteOnGuardianRemoval voter approve =>
      obtain ⟨p, needed, hauth, hmem, hp, htime, hfor, hagainst, hneeded, rfl⟩ :=
        voteOnGuardianRemoval_ok (done_eq_ok.mp h).1
      exact .governed _ _
        (.voteRemoval voter approve p needed hauth hmem hp htime ⟨hfor, hagainst⟩ hneeded)
  | executeGuardianRemoval =>
      obtain ⟨p, t, hby, hp, ht, htime, hmem, rfl⟩ :=
        executeGuardianRemoval_ok (done_eq_ok.mp h).1
      exact .governed _ _ (.executeRemoval p t hby hp ht htime hmem)
  | initiateUpgrade hash =>
      obtain ⟨hby, hfree, hidle, rfl⟩ := initiateUpgrade_ok.mp (done_eq_ok.mp h).1
      exact .upgradeInitiated hash _ (.initiate hash hby hfree hidle)
  | voteForUpgrade voter voteFor =>
      obtain ⟨_, h, _⟩ := returning_eq_ok.mp h
      obtain ⟨p, met, hp, hmet, rfl⟩ := voteForUpgrade_ok h
      exact .upgradeVoted voter voteFor _ (.vote voter voteFor p met hp hmet)
  | executeUpgrade =>
      obtain ⟨_, h, _⟩ := returning_eq_ok.mp h
      obtain ⟨p, executor, hp, _, htime, hmet, rfl⟩ := executeUpgrade_ok h
      exact .upgradeExecuted executor p.wasmHash _ (.execute p hp htime hmet)
  | setTimelockDuration seconds =>
      obtain ⟨hby, hbounds, rfl⟩ := setTimelockDuration_ok.mp (done_eq_ok.mp h).1
      exact .governed _ _ (.timelock seconds hby hbounds)
  | emergencyPause voter =>
      rcases emergencyPause_cases (done_eq_ok.mp h).1 with ⟨hnow, rfl⟩ | rfl
      · exact .emergencyPaused voter hnow
      · exact .governed _ _ (.emergency voter _)
  | pruneMarket id =>
      obtain ⟨m, t, ar, hm, hs, ht, htime, rfl⟩ := pruneMarket_ok (done_eq_ok.mp h).1
      exact .pruned id m t ar hm hs ht htime
  | cancelMarketAdmin id =>
      obtain ⟨evs, h⟩ := cancelMarketAdmin_announces (done_eq_ok.mp h).1
      exact .moved _ id _ evs w' rfl h
  | cancelMarketVote id =>
      obtain ⟨evs, h⟩ := cancelMarketVote_announces (done_eq_ok.mp h).1
      exact .moved _ id _ evs w' rfl h

theorem Succeeds.outcome {c : Call} (h : Succeeds X env c w w') : Outcome X env w c w' := by
  obtain ⟨r, h⟩ := h
  exact exec_outcome h

end Inversion

end PredictIQ.Contract
