/-
  PredictIQ.Contract.Governance: `governance.rs`.

  The guardian set and the three proposals decided by it: a contract upgrade,
  the removal of a guardian, and the emergency pause.  An upgrade's majority
  is weighed over the guardian set of the moment; the time it passed is
  marked by `voteForUpgrade` alone.
-/
import PredictIQ.Contract.CircuitBreaker

namespace PredictIQ.Contract

open Foundation Tx

/-! ## §1. Voting power. -/

/-- `u32` summation of voting powers, `none` on overflow. -/
def sumPowers : List Nat → Nat → Option Nat
  | [], total => some total
  | power :: rest, total => do
      let total' ← addU32 total power
      sumPowers rest total'

/-- The power of the first guardian with this address; 0 for others. -/
def powerOf (guardians : List Guardian) (voter : Address) : Nat :=
  ((guardians.find? fun g => g.address = voter).map (·.votingPower)).getD 0

/-- `is_majority_met`; `none` is the overflow trap. -/
def isMajorityMet (guardians : List Guardian) (votesFor : List Address) : Option Bool := do
  if guardians = [] then some false
  else
    let totalPower ← sumPowers (guardians.map (·.votingPower)) 0
    if totalPower = 0 then some false
    else
      let powerFor ← sumPowers (votesFor.map (powerOf guardians)) 0
      let scaled ← mulU32 powerFor 100
      some (majorityThresholdPercent ≤ scaled / totalPower)

def isGuardian (guardians : List Guardian) (a : Address) : Bool :=
  guardians.any fun g => g.address = a

/-! ## §2. The guardian set. -/

def GovernanceStore.getGuardians (s : GovernanceStore) : List Guardian := s.guardianSet.getD []

def GovernanceStore.getTimelockDuration (s : GovernanceStore) : Nat :=
  s.timelockDuration.getD PredictIQ.Contract.timelockDuration

def initializeGuardians (guardians : List Guardian) : Body Unit := do
  let guardianSet ← reads (·.governance.guardianSet)
  failIf (guardianSet ≠ none) .alreadyInitialized
  failIf (guardians = []) .notAuthorized
  let admin ← getAdmin
  failIf (∃ a ∈ admin, ∃ g ∈ guardians, g.address = a) .notAuthorized
  update fun w => { w with governance.guardianSet := some guardians }

def addGuardian (guardian : Guardian) : Body Unit := do
  requireAdmin
  let admin ← getAdmin
  failIf (admin = some guardian.address) .notAuthorized
  let guardians ← reads (·.governance.getGuardians)
  failIf (isGuardian guardians guardian.address = true) .notAuthorized
  update fun w => { w with governance.guardianSet := some (guardians ++ [guardian]) }

def removeGuardian (address : Address) : Body Unit := do
  requireAdmin
  let guardians ← reads (·.governance.getGuardians)
  failIf (isGuardian guardians address = false) .guardianNotSet
  let now ← reads (·.timestamp)
  let pendingRemoval : PendingGuardianRemoval :=
    { targetGuardian := address, initiatedAt := now, votesFor := [], votesAgainst := [] }
  update fun w => { w with
    governance.pendingGuardianRemoval := some pendingRemoval
    governance.pendingGuardianRemovalPassedAt := none }

/-- Drop the pending removal and its mark. -/
def clearGuardianRemoval : Body Unit :=
  update fun w => { w with
    governance.pendingGuardianRemoval := none
    governance.pendingGuardianRemovalPassedAt := none }

/-- `(other_guardians_count * MAJORITY_THRESHOLD_PERCENT) / 100 + 1`. -/
def removalVotesNeeded (guardians : List Guardian) : Option Nat := do
  let scaled ← mulU32 (guardians.length - 1) majorityThresholdPercent
  some (scaled / 100 + 1)

/-- The proposal with `voter`'s ballot added. -/
def PendingGuardianRemoval.withVote (p : PendingGuardianRemoval) (voter : Address) (approve : Bool) :
    PendingGuardianRemoval :=
  if approve then { p with votesFor := p.votesFor ++ [voter] }
  else { p with votesAgainst := p.votesAgainst ++ [voter] }

/-- The end of `vote_on_guardian_removal`: drop a voted-down proposal, store
any other. -/
def closeRemovalBallot (pendingRemoval : PendingGuardianRemoval) (votesNeeded : Nat) : Body Unit :=
  if votesNeeded ≤ pendingRemoval.votesAgainst.length then clearGuardianRemoval
  else update fun w => { w with governance.pendingGuardianRemoval := some pendingRemoval }

def voteOnGuardianRemoval (voter : Address) (approve : Bool) : Body Unit := do
  requireAuth voter
  let guardians ← reads (·.governance.getGuardians)
  failIf (isGuardian guardians voter = false) .notAuthorized
  let pendingRemoval ← orErr (← reads (·.governance.pendingGuardianRemoval)) .guardianNotSet
  let now ← reads (·.timestamp)
  -- this clean-up is lost with the error that follows it
  whenever (guardianRemovalVoteWindow < now - pendingRemoval.initiatedAt) do
    clearGuardianRemoval
    abort (.error .guardianNotSet)
  failIf (voter ∈ pendingRemoval.votesFor) .alreadyVotedOnUpgrade
  failIf (voter ∈ pendingRemoval.votesAgainst) .alreadyVotedOnUpgrade
  let ballot := pendingRemoval.withVote voter approve
  let votesNeeded ← orTrap (removalVotesNeeded guardians)
  let passedAt ← reads (·.governance.pendingGuardianRemovalPassedAt)
  whenever (votesNeeded ≤ ballot.votesFor.length ∧ passedAt = none)
    (update fun w => { w with governance.pendingGuardianRemovalPassedAt := some now })
  closeRemovalBallot ballot votesNeeded

def executeGuardianRemoval : Body Unit := do
  requireAdmin
  let pendingRemoval ← orErr (← reads (·.governance.pendingGuardianRemoval)) .guardianNotSet
  let passedAt ← orErr (← reads (·.governance.pendingGuardianRemovalPassedAt)) .insufficientVotes
  let now ← reads (·.timestamp)
  let timelock ← reads (·.governance.getTimelockDuration)
  failIf (now - passedAt < timelock) .timelockActive
  let guardians ← reads (·.governance.getGuardians)
  failIf (isGuardian guardians pendingRemoval.targetGuardian = false) .guardianNotSet
  -- a pending upgrade keeps its votes, and is not weighed again here
  let newGuardians := guardians.filter fun g => g.address ≠ pendingRemoval.targetGuardian
  update fun w => { w with governance.guardianSet := some newGuardians }
  clearGuardianRemoval

/-! ## §3. Upgrades. -/

/-- The hash may not be pending, nor rejected within the cool-down. -/
def requireNoUpgradeCollision (wasmHash : BytesN32) : Body Unit := do
  let pending ← reads (·.governance.pendingUpgrade)
  failIf (∃ p ∈ pending, p.wasmHash = wasmHash) .upgradeAlreadyPending
  let rejectedAt ← reads (·.governance.upgradeRejectedAt.lookup wasmHash)
  let now ← reads (·.timestamp)
  failIf (∃ t ∈ rejectedAt, now - t ≤ upgradeCooldownDuration) .upgradeHashInCooldown

def initiateUpgrade (wasmHash : BytesN32) : Body Unit := do
  requireAdmin
  requireNoUpgradeCollision wasmHash
  let pending ← reads (·.governance.pendingUpgrade)
  failIf (pending ≠ none) .notAuthorized
  let now ← reads (·.timestamp)
  let pendingUpgrade : PendingUpgrade :=
    { wasmHash := wasmHash, initiatedAt := now, votesFor := [], votesAgainst := [] }
  update fun w => { w with
    governance.pendingUpgrade := some pendingUpgrade
    governance.pendingUpgradePassedAt := none }
  let admin ← adminOrSelf
  publish (.upgInit admin wasmHash)

/-- The proposal with `voter`'s vote added. -/
def PendingUpgrade.withVote (p : PendingUpgrade) (voter : Address) (voteFor : Bool) :
    PendingUpgrade :=
  if voteFor then { p with votesFor := p.votesFor ++ [voter] }
  else { p with votesAgainst := p.votesAgainst ++ [voter] }

def voteForUpgrade (voter : Address) (voteFor : Bool) : Body Bool := do
  requireAuth voter
  let guardians ← reads (·.governance.getGuardians)
  failIf (isGuardian guardians voter = false) .notAuthorized
  let pendingUpgrade ← orErr (← reads (·.governance.pendingUpgrade)) .upgradeNotInitiated
  failIf (voter ∈ pendingUpgrade.votesFor) .alreadyVotedOnUpgrade
  failIf (voter ∈ pendingUpgrade.votesAgainst) .alreadyVotedOnUpgrade
  let voted := pendingUpgrade.withVote voter voteFor
  let met ← orTrap (isMajorityMet guardians voted.votesFor)
  -- the only place where the time of the majority is written
  let passedAt ← reads (·.governance.pendingUpgradePassedAt)
  whenever (met = true ∧ passedAt = none)
    (update fun w => { w with governance.pendingUpgradePassedAt := some w.timestamp })
  update fun w => { w with governance.pendingUpgrade := some voted }
  publish (.upgVote voter voteFor)
  pure true

def setTimelockDuration (seconds : Nat) : Body Unit := do
  requireAdmin
  failIf (seconds < timelockMinSeconds ∨ timelockMaxSeconds < seconds) .invalidAmount
  update fun w => { w with governance.timelockDuration := some seconds }

/-- The time the timelock counts from: the mark, or else the proposal. -/
def GovernanceStore.timelockStartedAt (s : GovernanceStore) (p : PendingUpgrade) : Nat :=
  s.pendingUpgradePassedAt.getD p.initiatedAt

def isTimelockSatisfied : Body Bool := do
  let pendingUpgrade ← orErr (← reads (·.governance.pendingUpgrade)) .upgradeNotInitiated
  let startedAt ← reads (·.governance.timelockStartedAt pendingUpgrade)
  let now ← reads (·.timestamp)
  let timelock ← reads (·.governance.getTimelockDuration)
  pure (timelock ≤ now - startedAt)

/-- The rejection branch of `execute_upgrade`: it cleans up and returns an
error, so that its writes are the host's to keep or to drop. -/
def rejectUpgrade (X : Externs) (wasmHash : BytesN32) : Body Unit := do
  update fun w => { w with
    governance.upgradeRejectedAt := w.governance.upgradeRejectedAt.insert wasmHash w.timestamp
    governance.pendingUpgrade := none
    governance.pendingUpgradePassedAt := none }
  publish (X.emitUpgradeRejected wasmHash)
  abort (.error .insufficientVotes)

def executeUpgrade (X : Externs) : Body BytesN32 := do
  -- no signature is asked for: anybody may execute
  let satisfied ← isTimelockSatisfied
  failIf (satisfied = false) .timelockActive
  let pendingUpgrade ← orErr (← reads (·.governance.pendingUpgrade)) .upgradeNotInitiated
  let guardians ← reads (·.governance.getGuardians)
  let met ← orTrap (isMajorityMet guardians pendingUpgrade.votesFor)
  whenever (met = false) (rejectUpgrade X pendingUpgrade.wasmHash)
  let wasmHash := pendingUpgrade.wasmHash
  update fun w => { w with
    governance.pendingUpgrade := none
    governance.pendingUpgradePassedAt := none
    governance.upgradeRejectedAt := w.governance.upgradeRejectedAt.erase wasmHash }
  -- the event comes before the code is replaced
  let executor ← adminOrSelf
  publish (X.emitUpgradeExecuted executor wasmHash)
  update fun w => { w with wasm := some wasmHash }
  pure wasmHash

/-! ## §4. The emergency pause. -/

/-- The power of the guardians among `votes`, each guardian of the list
counted on its own. -/
def pausePower (guardians : List Guardian) (votes : List Address) : Option Nat :=
  sumPowers ((guardians.filter fun g => g.address ∈ votes).map (·.votingPower)) 0

def emergencyPause (voter : Address) : Body Unit := do
  requireAuth voter
  let guardians ← reads (·.governance.getGuardians)
  failIf (guardians = []) .notAuthorized
  failIf (isGuardian guardians voter = false) .notAuthorized
  let votes ← reads (·.governance.pendingEmergencyPause.getD [])
  failIf (voter ∈ votes) .alreadyVotedOnUpgrade
  let totalPower ← orTrap (sumPowers (guardians.map (·.votingPower)) 0)
  let powerFor ← orTrap (pausePower guardians (votes ++ [voter]))
  -- two thirds of the power, compared without division
  let thresholdMet := 0 < totalPower ∧ totalPower * 2 ≤ powerFor * 3
  whenever thresholdMet do
    update fun w => { w with governance.pendingEmergencyPause := none }
    forcePause
  whenever (¬thresholdMet)
    (update fun w => { w with governance.pendingEmergencyPause := some (votes ++ [voter]) })

/-! ## §5. Rules. -/

section Rules

variable {X : Externs} {env : Env} {w w' : World} {u : Unit}

theorem initializeGuardians_ok {guardians : List Guardian} :
    initializeGuardians guardians env w = (.ok u, w') ↔
      w.governance.guardianSet = none ∧ guardians ≠ []
        ∧ (∀ g ∈ guardians, w.admin.admin ≠ some g.address)
        ∧ w' = { w with governance.guardianSet := some guardians } := by
  simp only [initializeGuardians, getAdmin, bind_eq_ok, reads_eq_ok, failIf_ok, update_eq_ok,
    and_assoc, exists_and_left, exists_eq_left', exists_const]
  constructor
  · intro h
    obtain ⟨hnone, hne, hadm, hw'⟩ := h
    refine ⟨not_not.mp hnone, hne, ?_, hw'⟩
    intro g hg ha
    exact hadm ⟨_, ha, g, hg, rfl⟩
  · intro h
    obtain ⟨hnone, hne, hadm, hw'⟩ := h
    refine ⟨not_not.mpr hnone, hne, ?_, hw'⟩
    intro hex
    obtain ⟨a, ha, g, hg, hga⟩ := hex
    exact hadm g hg (hga ▸ ha)

theorem addGuardian_ok {guardian : Guardian} :
    addGuardian guardian env w = (.ok u, w') ↔
      ByAdmin env w ∧ w.admin.admin ≠ some guardian.address
        ∧ isGuardian w.governance.getGuardians guardian.address = false
        ∧ w' = { w with
            governance.guardianSet := some (w.governance.getGuardians ++ [guardian]) } := by
  simp only [addGuardian, getAdmin, bind_eq_ok, requireAdmin_ok, reads_eq_ok, failIf_ok,
    update_eq_ok, and_assoc, exists_and_left, exists_eq_left', exists_const, Bool.not_eq_true]

theorem removeGuardian_ok {address : Address} :
    removeGuardian address env w = (.ok u, w') ↔
      ByAdmin env w ∧ isGuardian w.governance.getGuardians address = true
        ∧ w' = { w with
            governance.pendingGuardianRemoval := some
              { targetGuardian := address, initiatedAt := w.timestamp, votesFor := [],
                votesAgainst := [] }
            governance.pendingGuardianRemovalPassedAt := none } := by
  simp [removeGuardian, and_assoc]

/-- A vote on a removal records the ballot, marks a first majority, and drops
a proposal that a majority is against. -/
theorem voteOnGuardianRemoval_ok {voter : Address} {approve : Bool}
    (h : voteOnGuardianRemoval voter approve env w = (.ok u, w')) :
    ∃ p needed, env.authorized voter = true
      ∧ isGuardian w.governance.getGuardians voter = true
      ∧ w.governance.pendingGuardianRemoval = some p
      ∧ w.timestamp - p.initiatedAt ≤ guardianRemovalVoteWindow
      ∧ voter ∉ p.votesFor ∧ voter ∉ p.votesAgainst
      ∧ removalVotesNeeded w.governance.getGuardians = some needed
      ∧ w' = { w with
          governance.pendingGuardianRemoval :=
            if needed ≤ (p.withVote voter approve).votesAgainst.length then none
            else some (p.withVote voter approve)
          governance.pendingGuardianRemovalPassedAt :=
            if needed ≤ (p.withVote voter approve).votesAgainst.length then none
            else if needed ≤ (p.withVote voter approve).votesFor.length
                ∧ w.governance.pendingGuardianRemovalPassedAt = none then some w.timestamp
            else w.governance.pendingGuardianRemovalPassedAt } := by
  simp only [voteOnGuardianRemoval, bind_eq_ok, requireAuth_ok, reads_eq_ok, failIf_ok, orErr_ok,
    orTrap_ok, and_assoc, exists_and_left, exists_eq_left', exists_const, Bool.not_eq_false] at h
  obtain ⟨hauth, hg, p, hp, _, _, hexp, hfor, hagainst, needed, hneeded, _, v, hmark, hclose⟩ := h
  rcases whenever_eq_ok.mp hexp with ⟨_, hexp⟩ | ⟨hopen, rfl⟩
  · -- an expired proposal ends the call with an error
    simp at hexp
  · refine ⟨p, needed, hauth, hg, hp, not_lt.mp hopen, hfor, hagainst, hneeded, ?_⟩
    -- the mark first, then the two ways the ballot is closed
    rcases whenever_eq_ok.mp hmark with ⟨hc, hmark⟩ | ⟨hc, rfl⟩
    · have hv := update_eq_ok.mp hmark
      unfold closeRemovalBallot clearGuardianRemoval at hclose
      split at hclose
      · rw [update_eq_ok.mp hclose, hv, if_pos (by assumption), if_pos (by assumption)]
      · rw [update_eq_ok.mp hclose, hv, if_neg (by assumption), if_neg (by assumption), if_pos hc]
    · unfold closeRemovalBallot clearGuardianRemoval at hclose
      split at hclose
      · rw [update_eq_ok.mp hclose, if_pos (by assumption), if_pos (by assumption)]
      · rw [update_eq_ok.mp hclose, if_neg (by assumption), if_neg (by assumption), if_neg hc]

theorem executeGuardianRemoval_ok (h : executeGuardianRemoval env w = (.ok u, w')) :
    ∃ p t, ByAdmin env w ∧ w.governance.pendingGuardianRemoval = some p
      ∧ w.governance.pendingGuardianRemovalPassedAt = some t
      ∧ w.governance.getTimelockDuration ≤ w.timestamp - t
      ∧ isGuardian w.governance.getGuardians p.targetGuardian = true
      ∧ w' = { w with
          governance.guardianSet := some
            (w.governance.getGuardians.filter fun g => g.address ≠ p.targetGuardian)
          governance.pendingGuardianRemoval := none
          governance.pendingGuardianRemovalPassedAt := none } := by
  simp only [executeGuardianRemoval, bind_eq_ok, requireAdmin_ok, reads_eq_ok, orErr_ok, failIf_ok,
    clearGuardianRemoval, update_eq_ok, and_assoc, exists_and_left, exists_eq_left', exists_eq_left,
    exists_const, Bool.not_eq_false, not_lt] at h
  obtain ⟨hadm, p, hp, t, ht, htime, hg, hw'⟩ := h
  exact ⟨p, t, hadm, hp, ht, htime, hg, hw'⟩

/-- Nothing stands in the way of proposing `hash`. -/
def NoCollision (w : World) (hash : BytesN32) : Prop :=
  (∀ p, w.governance.pendingUpgrade = some p → p.wasmHash ≠ hash)
    ∧ ∀ t, w.governance.upgradeRejectedAt.lookup hash = some t →
        upgradeCooldownDuration < w.timestamp - t

@[simp] theorem requireNoUpgradeCollision_ok {hash : BytesN32} :
    requireNoUpgradeCollision hash env w = (.ok u, w') ↔ NoCollision w hash ∧ w = w' := by
  simp only [requireNoUpgradeCollision, bind_eq_ok, reads_eq_ok, failIf_ok, NoCollision, and_assoc,
    exists_and_left, exists_eq_left', exists_const]
  constructor
  · intro h
    obtain ⟨hp, ht, hw'⟩ := h
    refine ⟨?_, ?_, hw'⟩
    · intro p h h'
      exact hp ⟨p, h, h'⟩
    · intro t h
      by_contra hle
      exact ht ⟨t, h, not_lt.mp hle⟩
  · intro h
    obtain ⟨hp, ht, hw'⟩ := h
    refine ⟨?_, ?_, hw'⟩
    · intro hex
      obtain ⟨p, h, h'⟩ := hex
      exact hp p h h'
    · intro hex
      obtain ⟨t, h, h'⟩ := hex
      exact absurd h' (not_le.mpr (ht t h))

/-- An upgrade is accepted exactly from the admin, with nothing pending and
the hash out of its cool-down. -/
theorem initiateUpgrade_ok {hash : BytesN32} :
    initiateUpgrade hash env w = (.ok u, w') ↔
      ByAdmin env w ∧ NoCollision w hash ∧ w.governance.pendingUpgrade = none
        ∧ w' = { w with
            governance.pendingUpgrade := some
              { wasmHash := hash, initiatedAt := w.timestamp, votesFor := [], votesAgainst := [] }
            governance.pendingUpgradePassedAt := none
            events := w.events ++ [.upgInit (w.admin.admin.getD currentContractAddress) hash] } := by
  simp [initiateUpgrade, and_assoc]

/-- A vote is added to the pending upgrade, and the mark is set when this vote
meets the majority and no mark was there. -/
theorem voteForUpgrade_ok {voter : Address} {voteFor r : Bool}
    (h : voteForUpgrade voter voteFor env w = (.ok r, w')) :
    ∃ p met, w.governance.pendingUpgrade = some p
      ∧ isMajorityMet w.governance.getGuardians (p.withVote voter voteFor).votesFor = some met
      ∧ w' = { w with
          governance.pendingUpgrade := some (p.withVote voter voteFor)
          governance.pendingUpgradePassedAt :=
            if met = true ∧ w.governance.pendingUpgradePassedAt = none then some w.timestamp
            else w.governance.pendingUpgradePassedAt
          events := w.events ++ [.upgVote voter voteFor] } := by
  simp only [voteForUpgrade, bind_eq_ok, requireAuth_ok, reads_eq_ok, failIf_ok, orErr_ok,
    orTrap_ok, update_eq_ok, publish_ok, pure_eq_ok, and_assoc, exists_and_left, exists_eq_left',
    exists_eq_left, exists_const] at h
  obtain ⟨_, _, p, hp, _, _, met, hmet, _, v, hmark, _, rfl⟩ := h
  refine ⟨p, met, hp, hmet, ?_⟩
  -- the mark is written before the ballot
  rcases whenever_eq_ok.mp hmark with ⟨hc, hmark⟩ | ⟨hc, rfl⟩
  · rw [update_eq_ok.mp hmark, if_pos hc]
  · rw [if_neg hc]

theorem setTimelockDuration_ok {seconds : Nat} :
    setTimelockDuration seconds env w = (.ok u, w') ↔
      ByAdmin env w ∧ (timelockMinSeconds ≤ seconds ∧ seconds ≤ timelockMaxSeconds)
        ∧ w' = { w with governance.timelockDuration := some seconds } := by
  simp [setTimelockDuration, and_assoc]

@[simp] theorem isTimelockSatisfied_ok {b : Bool} :
    isTimelockSatisfied env w = (.ok b, w') ↔
      (∃ p, w.governance.pendingUpgrade = some p ∧
        decide (w.governance.getTimelockDuration
          ≤ w.timestamp - w.governance.timelockStartedAt p) = b) ∧ w = w' := by
  simp only [isTimelockSatisfied, bind_eq_ok, reads_eq_ok, orErr_ok, pure_eq_ok, and_assoc,
    exists_and_left, exists_eq_left']
  constructor
  · intro h
    obtain ⟨p, hp, hb, hw'⟩ := h
    exact ⟨⟨p, hp, hb⟩, hw'⟩
  · intro h
    obtain ⟨⟨p, hp, hb⟩, hw'⟩ := h
    exact ⟨p, hp, hb, hw'⟩

/-- An executed upgrade had its timelock behind it and its majority at hand. -/
theorem executeUpgrade_ok {hash : BytesN32} (h : executeUpgrade X env w = (.ok hash, w')) :
    ∃ p executor, w.governance.pendingUpgrade = some p ∧ hash = p.wasmHash
      ∧ w.governance.getTimelockDuration ≤ w.timestamp - w.governance.timelockStartedAt p
      ∧ isMajorityMet w.governance.getGuardians p.votesFor = some true
      ∧ w' = { w with
          governance.pendingUpgrade := none
          governance.pendingUpgradePassedAt := none
          governance.upgradeRejectedAt := w.governance.upgradeRejectedAt.erase p.wasmHash
          wasm := some p.wasmHash
          events := w.events ++ [X.emitUpgradeExecuted executor p.wasmHash] } := by
  simp only [executeUpgrade, bind_eq_ok, isTimelockSatisfied_ok, failIf_ok, reads_eq_ok, orErr_ok,
    orTrap_ok, update_eq_ok, adminOrSelf_ok, publish_ok, pure_eq_ok, and_assoc, exists_and_left,
    exists_eq_left', exists_eq_left, exists_const] at h
  obtain ⟨sat, ⟨p, hp, hsat⟩, htrue, p', hp', met, hmet, _, v, hrej, rfl, rfl⟩ := h
  obtain rfl : p = p' := Option.some.inj (hp.symm.trans hp')
  rcases whenever_eq_ok.mp hrej with ⟨_, hrej⟩ | ⟨hmt, rfl⟩
  · -- the rejection branch returns an error
    simp [rejectUpgrade] at hrej
  · rw [Bool.not_eq_false] at htrue hmt
    subst hmt htrue
    exact ⟨p, _, hp, rfl, of_decide_eq_true hsat, hmet, rfl⟩

/-- With the timelock elapsed and the votes short of the majority, the body of
`execute_upgrade` stops with an error. -/
theorem executeUpgrade_rejects {p : PendingUpgrade} (hp : w.governance.pendingUpgrade = some p)
    (hmet : isMajorityMet w.governance.getGuardians p.votesFor ≠ some true) :
    ∀ hash, executeUpgrade X env w ≠ (.ok hash, w') := by
  intro hash h
  obtain ⟨p', _, hp', _, _, hmet', _⟩ := executeUpgrade_ok h
  obtain rfl : p = p' := Option.some.inj (hp.symm.trans hp')
  exact hmet hmet'

/-- Once the timelock has elapsed, a vote short of the majority is what
`execute_upgrade` reports. -/
theorem executeUpgrade_insufficient {p : PendingUpgrade}
    (hp : w.governance.pendingUpgrade = some p)
    (helapsed : w.governance.getTimelockDuration
      ≤ w.timestamp - w.governance.timelockStartedAt p)
    (hmet : isMajorityMet w.governance.getGuardians p.votesFor = some false) :
    ∃ v, executeUpgrade X env w = (.error (.error .insufficientVotes), v) := by
  simp [executeUpgrade, isTimelockSatisfied, rejectUpgrade, Bind.bind, Tx.bind, Pure.pure, Tx.pure,
    reads, orErr, orTrap, okOr, failIf, rejectIf, whenever, update, publish, abort, hp, helapsed,
    hmet]

/-- The emergency ballot `votes` holds two thirds of the guardians' power. -/
def PauseMajority (guardians : List Guardian) (votes : List Address) : Prop :=
  ∃ total power, sumPowers (guardians.map (·.votingPower)) 0 = some total
    ∧ pausePower guardians votes = some power ∧ 0 < total ∧ total * 2 ≤ power * 3

/-- The emergency votes cast so far. -/
def GovernanceStore.pauseVotes (s : GovernanceStore) : List Address :=
  s.pendingEmergencyPause.getD []

/-- `voter` is a guardian whose emergency vote is due. -/
structure MayVotePause (env : Env) (w : World) (voter : Address) : Prop where
  auth : env.authorized voter = true
  member : isGuardian w.governance.getGuardians voter = true
  once : voter ∉ w.governance.pauseVotes

/-- The vote of `voter` is the one that pauses the contract. -/
structure PausesNow (env : Env) (w : World) (voter : Address) : Prop where
  mayVote : MayVotePause env w voter
  majority : PauseMajority w.governance.getGuardians (w.governance.pauseVotes ++ [voter])

/-- The body of `emergency_pause` past its guards. -/
theorem emergencyPause_guards {voter : Address} :
    emergencyPause voter env w = (.ok u, w') ↔ MayVotePause env w voter ∧ ∃ total power,
      sumPowers (w.governance.getGuardians.map (·.votingPower)) 0 = some total
        ∧ pausePower w.governance.getGuardians (w.governance.pauseVotes ++ [voter]) = some power
        ∧ w' = if 0 < total ∧ total * 2 ≤ power * 3 then { w with
              governance.pendingEmergencyPause := none
              breaker := w.breaker.setState w.timestamp .paused
              events := w.events ++ [.cbState currentContractAddress .paused] }
            else { w with
              governance.pendingEmergencyPause := some (w.governance.pauseVotes ++ [voter]) } := by
  simp only [emergencyPause, bind_eq_ok, requireAuth_ok, reads_eq_ok, failIf_ok, orTrap_ok,
    and_assoc, exists_and_left, exists_eq_left', exists_const]
  constructor
  · intro h
    obtain ⟨hauth, _, hmem, honce, total, htotal, power, hpower, _, v, hmet, hnot⟩ := h
    refine ⟨⟨hauth, Bool.not_eq_false _ ▸ hmem, honce⟩, total, htotal, power, hpower, ?_⟩
    -- the two branches exclude each other
    rcases whenever_eq_ok.mp hmet with ⟨hc, hmet⟩ | ⟨hc, rfl⟩
    · rw [whenever_of_neg (not_not.mpr hc)] at hnot
      obtain ⟨_, rfl⟩ := pure_eq_ok.mp hnot
      rw [if_pos hc]
      simpa [forcePause] using hmet
    · rw [whenever_of_pos hc] at hnot
      rw [if_neg hc]
      exact update_eq_ok.mp hnot
  · intro h
    obtain ⟨⟨hauth, hmem, honce⟩, total, htotal, power, hpower, hw'⟩ := h
    have hne : w.governance.getGuardians ≠ [] := by
      intro hnil
      rw [hnil] at hmem
      cases hmem
    refine ⟨hauth, hne, by rw [hmem]; decide, honce, total, htotal, power, hpower, (), ?_⟩
    by_cases hc : 0 < total ∧ total * 2 ≤ power * 3
    · rw [if_pos hc] at hw'
      refine ⟨w', ?_, ?_⟩
      · rw [whenever_of_pos hc]
        simpa [forcePause] using hw'
      · rw [whenever_of_neg (not_not.mpr hc)]
        rfl
    · rw [if_neg hc] at hw'
      refine ⟨w, ?_, ?_⟩
      · rw [whenever_of_neg hc]
        rfl
      · rw [whenever_of_pos hc]
        exact update_eq_ok.mpr hw'

/-- The vote that completes the majority pauses the contract. -/
theorem PausesNow.run {voter : Address} (h : PausesNow env w voter) :
    emergencyPause voter env w = (.ok u, { w with
      governance.pendingEmergencyPause := none
      breaker := w.breaker.setState w.timestamp .paused
      events := w.events ++ [.cbState currentContractAddress .paused] }) := by
  obtain ⟨hmay, total, power, htotal, hpower, hmet⟩ := h
  exact emergencyPause_guards.mpr ⟨hmay, total, power, htotal, hpower, (if_pos hmet).symm⟩

/-- An emergency vote pauses the contract or is added to the ballot. -/
theorem emergencyPause_cases {voter : Address} (h : emergencyPause voter env w = (.ok u, w')) :
    (PausesNow env w voter ∧ w' = { w with
        governance.pendingEmergencyPause := none
        breaker := w.breaker.setState w.timestamp .paused
        events := w.events ++ [.cbState currentContractAddress .paused] })
      ∨ w' = { w with
          governance.pendingEmergencyPause := some (w.governance.pauseVotes ++ [voter]) } := by
  obtain ⟨hmay, total, power, htotal, hpower, rfl⟩ := emergencyPause_guards.mp h
  by_cases hmet : 0 < total ∧ total * 2 ≤ power * 3
  · rw [if_pos hmet]
    exact Or.inl ⟨⟨hmay, total, power, htotal, hpower, hmet⟩, rfl⟩
  · rw [if_neg hmet]
    exact Or.inr rfl

end Rules

end PredictIQ.Contract
