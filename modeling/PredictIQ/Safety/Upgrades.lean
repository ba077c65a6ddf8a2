/-
  PredictIQ.Safety.Upgrades: the upgrade timelock, and failed upgrades.

  The timelock counts from `PendingUpgradePassedAt`, which only a vote writes.
  A majority that comes about otherwise, by the removal of a guardian who had
  not voted for the upgrade, leaves no mark, and the timelock then counts from
  the proposal.  The rejection branch of `execute_upgrade` cleans up and
  returns an error, so the host drops the clean-up.
-/
import PredictIQ.Contract.Lifecycle

namespace PredictIQ.Contract

open Foundation Tx

variable {X : Externs}

/-! ## §1. When the majority was first reached. -/

/-- The pending upgrade has its majority over the current guardian set. -/
def majorityHolds (w : World) : Bool :=
  match w.governance.pendingUpgrade with
  | some p => isMajorityMet w.governance.getGuardians p.votesFor = some true
  | none => false

/-- Watch one state: forget the time when nothing is pending, note it when the
majority holds for the first time. -/
def noteMajority (seen : Option Nat) (w : World) : Option Nat :=
  if w.governance.pendingUpgrade = none then none
  else if seen = none ∧ majorityHolds w = true then some w.timestamp
  else seen

/-- The time the pending upgrade first had its majority, after a history. -/
def majorityReachedAt (history : List (Transition World Action)) : Option Nat :=
  history.foldl (fun seen t => noteMajority seen t.post) none

theorem majorityReachedAt_concat (history : List (Transition World Action))
    (t : Transition World Action) :
    majorityReachedAt (history ++ [t]) = noteMajority (majorityReachedAt history) t.post := by
  simp [majorityReachedAt]

/-- Whenever an upgrade is executed, its majority was first reached at least the
timelock in force earlier. -/
def TimelockRespected (X : Externs) (history : List (Transition World Action)) : Prop :=
  ∀ before t after, history = before ++ t :: after → ∀ env,
    t.act = .call env .executeUpgrade → Succeeds X env .executeUpgrade t.pre t.post →
      ∃ p, majorityReachedAt before = some p
        ∧ t.pre.governance.getTimelockDuration ≤ t.pre.timestamp - p

/-- `p` is pending, past its timelock as the code counts it, and has its majority. -/
structure UpgradeDue (w : World) (p : PendingUpgrade) : Prop where
  pending : w.governance.pendingUpgrade = some p
  elapsed : w.governance.getTimelockDuration ≤ w.timestamp - w.governance.timelockStartedAt p
  majority : isMajorityMet w.governance.getGuardians p.votesFor = some true

/-- `execute_upgrade` finds the time of the majority on record, if an upgrade is due. -/
def MajorityMarked (t : Transition World Action) : Prop :=
  ∀ env p, t.act = .call env .executeUpgrade → UpgradeDue t.pre p →
    t.pre.governance.pendingUpgradePassedAt ≠ none

/-! ## §2. The mark is never earlier than the majority. -/

/-- What ties the mark to the history, `seen` being the time on watch. -/
structure MarkSound (seen : Option Nat) (w : World) : Prop where
  past : ∀ p, seen = some p → p ≤ w.timestamp
  idle : w.governance.pendingUpgrade = none → seen = none
  mark : ∀ q, w.governance.pendingUpgradePassedAt = some q → ∃ p, seen = some p ∧ p ≤ q

/-- Watching a state keeps times in the past and forgets idle ones. -/
theorem noteMajority_past {seen : Option Nat} {w : World}
    (h : ∀ p, seen = some p → p ≤ w.timestamp) :
    ∀ p, noteMajority seen w = some p → p ≤ w.timestamp := by
  intro p hp
  unfold noteMajority at hp
  split at hp
  · cases hp
  · split at hp
    · obtain rfl := Option.some.inj hp
      exact le_refl _
    · exact h p hp

theorem noteMajority_idle {seen : Option Nat} {w : World}
    (h : w.governance.pendingUpgrade = none) : noteMajority seen w = none := by
  unfold noteMajority
  rw [if_pos h]

/-- A time once noted stays while the upgrade is pending. -/
theorem noteMajority_kept {p : Nat} {w : World} (h : w.governance.pendingUpgrade ≠ none) :
    noteMajority (some p) w = some p := by
  unfold noteMajority
  rw [if_neg h, if_neg (fun h => by cases h.1)]

/-- When the majority holds, some time is on watch. -/
theorem noteMajority_holds {seen : Option Nat} {w : World} (h : majorityHolds w = true) :
    ∃ p, noteMajority seen w = some p := by
  have hp : w.governance.pendingUpgrade ≠ none := by
    intro hnone
    simp [majorityHolds, hnone] at h
  cases seen with
  | some p => exact ⟨p, noteMajority_kept hp⟩
  | none =>
      unfold noteMajority
      rw [if_neg hp, if_pos ⟨rfl, h⟩]
      exact ⟨_, rfl⟩

/-- A step that leaves the pending upgrade's presence and the mark alone. -/
theorem MarkSound.of_same {seen : Option Nat} {w w' : World} (h : MarkSound seen w)
    (htime : w.timestamp ≤ w'.timestamp)
    (hpending : w'.governance.pendingUpgrade = none ↔ w.governance.pendingUpgrade = none)
    (hmark : w'.governance.pendingUpgradePassedAt = w.governance.pendingUpgradePassedAt) :
    MarkSound (noteMajority seen w') w' := by
  refine ⟨noteMajority_past fun p hp => (h.past p hp).trans htime, noteMajority_idle, ?_⟩
  intro q hq
  rw [hmark] at hq
  obtain ⟨p, hp, hpq⟩ := h.mark q hq
  subst hp
  -- the upgrade on watch is still pending, so its time is kept
  have hne : w'.governance.pendingUpgrade ≠ none := fun hnone => by
    have := h.idle (hpending.mp hnone)
    cases this
  exact ⟨p, noteMajority_kept hne, hpq⟩

/-- A step that drops the mark. -/
theorem MarkSound.of_unmarked {seen : Option Nat} {w w' : World} (h : MarkSound seen w)
    (htime : w.timestamp ≤ w'.timestamp)
    (hmark : w'.governance.pendingUpgradePassedAt = none) :
    MarkSound (noteMajority seen w') w' := by
  refine ⟨noteMajority_past fun p hp => (h.past p hp).trans htime, noteMajority_idle, ?_⟩
  intro q hq
  rw [hmark] at hq
  cases hq

/-- One change of the governance state. -/
theorem GovernanceStep.markSound {env : Env} {seen : Option Nat} {w w' : World} {c : Call}
    {g : GovernanceStore} (h : MarkSound seen w) (hstep : GovernanceStep env w c g)
    (hg : w'.governance = g) (htime : w'.timestamp = w.timestamp) :
    MarkSound (noteMajority seen w') w' := by
  cases hstep with
  | initiate =>
      -- a new proposal starts without a mark, an executed one leaves none
      exact h.of_unmarked htime.ge (by rw [hg])
  | execute => exact h.of_unmarked htime.ge (by rw [hg])
  | vote voter voteFor p met pending majority =>
      have hne : w'.governance.pendingUpgrade ≠ none := by
        rw [hg]
        exact Option.some_ne_none _
      refine ⟨noteMajority_past fun p hp => (h.past p hp).trans htime.ge, noteMajority_idle, ?_⟩
      intro q hq
      rw [hg] at hq
      dsimp only at hq
      split at hq
      · -- this vote met the majority: it is on watch now, if not before
        rename_i hmet
        have hholds : majorityHolds w' = true := by
          simp only [majorityHolds, hg, decide_eq_true_eq]
          rw [← hmet.1]
          exact majority
        obtain ⟨p', hp'⟩ : ∃ p', noteMajority seen w' = some p' := noteMajority_holds hholds
        have hle := noteMajority_past (fun p hp => (h.past p hp).trans htime.ge) p' hp'
        obtain rfl := Option.some.inj hq
        exact ⟨p', hp', hle.trans htime.le⟩
      · -- an older mark stays, and so does the time before it
        obtain ⟨p', hp', hle⟩ := h.mark q hq
        subst hp'
        exact ⟨p', noteMajority_kept hne, hle⟩
  | initGuardians =>
      -- a change of the guardian set may change the majority, not the mark
      exact h.of_same htime.ge (by rw [hg]) (by rw [hg])
  | add => exact h.of_same htime.ge (by rw [hg]) (by rw [hg])
  | proposeRemoval => exact h.of_same htime.ge (by rw [hg]) (by rw [hg])
  | voteRemoval => exact h.of_same htime.ge (by rw [hg]) (by rw [hg])
  | executeRemoval => exact h.of_same htime.ge (by rw [hg]) (by rw [hg])
  | timelock => exact h.of_same htime.ge (by rw [hg]) (by rw [hg])
  | emergency => exact h.of_same htime.ge (by rw [hg]) (by rw [hg])

theorem Effect.markSound {env : Env} {seen : Option Nat} {w w' : World} {c : Call}
    (h : MarkSound seen w) (heff : Effect X env w c w') :
    MarkSound (noteMajority seen w') w' := by
  have htime := heff.timestamp_eq
  rcases heff.governance with hkept | hstep
  · exact h.of_same htime.ge (by rw [hkept]) (by rw [hkept])
  · exact hstep.markSound h rfl htime

/-- After every history the mark is no earlier than the majority. -/
theorem markSound_run (X : Externs) (b : Address → Address → Nat) (t s : Nat)
    (as : List Action) :
    MarkSound (majorityReachedAt (trace (step X) (genesis b t s) as))
      (run (step X) (genesis b t s) as) := by
  have h0 : MarkSound (majorityReachedAt []) (genesis b t s) :=
    ⟨fun p hp => (by cases hp), fun _ => rfl, fun q hq => (by cases hq)⟩
  refine history_call_invariant (fun tr w => MarkSound (majorityReachedAt tr) w) h0 ?_ ?_ as
  · intro history v env c v' hI hsucc
    rw [majorityReachedAt_concat]
    exact hsucc.effect.markSound hI
  · intro history v a v' hI hidle
    rw [majorityReachedAt_concat]
    cases hidle with
    | failed => exact hI.of_same (le_refl _) Iff.rfl rfl
    | advanced seconds => exact hI.of_same (Nat.le_add_right _ _) Iff.rfl rfl
    | moved => exact hI.of_same (le_refl _) Iff.rfl rfl

/-! ## §3. The timelock. -/

/-- **The upgrade timelock holds** in every run that executes upgrades only with
the time of the majority on record. -/
theorem timelock_respected (X : Externs) (b : Address → Address → Nat) (t s : Nat)
    (as : List Action)
    (hC : ∀ tr ∈ trace (step X) (genesis b t s) as, MajorityMarked tr) :
    TimelockRespected X (trace (step X) (genesis b t s) as) := by
  intro before tr after htrace env hact hsucc
  -- cut the run at the execution
  obtain ⟨bs, cs, has, hbefore, hpre, -, -⟩ := trace_eq_append_cons (step X) htrace
  have hmem : tr ∈ trace (step X) (genesis b t s) as := by
    rw [htrace]
    exact List.mem_append_right _ List.mem_cons_self
  have hmark := markSound_run X b t s bs
  rw [← hbefore, ← hpre] at hmark
  obtain ⟨r, hr⟩ := hsucc
  obtain ⟨_, hr, _⟩ := returning_eq_ok.mp hr
  obtain ⟨pending, _, hpending, _, htime, hmajority, _⟩ := executeUpgrade_ok hr
  have hdue : UpgradeDue tr.pre pending := ⟨hpending, htime, hmajority⟩
  obtain ⟨q, hq⟩ := Option.ne_none_iff_exists'.mp (hC tr hmem env pending hact hdue)
  obtain ⟨p, hp, hpq⟩ := hmark.mark q hq
  -- with a mark on record the timelock counts from it
  have hstart : tr.pre.governance.timelockStartedAt pending = q := by
    unfold GovernanceStore.timelockStartedAt
    rw [hq]
    rfl
  rw [hstart] at htime
  exact ⟨p, hp, by omega⟩

/-- Three guardians of powers 2, 1 and 1, and a proposed upgrade. -/
def sampleProposal : List Action :=
  [.call everybody (.initializeContract ⟨1⟩ 0),
    .call everybody (.initializeGuardians [⟨⟨2⟩, 2⟩, ⟨⟨3⟩, 1⟩, ⟨⟨4⟩, 1⟩]),
    .call everybody (.initiateUpgrade 7)]

/-- The votes reach the majority, and two days pass. -/
def sampleUpgrade : List Action :=
  sampleProposal ++
    [.call everybody (.voteForUpgrade ⟨2⟩ true),
      .call everybody (.voteForUpgrade ⟨3⟩ true),
      .advance 172800 0]

theorem timelock_respected_sample :
    TimelockRespected sampleExterns (trace (step sampleExterns) sampleGenesis
      (sampleUpgrade ++ [.call everybody .executeUpgrade])) := by
  refine timelock_respected sampleExterns _ 0 0 _ ?_
  intro tr htr env p hact _
  have htrace := trace_concat (step sampleExterns) sampleGenesis sampleUpgrade
    (.call everybody .executeUpgrade)
  rcases List.mem_append.mp (htrace ▸ htr) with htr | htr
  · have hmem := act_mem_of_mem_trace (step sampleExterns) htr
    rw [hact] at hmem
    simp [sampleUpgrade, sampleProposal] at hmem
  · obtain rfl := List.mem_singleton.mp htr
    show (sampleRun sampleUpgrade).governance.pendingUpgradePassedAt ≠ none
    decide

/-- Half of the power votes for the upgrade; then guardian 4 is removed after
the removal's own timelock, which makes that half two thirds. -/
def sampleRemoval : List Action :=
  sampleProposal ++
    [.call everybody (.voteForUpgrade ⟨2⟩ true),
      .call everybody (.removeGuardian ⟨4⟩),
      .call everybody (.voteOnGuardianRemoval ⟨2⟩ true),
      .call everybody (.voteOnGuardianRemoval ⟨3⟩ true),
      .advance 172800 0,
      .call everybody .executeGuardianRemoval]

/-- **The upgrade is executed in the second it obtains its majority.** -/
theorem sampleRemoval_executes_at_once :
    ¬TimelockRespected sampleExterns (trace (step sampleExterns) sampleGenesis
      (sampleRemoval ++ [.call everybody .executeUpgrade])) := by
  intro h
  obtain ⟨p, hp, htime⟩ := h _ _ [] (trace_concat (step sampleExterns) sampleGenesis
    sampleRemoval (.call everybody .executeUpgrade)) everybody rfl ⟨_, rfl⟩
  -- the majority comes with the removal, in the second of the execution
  have hreached : majorityReachedAt (trace (step sampleExterns) sampleGenesis sampleRemoval)
      = some 172800 := by decide
  obtain rfl : 172800 = p := Option.some.inj (hreached.symm.trans hp)
  exact absurd htime (by decide)

/-! ## §4. Failed upgrades. -/

/-- What calling `execute_upgrade` in `w` on the failed proposal `p` is meant to
do: nothing is pending any more, the admin may propose any other hash, and
`p`'s hash is refused for the cool-down. -/
structure FailedUpgradeCleared (X : Externs) (env : Env) (w : World) (p : PendingUpgrade) : Prop where
  gone : (step X w (.call env .executeUpgrade)).governance.pendingUpgrade = none
  others : ∀ env' hash, hash ≠ p.wasmHash →
    ByAdmin env' (step X w (.call env .executeUpgrade)) →
      ∃ w', Succeeds X env' (.initiateUpgrade hash) (step X w (.call env .executeUpgrade)) w'
  refused : ∀ env' seconds w', seconds ≤ upgradeCooldownDuration →
    ¬Succeeds X env' (.initiateUpgrade p.wasmHash)
      (step X (step X w (.call env .executeUpgrade)) (.advance seconds 0)) w'

/-- `execute_upgrade` on a proposal without a majority leaves everything. -/
theorem executeUpgrade_of_no_majority {env : Env} {w : World} {p : PendingUpgrade}
    (hp : w.governance.pendingUpgrade = some p)
    (hmet : isMajorityMet w.governance.getGuardians p.votesFor ≠ some true) :
    step X w (.call env .executeUpgrade) = w := by
  refine step_of_not_succeeds ?_
  -- the rejection ends in `Err`, so the host keeps none of its writes
  intro w' hsucc
  obtain ⟨r, hr⟩ := hsucc
  obtain ⟨hash, hr, _⟩ := returning_eq_ok.mp hr
  exact executeUpgrade_rejects hp hmet hash hr

/-- While a proposal is pending no other is accepted. -/
theorem no_initiate_while_pending {env : Env} {w w' : World} {p : PendingUpgrade} {hash : BytesN32}
    (hp : w.governance.pendingUpgrade = some p) :
    ¬Succeeds X env (.initiateUpgrade hash) w w' := by
  intro hsucc
  obtain ⟨r, hr⟩ := hsucc
  obtain ⟨hr, _⟩ := done_eq_ok.mp hr
  obtain ⟨_, _, hidle, _⟩ := initiateUpgrade_ok.mp hr
  rw [hp] at hidle
  cases hidle

/-- **A failed upgrade is never cleared**: with a pending upgrade whose timelock
has elapsed and whose votes are short of the majority (or cannot be counted),
`execute_upgrade` changes nothing, reporting a counted vote as insufficient;
the proposal blocks every other, and the promised clean-up does not happen. -/
theorem failed_upgrade_blocks (X : Externs) (w : World) (env : Env) (p : PendingUpgrade)
    (hp : w.governance.pendingUpgrade = some p)
    (helapsed : w.governance.getTimelockDuration
      ≤ w.timestamp - w.governance.timelockStartedAt p)
    (hmet : isMajorityMet w.governance.getGuardians p.votesFor ≠ some true) :
    step X w (.call env .executeUpgrade) = w
      ∧ (isMajorityMet w.governance.getGuardians p.votesFor = some false →
          (exec X .executeUpgrade env w).1 = .error (.error .insufficientVotes))
      ∧ (∀ env' hash w', ¬Succeeds X env' (.initiateUpgrade hash) w w')
      ∧ ¬FailedUpgradeCleared X env w p := by
  have hsame : step X w (.call env .executeUpgrade) = w := executeUpgrade_of_no_majority hp hmet
  refine ⟨hsame, ?_, fun env' hash w' => no_initiate_while_pending hp, ?_⟩
  · intro hcounted
    obtain ⟨v, hv⟩ : ∃ v, executeUpgrade X env w = (.error (.error .insufficientVotes), v) :=
      executeUpgrade_insufficient hp helapsed hcounted
    simp [exec, returning, Bind.bind, Tx.bind, hv]
  · intro h
    have hgone := h.gone
    rw [hsame, hp] at hgone
    cases hgone

/-- Half of the power votes for the upgrade, and two days pass. -/
def sampleFailure : List Action :=
  sampleProposal ++ [.call everybody (.voteForUpgrade ⟨2⟩ true), .advance 172800 0]

/-- The failed upgrade of the sample run, as the theorem has it. -/
theorem failed_upgrade_blocks_sample :
    step sampleExterns (sampleRun sampleFailure) (.call everybody .executeUpgrade)
      = sampleRun sampleFailure :=
  (failed_upgrade_blocks sampleExterns (sampleRun sampleFailure) everybody
    ⟨7, 0, [⟨2⟩], []⟩ rfl (by decide) (by decide)).1

/-- **The proposal of the sample run is still pending after it failed**, and the
admin's next proposal is refused. -/
theorem sampleFailure_not_cleared :
    ¬FailedUpgradeCleared sampleExterns everybody (sampleRun sampleFailure) ⟨7, 0, [⟨2⟩], []⟩
      ∧ (exec sampleExterns .executeUpgrade everybody (sampleRun sampleFailure)).1
          = .error (.error .insufficientVotes)
      ∧ (exec sampleExterns (.initiateUpgrade 8) everybody
          (sampleRun (sampleFailure ++ [.call everybody .executeUpgrade]))).1
          = .error (.error .notAuthorized) := by
  refine ⟨?_, rfl, rfl⟩
  intro h
  have hgone := h.gone
  cases hgone

end PredictIQ.Contract
