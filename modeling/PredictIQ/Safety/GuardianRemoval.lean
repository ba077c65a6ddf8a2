/-
  PredictIQ.Safety.GuardianRemoval: does a removal need the other guardians?

  `vote_on_guardian_removal` leaves the target out of the threshold, and takes
  the target's ballot all the same: the error code for a guardian voting on
  its own removal is never returned.  A removal is decided by a majority of
  the others exactly in the runs in which no target casts such a ballot.

  The property speaks of what the calls did, so it watches the history: the
  approvals since the proposal was made, and the guardian set at the vote that
  passed it.
-/
import PredictIQ.Contract.Lifecycle
import Mathlib.Data.List.Dedup

namespace PredictIQ.Contract

open Foundation Tx

variable {X : Externs}

/-! ## §1. The watch. -/

/-- What the calls did about the pending removal. -/
structure RemovalWatch where
  /-- Who has approved the proposal. -/
  approvals : List Address := []
  /-- The guardians and the approvals at the vote that passed it. -/
  passedBy : Option (List Address × List Address) := none

/-- The watch after a vote on the removal. -/
def RemovalWatch.voted (s : RemovalWatch) (w w' : World) (voter : Address) (approve : Bool) :
    RemovalWatch :=
  let approvals := if approve then s.approvals ++ [voter] else s.approvals
  { approvals := approvals
    passedBy :=
      if w.governance.pendingGuardianRemovalPassedAt = none
          ∧ w'.governance.pendingGuardianRemovalPassedAt ≠ none then
        some (w.governance.getGuardians.map (·.address), approvals)
      else s.passedBy }

/-- Watch one step: a proposal starts afresh, a vote is noted. -/
def noteRemoval (X : Externs) (s : RemovalWatch) (t : Transition World Action) : RemovalWatch :=
  if callOk X t = true then
    match t.act with
    | .call _ (.removeGuardian _) => {}
    | .call _ (.voteOnGuardianRemoval voter approve) => s.voted t.pre t.post voter approve
    | _ => s
  else s

def removalWatch (X : Externs) (history : List (Transition World Action)) : RemovalWatch :=
  history.foldl (noteRemoval X) {}

theorem removalWatch_concat (X : Externs) (history : List (Transition World Action))
    (t : Transition World Action) :
    removalWatch X (history ++ [t]) = noteRemoval X (removalWatch X history) t := by
  simp [removalWatch]

/-! ## §2. The property. -/

/-- The guardians other than `target`, each once. -/
def othersThan (target : Address) (guardians : List Address) : List Address :=
  guardians.dedup.filter (· ≠ target)

/-- More than half of the guardians other than `target` are among `approvals`. -/
def MajorityOfOthers (target : Address) (guardians approvals : List Address) : Prop :=
  (othersThan target guardians).length
    < 2 * ((othersThan target guardians).filter (· ∈ approvals)).length

/-- Removals are decided by the others: whoever is removed was voted out by a
majority of the other guardians, and a target's own vote counts for nothing. -/
structure RemovedByOthers (X : Externs) (history : List (Transition World Action)) : Prop where
  majority : ∀ before t after env p, history = before ++ t :: after →
    t.act = .call env .executeGuardianRemoval →
    Succeeds X env .executeGuardianRemoval t.pre t.post →
    t.pre.governance.pendingGuardianRemoval = some p →
      ∃ guardians approvals, (removalWatch X before).passedBy = some (guardians, approvals)
        ∧ MajorityOfOthers p.targetGuardian guardians approvals
  uncounted : ∀ t ∈ history, ∀ env approve p,
    t.act = .call env (.voteOnGuardianRemoval p.targetGuardian approve) →
    t.pre.governance.pendingGuardianRemoval = some p → t.post.governance = t.pre.governance

/-- A vote by `voter` on the pending removal `p` passes every guard. -/
structure AcceptsRemovalVote (env : Env) (w : World) (voter : Address)
    (p : PendingGuardianRemoval) : Prop where
  auth : env.authorized voter = true
  member : isGuardian w.governance.getGuardians voter = true
  pending : w.governance.pendingGuardianRemoval = some p
  inTime : w.timestamp - p.initiatedAt ≤ guardianRemovalVoteWindow
  once : voter ∉ p.votesFor ∧ voter ∉ p.votesAgainst
  threshold : ∃ needed, removalVotesNeeded w.governance.getGuardians = some needed

/-- No target of the pending removal casts a ballot that the guards let through. -/
def TargetAbstains (t : Transition World Action) : Prop :=
  ∀ env approve p, t.act = .call env (.voteOnGuardianRemoval p.targetGuardian approve) →
    ¬AcceptsRemovalVote env t.pre p.targetGuardian p

/-! ## §3. Counting. -/

theorem isGuardian_iff {guardians : List Guardian} {a : Address} :
    isGuardian guardians a = true ↔ a ∈ guardians.map (·.address) := by
  simp [isGuardian]

/-- The target is one of the guardians the threshold is computed from. -/
theorem length_othersThan_lt {guardians : List Guardian} {target : Address}
    (h : isGuardian guardians target = true) :
    (othersThan target (guardians.map (·.address))).length < guardians.length := by
  have hmem : target ∈ (guardians.map (·.address)).dedup :=
    List.mem_dedup.mpr (isGuardian_iff.mp h)
  have hlt : (othersThan target (guardians.map (·.address))).length
      < (guardians.map (·.address)).dedup.length := by
    unfold othersThan
    refine List.length_filter_lt_length_iff_exists.mpr ⟨target, hmem, ?_⟩
    simp
  have hdedup := (List.dedup_sublist (guardians.map (·.address))).length_le
  rw [List.length_map] at hdedup
  omega

/-- Distinct voters among the others are found among them. -/
theorem length_le_othersThan {guardians : List Guardian} {target : Address} {votes : List Address}
    (hnodup : votes.Nodup)
    (hvotes : ∀ a ∈ votes, a ≠ target ∧ isGuardian guardians a = true) :
    votes.length
      ≤ ((othersThan target (guardians.map (·.address))).filter (· ∈ votes)).length := by
  refine (List.subperm_of_subset hnodup ?_).length_le
  intro a ha
  obtain ⟨hne, hmem⟩ := hvotes a ha
  unfold othersThan
  rw [List.mem_filter, List.mem_filter, List.mem_dedup]
  exact ⟨⟨isGuardian_iff.mp hmem, by simpa using hne⟩, by simpa using ha⟩

/-- **The threshold is a majority of the others** when only others have voted. -/
theorem majority_of_threshold {guardians : List Guardian} {target : Address}
    {votes : List Address} {needed : Nat} (hneeded : removalVotesNeeded guardians = some needed)
    (htarget : isGuardian guardians target = true) (hnodup : votes.Nodup)
    (hvotes : ∀ a ∈ votes, a ≠ target ∧ isGuardian guardians a = true)
    (hle : needed ≤ votes.length) :
    MajorityOfOthers target (guardians.map (·.address)) votes := by
  have hothers := length_othersThan_lt htarget
  have hcount := length_le_othersThan hnodup hvotes
  -- needed = (n - 1) * 51 / 100 + 1, more than half of n - 1
  have hvalue : needed = (guardians.length - 1) * 51 / 100 + 1 := by
    simp only [removalVotesNeeded, mulU32, Option.bind_eq_bind, Option.bind_eq_some_iff,
      Option.ite_none_right_eq_some, Option.some.injEq] at hneeded
    obtain ⟨_, ⟨_, rfl⟩, rfl⟩ := hneeded
    rfl
  unfold MajorityOfOthers
  omega

/-! ## §4. The ballots of the pending removal. -/

/-- What ties the pending removal to the watch: its ballots are the approvals,
cast by other guardians, and its mark was set by a majority of them. -/
structure RemovalSound (s : RemovalWatch) (g : GovernanceStore) : Prop where
  member : ∀ p, g.pendingGuardianRemoval = some p →
    isGuardian g.getGuardians p.targetGuardian = true
  ballots : ∀ p, g.pendingGuardianRemoval = some p →
    p.votesFor = s.approvals ∧ p.votesFor.Nodup
      ∧ ∀ a ∈ p.votesFor, a ≠ p.targetGuardian ∧ isGuardian g.getGuardians a = true
  passed : ∀ p, g.pendingGuardianRemoval = some p → g.pendingGuardianRemovalPassedAt ≠ none →
    ∃ guardians approvals, s.passedBy = some (guardians, approvals)
      ∧ MajorityOfOthers p.targetGuardian guardians approvals

/-- Without a proposal there is nothing to tie. -/
theorem RemovalSound.of_idle {s : RemovalWatch} {g : GovernanceStore}
    (h : g.pendingGuardianRemoval = none) : RemovalSound s g := by
  constructor <;> intro p hp <;> rw [h] at hp <;> cases hp

/-- The proposal stays while the guardian set grows. -/
theorem RemovalSound.of_grown {s : RemovalWatch} {g g' : GovernanceStore} (h : RemovalSound s g)
    (hp : g'.pendingGuardianRemoval = g.pendingGuardianRemoval)
    (hmark : g'.pendingGuardianRemovalPassedAt = g.pendingGuardianRemovalPassedAt)
    (hgrown : ∀ a, isGuardian g.getGuardians a = true → isGuardian g'.getGuardians a = true) :
    RemovalSound s g' := by
  obtain ⟨hmember, hballots, hpassed⟩ := h
  refine ⟨?_, ?_, ?_⟩
  · rw [hp]
    intro p hpend
    exact hgrown _ (hmember p hpend)
  · rw [hp]
    intro p hpend
    obtain ⟨hfor, hnodup, hvotes⟩ := hballots p hpend
    exact ⟨hfor, hnodup, fun a ha => ⟨(hvotes a ha).1, hgrown a (hvotes a ha).2⟩⟩
  · rw [hp, hmark]
    exact hpassed

/-- A guardian appended to the list is one more. -/
theorem isGuardian_append {guardians : List Guardian} {g : Guardian} {a : Address}
    (h : isGuardian guardians a = true) : isGuardian (guardians ++ [g]) a = true := by
  unfold isGuardian at h ⊢
  rw [List.any_append, h]
  rfl

/-- Calls other than proposals and votes keep the tie. -/
theorem Effect.removalSound {env : Env} {w w' : World} {c : Call} {s : RemovalWatch}
    (heff : Effect X env w c w') (h : RemovalSound s w.governance)
    (hpropose : ∀ a, c ≠ .removeGuardian a)
    (hvote : ∀ voter approve, c ≠ .voteOnGuardianRemoval voter approve) :
    RemovalSound s w'.governance := by
  rcases heff.governance with hkept | hstep
  · rw [hkept]
    exact h
  · generalize w'.governance = g at hstep ⊢
    cases hstep with
    | initGuardians gs byAdmin first =>
        -- with a proposal pending there is a guardian set already
        refine ⟨?_, ?_, ?_⟩ <;> intro p hp
        all_goals
          have hmem := h.member p hp
          simp [GovernanceStore.getGuardians, first, isGuardian] at hmem
    | add g byAdmin notAdmin fresh => exact h.of_grown rfl rfl fun a ha => isGuardian_append ha
    | proposeRemoval a => exact absurd rfl (hpropose a)
    | voteRemoval voter approve => exact absurd rfl (hvote voter approve)
    | executeRemoval => exact .of_idle rfl
    | _ => exact h.of_grown rfl rfl fun a ha => ha

/-- A ballot ends the removal, or is added to it and marks it at the threshold. -/
theorem voteOnGuardianRemoval_cases {env : Env} {w w' : World} {voter : Address} {approve : Bool}
    {p : PendingGuardianRemoval} {needed : Nat}
    (hok : voteOnGuardianRemoval voter approve env w = (.ok (), w'))
    (hp : w.governance.pendingGuardianRemoval = some p)
    (hneeded : removalVotesNeeded w.governance.getGuardians = some needed) :
    w'.governance.pendingGuardianRemoval = none
      ∨ w'.governance.pendingGuardianRemoval = some (p.withVote voter approve)
        ∧ w'.governance.pendingGuardianRemovalPassedAt
            = (if needed ≤ (p.withVote voter approve).votesFor.length
                ∧ w.governance.pendingGuardianRemovalPassedAt = none then some w.timestamp
              else w.governance.pendingGuardianRemovalPassedAt)
        ∧ w'.governance.getGuardians = w.governance.getGuardians := by
  obtain ⟨q, n, _, _, hq, _, _, _, hn, hpost⟩ := voteOnGuardianRemoval_ok hok
  obtain rfl := Option.some.inj (hp.symm.trans hq)
  obtain rfl := Option.some.inj (hneeded.symm.trans hn)
  rw [hpost]
  by_cases hclosed : needed ≤ (p.withVote voter approve).votesAgainst.length
  · exact .inl (if_pos hclosed)
  · exact .inr ⟨if_neg hclosed, if_neg hclosed, rfl⟩

theorem withVote_targetGuardian (p : PendingGuardianRemoval) (voter : Address) (approve : Bool) :
    (p.withVote voter approve).targetGuardian = p.targetGuardian := by
  cases approve <;> rfl

/-- One more ballot leaves the approvals distinct, and of whom they were. -/
theorem ballots_withVote {p : PendingGuardianRemoval} {voter : Address} {P : Address → Prop}
    (approve : Bool) (hnodup : p.votesFor.Nodup) (hvotes : ∀ a ∈ p.votesFor, P a)
    (hnew : voter ∉ p.votesFor) (hvoter : P voter) :
    (p.withVote voter approve).votesFor.Nodup
      ∧ ∀ a ∈ (p.withVote voter approve).votesFor, P a := by
  cases approve with
  | false => exact ⟨hnodup, hvotes⟩
  | true =>
      refine ⟨?_, forall_mem_concat hvotes hvoter⟩
      show (p.votesFor ++ [voter]).Nodup
      rw [← List.concat_eq_append]
      exact hnodup.concat hnew

/-- **A ballot of another guardian keeps the tie.** -/
theorem RemovalSound.vote {env : Env} {w w' : World} {s : RemovalWatch} {voter : Address}
    {approve : Bool} (h : RemovalSound s w.governance)
    (hok : voteOnGuardianRemoval voter approve env w = (.ok (), w'))
    (hother : ∀ p, w.governance.pendingGuardianRemoval = some p → voter ≠ p.targetGuardian) :
    RemovalSound (s.voted w w' voter approve) w'.governance := by
  obtain ⟨p, needed, _, hmem, hp, _, ⟨hfor, _, hneeded, _⟩⟩ := voteOnGuardianRemoval_ok hok
  obtain ⟨happ, hnodup, hvotes⟩ := h.ballots p hp
  rcases voteOnGuardianRemoval_cases hok hp hneeded with hgone | ⟨hpend, hmark, hset⟩
  · -- voted down: the proposal is gone
    exact .of_idle hgone
  · have hballot : (p.withVote voter approve).votesFor = (s.voted w w' voter approve).approvals := by
      show _ = if approve then s.approvals ++ [voter] else s.approvals
      rw [← happ]
      cases approve <;> rfl
    -- the ballots are still distinct and from others
    have hballots := ballots_withVote approve hnodup hvotes hfor ⟨hother p hp, hmem⟩
    refine ⟨?_, ?_, ?_⟩
    · intro q hq
      obtain rfl := Option.some.inj (hpend.symm.trans hq)
      rw [withVote_targetGuardian, hset]
      exact h.member p hp
    · intro q hq
      obtain rfl := Option.some.inj (hpend.symm.trans hq)
      rw [withVote_targetGuardian, hset]
      exact ⟨hballot, hballots.1, hballots.2⟩
    · intro q hq hmarked
      obtain rfl := Option.some.inj (hpend.symm.trans hq)
      rw [withVote_targetGuardian]
      by_cases hold : w.governance.pendingGuardianRemovalPassedAt = none
      · -- this vote set the mark, so it met the threshold
        have hmet : needed ≤ (p.withVote voter approve).votesFor.length := by
          by_contra hshort
          rw [hmark, if_neg (fun h => hshort h.1)] at hmarked
          exact hmarked hold
        refine ⟨w.governance.getGuardians.map (·.address), (p.withVote voter approve).votesFor,
          ?_, ?_⟩
        · rw [hballot]
          exact if_pos ⟨hold, hmarked⟩
        · exact majority_of_threshold hneeded (h.member p hp) hballots.1 hballots.2 hmet
      · -- an older mark, and the majority behind it
        obtain ⟨guardians, approvals, hpassed, hmaj⟩ := h.passed p hp hold
        refine ⟨guardians, approvals, ?_, hmaj⟩
        rw [← hpassed]
        exact if_neg fun h => hold h.1

/-! ## §5. Runs. -/

/-- Other steps are not noted. -/
theorem noteRemoval_of_other {t : Transition World Action} {s : RemovalWatch}
    (h : ∀ env, (∀ a, t.act ≠ .call env (.removeGuardian a))
      ∧ ∀ voter approve, t.act ≠ .call env (.voteOnGuardianRemoval voter approve)) :
    noteRemoval X s t = s := by
  unfold noteRemoval
  split
  · split
    · rename_i env a hact
      exact absurd hact ((h env).1 a)
    · rename_i env voter approve hact
      exact absurd hact ((h env).2 voter approve)
    · rfl
  · rfl

/-- A vote that returned `Ok` had passed the guards. -/
theorem AcceptsRemovalVote.of_ok {env : Env} {w w' : World} {voter : Address} {approve : Bool}
    {p : PendingGuardianRemoval} (hp : w.governance.pendingGuardianRemoval = some p)
    (h : voteOnGuardianRemoval voter approve env w = (.ok (), w')) :
    AcceptsRemovalVote env w voter p := by
  obtain ⟨q, needed, hauth, hmem, hq, htime, hfor, hagainst, hneeded, _⟩ :=
    voteOnGuardianRemoval_ok h
  obtain rfl := Option.some.inj (hp.symm.trans hq)
  exact ⟨hauth, hmem, hp, htime, ⟨hfor, hagainst⟩, needed, hneeded⟩

/-- A new proposal has no ballots and no mark. -/
theorem RemovalSound.of_proposed {g : GovernanceStore} {a : Address} (t : Nat)
    (h : isGuardian g.getGuardians a = true) :
    RemovalSound {} { g with
      pendingGuardianRemoval := some
        { targetGuardian := a, initiatedAt := t, votesFor := [], votesAgainst := [] }
      pendingGuardianRemovalPassedAt := none } := by
  refine ⟨?_, ?_, ?_⟩
  · intro p hp
    obtain rfl := Option.some.inj hp
    exact h
  · intro p hp
    obtain rfl := Option.some.inj hp
    exact ⟨rfl, List.nodup_nil, fun a ha => absurd ha List.not_mem_nil⟩
  · intro p _ hmark
    exact absurd rfl hmark

/-- One step of a run whose targets abstain. -/
theorem removalSound_step {w : World} {a : Action} {s : RemovalWatch}
    (h : RemovalSound s w.governance) (hC : TargetAbstains ⟨w, a, step X w a⟩) :
    RemovalSound (noteRemoval X s ⟨w, a, step X w a⟩) (step X w a).governance := by
  cases a with
  | advance seconds ledgers =>
      rw [noteRemoval_of_other fun env => ⟨fun _ h => (by cases h), fun _ _ h => (by cases h)⟩]
      exact h
  | external balances =>
      rw [noteRemoval_of_other fun env => ⟨fun _ h => (by cases h), fun _ _ h => (by cases h)⟩]
      exact h
  | call env c =>
      by_cases hok : callOk X ⟨w, .call env c, step X w (.call env c)⟩ = true
      · have hsucc := callOk_iff.mp hok
        by_cases hpropose : ∃ a, c = .removeGuardian a
        · obtain ⟨a, rfl⟩ := hpropose
          obtain ⟨r, hr⟩ := hsucc
          obtain ⟨_, hmem, hpost⟩ := removeGuardian_ok.mp (done_eq_ok.mp hr).1
          have hnote : noteRemoval X s ⟨w, .call env (.removeGuardian a), _⟩ = {} := if_pos hok
          rw [hnote, hpost]
          exact .of_proposed _ hmem
        · by_cases hvote : ∃ voter approve, c = .voteOnGuardianRemoval voter approve
          · obtain ⟨voter, approve, rfl⟩ := hvote
            obtain ⟨r, hr⟩ := hsucc
            have hvoted := (done_eq_ok.mp hr).1
            have hnote : noteRemoval X s ⟨w, .call env (.voteOnGuardianRemoval voter approve), _⟩
                = s.voted w (step X w (.call env (.voteOnGuardianRemoval voter approve))) voter
                    approve := if_pos hok
            rw [hnote]
            refine h.vote hvoted ?_
            intro p hp htarget
            subst htarget
            exact hC env approve p rfl (.of_ok hp hvoted)
          · have hpropose' : ∀ a, c ≠ .removeGuardian a := fun a hc => hpropose ⟨a, hc⟩
            have hvote' : ∀ voter approve, c ≠ .voteOnGuardianRemoval voter approve :=
              fun voter approve hc => hvote ⟨voter, approve, hc⟩
            rw [noteRemoval_of_other]
            · exact hsucc.effect.removalSound h hpropose' hvote'
            · intro env'
              refine ⟨?_, ?_⟩
              · intro a hact
                exact hpropose' a (Action.call.inj hact).2
              · intro voter approve hact
                exact hvote' voter approve (Action.call.inj hact).2
      · have hnote : noteRemoval X s ⟨w, .call env c, step X w (.call env c)⟩ = s := if_neg hok
        rw [hnote, step_of_not_callOk hok]
        exact h

/-- The tie holds after every history whose targets abstain. -/
theorem removalSound_run (X : Externs) (b : Address → Address → Nat) (t s : Nat)
    (as : List Action) (hC : ∀ tr ∈ trace (step X) (genesis b t s) as, TargetAbstains tr) :
    RemovalSound (removalWatch X (trace (step X) (genesis b t s) as))
      (run (step X) (genesis b t s) as).governance := by
  refine history_invariant (step X)
    (fun tr w => RemovalSound (removalWatch X tr) w.governance) TargetAbstains (.of_idle rfl) ?_ as hC
  intro as a h hc
  rw [removalWatch_concat]
  exact removalSound_step h hc

/-- A vote that passes the guards is taken. -/
theorem AcceptsRemovalVote.returns {env : Env} {w : World} {voter : Address}
    {p : PendingGuardianRemoval} (h : AcceptsRemovalVote env w voter p) (approve : Bool) :
    ∃ w', voteOnGuardianRemoval voter approve env w = (.ok (), w') := by
  obtain ⟨hauth, hmem, hp, htime, ⟨hfor, hagainst⟩, needed, hneeded⟩ := h
  have hopen : ¬guardianRemovalVoteWindow < w.timestamp - p.initiatedAt := not_lt.mpr htime
  -- whether this ballot passes or closes the proposal
  by_cases hmark : needed ≤ (p.withVote voter approve).votesFor.length
      ∧ w.governance.pendingGuardianRemovalPassedAt = none <;>
    by_cases hclose : needed ≤ (p.withVote voter approve).votesAgainst.length <;>
      simp [voteOnGuardianRemoval, requireAuth, failIf, orErr, orTrap, rejectIf, okOr, Tx.bind,
        Bind.bind, Tx.pure, context, reads, whenever, hauth, hmem, hp, hopen, hfor, hagainst,
        hneeded, closeRemovalBallot, clearGuardianRemoval, update, hmark, hclose]

/-- A vote that is taken changes the proposal, or drops it. -/
theorem governance_ne_of_vote {env : Env} {w w' : World} {voter : Address} {approve : Bool}
    (h : voteOnGuardianRemoval voter approve env w = (.ok (), w')) :
    w'.governance ≠ w.governance := by
  obtain ⟨p, needed, _, _, hp, _, hfor, hagainst, _, hpost⟩ := voteOnGuardianRemoval_ok h
  intro hsame
  have hpend : (if needed ≤ (p.withVote voter approve).votesAgainst.length then none
      else some (p.withVote voter approve)) = some p := by
    rw [← hp, ← hsame, hpost]
  split at hpend
  · cases hpend
  · -- the ballot now holds a voter it did not hold before
    have hballot := Option.some.inj hpend
    cases approve with
    | true =>
        refine hfor ?_
        rw [← hballot]
        exact List.mem_append_right _ List.mem_cons_self
    | false =>
        refine hagainst ?_
        rw [← hballot]
        exact List.mem_append_right _ List.mem_cons_self

/-- **Guardian removal is decided by the other guardians** exactly in the runs in
which no target casts a ballot that the guards let through. -/
theorem removal_by_others_iff (X : Externs) (b : Address → Address → Nat) (t s : Nat)
    (as : List Action) :
    RemovedByOthers X (trace (step X) (genesis b t s) as)
      ↔ ∀ tr ∈ trace (step X) (genesis b t s) as, TargetAbstains tr := by
  constructor
  · intro h tr htr env approve p hact haccepts
    -- the vote goes through, and is counted
    obtain ⟨_, _, _, _, hpost⟩ := mem_trace (step X) htr
    obtain ⟨w', hok⟩ := haccepts.returns approve
    have hsucc : Succeeds X env (.voteOnGuardianRemoval p.targetGuardian approve) tr.pre w' :=
      ⟨.unit, done_eq_ok.mpr ⟨hok, rfl⟩⟩
    rw [hact, step_of_succeeds hsucc] at hpost
    have hsame := h.uncounted tr htr env approve p hact haccepts.pending
    rw [hpost] at hsame
    exact governance_ne_of_vote hok hsame
  · intro h
    refine ⟨?_, ?_⟩
    · intro before tr after env p htrace hact hsucc hp
      obtain ⟨bs, cs, has, hbefore, hpre, _, _⟩ := trace_eq_append_cons (step X) htrace
      have hC : ∀ u ∈ trace (step X) (genesis b t s) bs, TargetAbstains u := by
        intro u hu
        refine h u ?_
        rw [htrace, hbefore]
        exact List.mem_append_left _ hu
      have hsound := removalSound_run X b t s bs hC
      rw [← hbefore, ← hpre] at hsound
      -- an execution needs the mark
      obtain ⟨r, hr⟩ := hsucc
      obtain ⟨q, mark, _, _, hmark, _⟩ := executeGuardianRemoval_ok (done_eq_ok.mp hr).1
      exact hsound.passed p hp (by rw [hmark]; exact Option.some_ne_none mark)
    · intro tr htr env approve p hact hp
      obtain ⟨_, _, _, _, hpost⟩ := mem_trace (step X) htr
      have hfails : step X tr.pre (.call env (.voteOnGuardianRemoval p.targetGuardian approve))
          = tr.pre := by
        refine step_of_not_succeeds fun w' hsucc => ?_
        obtain ⟨r, hr⟩ := hsucc
        exact h tr htr env approve p hact (.of_ok hp (done_eq_ok.mp hr).1)
      rw [hpost, hact, hfails]

/-- Of the guardians 2, 3 and 4, guardian 4 is to be removed, and it and
guardian 2 approve. -/
def sampleOwnVote : List Action :=
  [.call everybody (.initializeContract ⟨1⟩ 0),
    .call everybody (.initializeGuardians [⟨⟨2⟩, 1⟩, ⟨⟨3⟩, 1⟩, ⟨⟨4⟩, 1⟩]),
    .call everybody (.removeGuardian ⟨4⟩),
    .call everybody (.voteOnGuardianRemoval ⟨4⟩ true),
    .call everybody (.voteOnGuardianRemoval ⟨2⟩ true),
    .advance 172800 0]

/-- **Guardian 4 is removed by one of the two others**, its own vote making the
threshold. -/
theorem sampleOwnVote_counts :
    ¬RemovedByOthers sampleExterns (trace (step sampleExterns) sampleGenesis
        (sampleOwnVote ++ [.call everybody .executeGuardianRemoval]))
      ∧ (sampleRun (sampleOwnVote ++ [.call everybody .executeGuardianRemoval])
          ).governance.getGuardians = [⟨⟨2⟩, 1⟩, ⟨⟨3⟩, 1⟩] := by
  refine ⟨?_, rfl⟩
  intro h
  obtain ⟨guardians, approvals, hpassed, hmaj⟩ := h.majority _ _ []
    everybody ⟨⟨4⟩, 0, [⟨4⟩, ⟨2⟩], []⟩
    (trace_concat (step sampleExterns) sampleGenesis sampleOwnVote
      (.call everybody .executeGuardianRemoval)) rfl ⟨_, rfl⟩ rfl
  have hwatch : (removalWatch sampleExterns (trace (step sampleExterns) sampleGenesis
      sampleOwnVote)).passedBy = some ([⟨2⟩, ⟨3⟩, ⟨4⟩], [⟨4⟩, ⟨2⟩]) := by decide
  obtain ⟨rfl, rfl⟩ := Prod.mk.inj (Option.some.inj (hwatch.symm.trans hpassed))
  -- of the others, 2 and 3, one has approved
  exact absurd hmaj (by decide : ¬2 < 2 * 1)

end PredictIQ.Contract
