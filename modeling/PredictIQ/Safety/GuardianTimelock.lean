/-
  PredictIQ.Safety.GuardianTimelock: the timelock of a guardian removal.

  Successive proposals share one mark, `PendingGuardianRemovalPassedAt`.  It
  is written by the vote that brings the approvals to the threshold and
  dropped with the proposal it belongs to, by a new proposal, by a majority
  against and by the execution, so that the timelock of an execution counts
  from a vote on the very proposal that it carries out.
-/
import PredictIQ.Safety.GuardianRemoval

namespace PredictIQ.Contract

open Foundation Tx

variable {X : Externs}

/-! ## §1. The property. -/

/-- The step proposes the removal that `p` is. -/
def ProposesRemoval (X : Externs) (p : PendingGuardianRemoval) (t : Transition World Action) :
    Prop :=
  ∃ env, t.act = .call env (.removeGuardian p.targetGuardian) ∧ callOk X t = true
    ∧ p.initiatedAt = t.pre.timestamp

/-- The step leaves a proposal pending, and it is no new one. -/
structure KeepsProposal (X : Externs) (t : Transition World Action) : Prop where
  pending : t.post.governance.pendingGuardianRemoval ≠ none
  notNew : ∀ env a, t.act = .call env (.removeGuardian a) → callOk X t = false

/-- `p` was proposed in `history`, and is the proposal of the steps `since`. -/
def PendingSince (X : Externs) (history : List (Transition World Action))
    (p : PendingGuardianRemoval) (since : List (Transition World Action)) : Prop :=
  ∃ earlier m, history = earlier ++ m :: since ∧ ProposesRemoval X p m
    ∧ ∀ u ∈ since, KeepsProposal X u

/-- The approvals of the pending removal are short of the threshold. -/
def ShortOfVotes (w : World) : Prop :=
  ∀ p needed, w.governance.pendingGuardianRemoval = some p →
    removalVotesNeeded w.governance.getGuardians = some needed → p.votesFor.length < needed

/-- A vote for the removal after which the approvals are at the threshold. -/
def PassingVote (X : Externs) (t : Transition World Action) : Prop :=
  ∃ env voter p needed, t.act = .call env (.voteOnGuardianRemoval voter true)
    ∧ callOk X t = true ∧ t.post.governance.pendingGuardianRemoval = some p
    ∧ removalVotesNeeded t.pre.governance.getGuardians = some needed
    ∧ needed ≤ p.votesFor.length

/-- What is known of a removal that `x` carries out after `before`: it is the
pending one, it takes out its target and nobody else, and the vote `v` that
first brought its approvals to the threshold is the timelock old. -/
structure RemovalDue (X : Externs) (before : List (Transition World Action))
    (x : Transition World Action) (p : PendingGuardianRemoval) : Prop where
  pending : x.pre.governance.pendingGuardianRemoval = some p
  removes : x.post.governance.getGuardians
    = x.pre.governance.getGuardians.filter fun g => g.address ≠ p.targetGuardian
  cleared : x.post.governance.pendingGuardianRemoval = none
    ∧ x.post.governance.pendingGuardianRemovalPassedAt = none
  timelock : ∃ first v later, PendingSince X before p (first ++ v :: later)
    ∧ (∀ u ∈ first, ShortOfVotes u.post) ∧ PassingVote X v
    ∧ v.pre.timestamp + max timelockMinSeconds x.pre.governance.getTimelockDuration
        ≤ x.pre.timestamp

/-- Every removal that is carried out was due. -/
def RemovalsAreDue (X : Externs) (history : List (Transition World Action)) : Prop :=
  ∀ before x after env, history = before ++ x :: after →
    x.act = .call env .executeGuardianRemoval →
    Succeeds X env .executeGuardianRemoval x.pre x.post → ∃ p, RemovalDue X before x p

/-! ## §2. The mark belongs to the pending proposal. -/

/-- What ties the mark to the history: without one the votes have been short
since the proposal, and a mark is the time of the vote that ended this. -/
structure MarkFollows (X : Externs) (history : List (Transition World Action)) (w : World) :
    Prop where
  unmarked : ∀ p, w.governance.pendingGuardianRemoval = some p →
    w.governance.pendingGuardianRemovalPassedAt = none →
      ShortOfVotes w ∧ ∃ since, PendingSince X history p since ∧ ∀ u ∈ since, ShortOfVotes u.post
  marked : ∀ p t, w.governance.pendingGuardianRemoval = some p →
    w.governance.pendingGuardianRemovalPassedAt = some t →
      ∃ first v later, PendingSince X history p (first ++ v :: later)
        ∧ (∀ u ∈ first, ShortOfVotes u.post) ∧ PassingVote X v ∧ v.pre.timestamp = t

/-- Without a proposal there is nothing to tie. -/
theorem MarkFollows.of_idle {history : List (Transition World Action)} {w : World}
    (h : w.governance.pendingGuardianRemoval = none) : MarkFollows X history w := by
  constructor <;> intro p <;> simp [h]

/-- One more step of the same proposal, whose ballots may have grown. -/
theorem PendingSince.snoc {history since : List (Transition World Action)}
    {p q : PendingGuardianRemoval} {t : Transition World Action}
    (h : PendingSince X history p since) (hkeeps : KeepsProposal X t)
    (htarget : q.targetGuardian = p.targetGuardian) (htime : q.initiatedAt = p.initiatedAt) :
    PendingSince X (history ++ [t]) q (since ++ [t]) := by
  obtain ⟨earlier, m, rfl, ⟨env, hact, hok, hinit⟩, hall⟩ := h
  refine ⟨earlier, m, ?_, ⟨env, ?_, hok, ?_⟩, forall_mem_concat hall hkeeps⟩
  · rw [List.append_assoc, List.cons_append]
  · rw [hact, htarget]
  · rw [htime, hinit]

/-- More guardians need no fewer votes. -/
theorem removalVotesNeeded_append {gs extra : List Guardian} {needed : Nat}
    (h : removalVotesNeeded (gs ++ extra) = some needed) :
    ∃ n, removalVotesNeeded gs = some n ∧ n ≤ needed := by
  simp only [removalVotesNeeded, mulU32, Option.bind_eq_bind, Option.bind_eq_some_iff,
    Option.ite_none_right_eq_some, Option.some.injEq, List.length_append] at h ⊢
  obtain ⟨_, ⟨hfits, rfl⟩, rfl⟩ := h
  have hle : (gs.length - 1) * majorityThresholdPercent
      ≤ (gs.length + extra.length - 1) * majorityThresholdPercent :=
    Nat.mul_le_mul_right _ (by omega)
  refine ⟨_, ⟨_, ⟨lt_of_le_of_lt hle hfits, rfl⟩, rfl⟩, ?_⟩
  omega

theorem ShortOfVotes.of_grown {w w' : World} {extra : List Guardian} (h : ShortOfVotes w)
    (hp : w'.governance.pendingGuardianRemoval = w.governance.pendingGuardianRemoval)
    (hgrown : w'.governance.getGuardians = w.governance.getGuardians ++ extra) :
    ShortOfVotes w' := by
  intro p needed hpend hneeded
  rw [hgrown] at hneeded
  rw [hp] at hpend
  obtain ⟨n, hn, hle⟩ := removalVotesNeeded_append hneeded
  exact lt_of_lt_of_le (h p n hpend hn) hle

/-- A step that leaves proposal and mark alone while the guardian set grows. -/
theorem MarkFollows.of_grown {history : List (Transition World Action)} {w w' : World} {a : Action}
    {extra : List Guardian} (h : MarkFollows X history w)
    (hp : w'.governance.pendingGuardianRemoval = w.governance.pendingGuardianRemoval)
    (hmark : w'.governance.pendingGuardianRemovalPassedAt
      = w.governance.pendingGuardianRemovalPassedAt)
    (hgrown : w'.governance.getGuardians = w.governance.getGuardians ++ extra)
    (hnew : ∀ env b, a = .call env (.removeGuardian b) → callOk X ⟨w, a, w'⟩ = false) :
    MarkFollows X (history ++ [⟨w, a, w'⟩]) w' := by
  have hkeeps : ∀ p, w'.governance.pendingGuardianRemoval = some p →
      KeepsProposal X ⟨w, a, w'⟩ := fun p hpend => ⟨by simp [hpend], hnew⟩
  refine ⟨?_, ?_⟩
  · intro p hpend hnone
    obtain ⟨hshort, since, hsince, hall⟩ := h.unmarked p (hp ▸ hpend) (hmark ▸ hnone)
    have hshort' := hshort.of_grown hp hgrown
    exact ⟨hshort', since ++ [_], hsince.snoc (hkeeps p hpend) rfl rfl, forall_mem_concat hall hshort'⟩
  · intro p t hpend hsome
    obtain ⟨first, v, later, hsince, hall, hvote, htime⟩ :=
      h.marked p t (hp ▸ hpend) (hmark ▸ hsome)
    refine ⟨first, v, later ++ [⟨w, a, w'⟩], ?_, hall, hvote, htime⟩
    have hsnoc := hsince.snoc (hkeeps p hpend) (q := p) rfl rfl
    rwa [List.append_assoc, List.cons_append] at hsnoc

/-- **A ballot keeps the tie**: the mark is written by the vote that first
brings the approvals to the threshold, and by no other. -/
theorem MarkFollows.vote {history : List (Transition World Action)} {w w' : World} {env : Env}
    {voter : Address} {approve : Bool} (h : MarkFollows X history w)
    (hvoted : voteOnGuardianRemoval voter approve env w = (.ok (), w'))
    (hok : callOk X ⟨w, .call env (.voteOnGuardianRemoval voter approve), w'⟩ = true) :
    MarkFollows X (history ++ [⟨w, .call env (.voteOnGuardianRemoval voter approve), w'⟩]) w' := by
  obtain ⟨p, needed, _, _, hp, _, _, _, hneeded, _⟩ := voteOnGuardianRemoval_ok hvoted
  rcases voteOnGuardianRemoval_cases hvoted hp hneeded with hgone | ⟨hpend, hmark, hset⟩
  · -- voted down: the proposal is gone
    exact .of_idle hgone
  have htarget := withVote_targetGuardian p voter approve
  have hinit : (p.withVote voter approve).initiatedAt = p.initiatedAt := by cases approve <;> rfl
  have hkeeps : KeepsProposal X ⟨w, .call env (.voteOnGuardianRemoval voter approve), w'⟩ :=
    ⟨by simp [hpend], fun _ _ hact => by cases hact⟩
  by_cases hold : w.governance.pendingGuardianRemovalPassedAt = none
  · obtain ⟨hshort, since, hsince, hall⟩ := h.unmarked p hp hold
    by_cases hmet : needed ≤ (p.withVote voter approve).votesFor.length
    · -- the threshold is met by this very ballot, an approval
      rw [if_pos ⟨hmet, hold⟩] at hmark
      obtain rfl : approve = true := by
        cases approve with
        | true => rfl
        | false => exact absurd (hshort p needed hp hneeded) (not_lt.mpr hmet)
      refine ⟨fun q _ hnone => (by rw [hmark] at hnone; cases hnone), ?_⟩
      intro q t hq ht
      obtain rfl := Option.some.inj (hpend.symm.trans hq)
      obtain rfl := Option.some.inj (hmark.symm.trans ht)
      exact ⟨since, _, [], hsince.snoc hkeeps htarget hinit, hall,
        ⟨env, voter, _, needed, rfl, hok, hpend, hneeded, hmet⟩, rfl⟩
    · rw [if_neg fun hc => hmet hc.1] at hmark
      have hshort' : ShortOfVotes w' := by
        intro q n hq hn
        obtain rfl := Option.some.inj (hpend.symm.trans hq)
        rw [hset, hneeded] at hn
        exact Option.some.inj hn ▸ not_le.mp hmet
      refine ⟨?_, fun q t _ ht => (by rw [hmark, hold] at ht; cases ht)⟩
      intro q hq _
      obtain rfl := Option.some.inj (hpend.symm.trans hq)
      exact ⟨hshort', since ++ [_], hsince.snoc hkeeps htarget hinit, forall_mem_concat hall hshort'⟩
  · -- an older mark stays, and so does the vote it is the time of
    rw [if_neg fun hc => hold hc.2] at hmark
    refine ⟨fun q _ hnone => absurd (hmark.symm.trans hnone) hold, ?_⟩
    intro q t hq ht
    obtain rfl := Option.some.inj (hpend.symm.trans hq)
    obtain ⟨first, v, later, hsince, hall, hvote, htime⟩ := h.marked p t hp (hmark ▸ ht)
    refine ⟨first, v, later ++ [⟨w, .call env (.voteOnGuardianRemoval voter approve), w'⟩], ?_,
      hall, hvote, htime⟩
    have hsnoc := hsince.snoc hkeeps htarget hinit
    rwa [List.append_assoc, List.cons_append] at hsnoc

/-- A new proposal starts without a mark. -/
theorem MarkFollows.propose {history : List (Transition World Action)} {w w' : World} {env : Env}
    {a : Address} (hproposed : removeGuardian a env w = (.ok (), w'))
    (hok : callOk X ⟨w, .call env (.removeGuardian a), w'⟩ = true) :
    MarkFollows X (history ++ [⟨w, .call env (.removeGuardian a), w'⟩]) w' := by
  obtain ⟨_, _, hpost⟩ := removeGuardian_ok.mp hproposed
  refine ⟨?_, ?_⟩
  · intro p hp _
    rw [hpost] at hp
    obtain rfl := Option.some.inj hp
    refine ⟨?_, [], ⟨history, _, rfl, ⟨env, rfl, hok, rfl⟩, fun u hu => by cases hu⟩,
      fun u hu => by cases hu⟩
    -- nobody has voted, and at least one vote is needed
    intro q needed hq hneeded
    rw [hpost] at hq
    obtain rfl := Option.some.inj hq
    simp only [removalVotesNeeded, Option.bind_eq_bind, Option.bind_eq_some_iff,
      Option.some.injEq] at hneeded
    obtain ⟨_, _, rfl⟩ := hneeded
    exact Nat.succ_pos _
  · intro p t _ hmark
    rw [hpost] at hmark
    cases hmark

/-- Other calls leave the proposal and its mark alone, and remove nobody. -/
theorem Effect.removalKept {env : Env} {w w' : World} {c : Call} (heff : Effect X env w c w')
    (hpropose : ∀ a, c ≠ .removeGuardian a)
    (hvote : ∀ voter approve, c ≠ .voteOnGuardianRemoval voter approve)
    (hexecute : c ≠ .executeGuardianRemoval) :
    w'.governance.pendingGuardianRemoval = w.governance.pendingGuardianRemoval
      ∧ w'.governance.pendingGuardianRemovalPassedAt = w.governance.pendingGuardianRemovalPassedAt
      ∧ ∃ extra, w'.governance.getGuardians = w.governance.getGuardians ++ extra := by
  have hsame : w.governance.getGuardians = w.governance.getGuardians ++ [] :=
    (List.append_nil _).symm
  rcases heff.governance with hkept | hstep
  · rw [hkept]
    exact ⟨rfl, rfl, [], hsame⟩
  · generalize w'.governance = g at hstep
    cases hstep with
    | initGuardians gs byAdmin first =>
        refine ⟨rfl, rfl, gs, ?_⟩
        simp [GovernanceStore.getGuardians, first]
    | add g => exact ⟨rfl, rfl, [g], rfl⟩
    | proposeRemoval a => exact absurd rfl (hpropose a)
    | voteRemoval voter approve => exact absurd rfl (hvote voter approve)
    | executeRemoval => exact absurd rfl hexecute
    | _ => exact ⟨rfl, rfl, [], hsame⟩

/-! ## §3. Runs. -/

/-- One step of a run. -/
theorem markFollows_step {history : List (Transition World Action)} {w : World} {a : Action}
    (h : MarkFollows X history w) :
    MarkFollows X (history ++ [⟨w, a, step X w a⟩]) (step X w a) := by
  cases a with
  | advance seconds ledgers =>
      exact h.of_grown rfl rfl (List.append_nil _).symm fun _ _ hact => by cases hact
  | external balances =>
      exact h.of_grown rfl rfl (List.append_nil _).symm fun _ _ hact => by cases hact
  | call env c =>
      by_cases hok : callOk X ⟨w, .call env c, step X w (.call env c)⟩ = true
      · have hsucc := callOk_iff.mp hok
        by_cases hpropose : ∃ a, c = .removeGuardian a
        · obtain ⟨a, rfl⟩ := hpropose
          obtain ⟨r, hr⟩ := hsucc
          exact .propose (done_eq_ok.mp hr).1 hok
        by_cases hvote : ∃ voter approve, c = .voteOnGuardianRemoval voter approve
        · obtain ⟨voter, approve, rfl⟩ := hvote
          obtain ⟨r, hr⟩ := hsucc
          exact h.vote (done_eq_ok.mp hr).1 hok
        by_cases hexecute : c = .executeGuardianRemoval
        · subst hexecute
          obtain ⟨r, hr⟩ := hsucc
          obtain ⟨_, _, _, _, _, _, _, hpost⟩ := executeGuardianRemoval_ok (done_eq_ok.mp hr).1
          refine .of_idle ?_
          rw [hpost]
        · obtain ⟨hp, hmark, extra, hgrown⟩ := hsucc.effect.removalKept
            (fun a hc => hpropose ⟨a, hc⟩) (fun v b hc => hvote ⟨v, b, hc⟩) hexecute
          refine h.of_grown hp hmark hgrown ?_
          intro env' b hact
          exact absurd ⟨b, (Action.call.inj hact).2⟩ hpropose
      · have hsame := step_of_not_callOk hok
        have hgrown : (step X w (.call env c)).governance.getGuardians
            = w.governance.getGuardians ++ [] := by
          rw [hsame, List.append_nil]
        refine h.of_grown (by rw [hsame]) (by rw [hsame]) hgrown ?_
        intro _ _ _
        exact Bool.not_eq_true _ ▸ hok

/-- The mark belongs to the pending proposal after every history. -/
theorem markFollows_run (X : Externs) (b : Address → Address → Nat) (t s : Nat)
    (as : List Action) :
    MarkFollows X (trace (step X) (genesis b t s) as) (run (step X) (genesis b t s) as) := by
  refine history_invariant (step X) (MarkFollows X) (fun _ => True) (.of_idle rfl) ?_ as
    fun _ _ => trivial
  intro as a h _
  exact markFollows_step h

/-- A stored timelock is a day at least. -/
theorem Effect.timelockDuration {env : Env} {w w' : World} {c : Call}
    (heff : Effect X env w c w')
    (h : timelockMinSeconds ≤ w.governance.getTimelockDuration) :
    timelockMinSeconds ≤ w'.governance.getTimelockDuration := by
  rcases heff.governance with hkept | hstep
  · rw [hkept]
    exact h
  · generalize w'.governance = g at hstep
    cases hstep with
    | timelock seconds byAdmin bounds => exact bounds.1
    | _ => exact h

/-- **The timelock in force is never under a day.** -/
theorem Reachable.timelockMin {w : World} (h : Reachable X w) :
    timelockMinSeconds ≤ w.governance.getTimelockDuration :=
  h.invariant (fun w => timelockMinSeconds ≤ w.governance.getTimelockDuration)
    (fun _ _ _ => (by decide : timelockMinSeconds ≤ timelockDuration))
    (fun h heff => heff.timelockDuration h) (fun _ _ h => h) (fun _ h => h)

/-- **Every removal was due**: it takes out the pending target and nobody else,
at least a day and the timelock in force after the vote on that very proposal
which first met the threshold. -/
theorem removals_are_due (X : Externs) (b : Address → Address → Nat) (t s : Nat)
    (as : List Action) : RemovalsAreDue X (trace (step X) (genesis b t s) as) := by
  intro before x after env htrace hact hsucc
  obtain ⟨bs, cs, has, hbefore, hpre, _, _⟩ := trace_eq_append_cons (step X) htrace
  obtain ⟨r, hr⟩ := hsucc
  obtain ⟨p, mark, _, hp, hmark, helapsed, _, hpost⟩ :=
    executeGuardianRemoval_ok (done_eq_ok.mp hr).1
  -- the mark is the time of the vote on this proposal
  have hfollows := markFollows_run X b t s bs
  rw [← hbefore, ← hpre] at hfollows
  obtain ⟨first, v, later, hsince, hall, hvote, htime⟩ := hfollows.marked p mark hp hmark
  have hmin : timelockMinSeconds ≤ x.pre.governance.getTimelockDuration :=
    Reachable.timelockMin (X := X) ⟨b, t, s, bs, hpre⟩
  refine ⟨p, hp, ?_, ⟨?_, ?_⟩, first, v, later, hsince, hall, hvote, ?_⟩
  · rw [hpost]
    rfl
  · rw [hpost]
  · rw [hpost]
  · rw [htime, max_eq_right hmin]
    have hday : 0 < timelockMinSeconds := by decide
    omega

end PredictIQ.Contract
