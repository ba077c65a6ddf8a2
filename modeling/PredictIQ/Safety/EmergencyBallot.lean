/-
  PredictIQ.Safety.EmergencyBallot: is a two-thirds majority ever left waiting?

  `emergency_pause` weighs the ballot when a vote comes in.  The guardian set
  may change between votes, above all when `execute_guardian_removal` takes
  out somebody who has not voted, and the voters on record may not vote
  again.  The ballot then holds two thirds of the power, and the contract is
  not paused.
-/
import PredictIQ.Safety.GuardianSet

namespace PredictIQ.Contract

open Foundation Tx

variable {X : Externs}

/-! ## §1. The property. -/

def totalPower (guardians : List Guardian) : Nat := (guardians.map (·.votingPower)).sum

/-- The guardians among `votes` hold less than two thirds of the power. -/
def ShortBallot (guardians : List Guardian) (votes : List Address) : Prop :=
  guardians = [] ∨ 3 * powerHeld guardians votes < 2 * totalPower guardians

instance (guardians : List Guardian) (votes : List Address) :
    Decidable (ShortBallot guardians votes) := inferInstanceAs (Decidable (_ ∨ _))

/-- The emergency ballot is short of two thirds of the current power. -/
def PauseUndecided (w : World) : Prop :=
  ShortBallot w.governance.getGuardians w.governance.pauseVotes

instance (w : World) : Decidable (PauseUndecided w) := inferInstanceAs (Decidable (ShortBallot _ _))

/-- No majority waits in any state of the run, and a vote that makes one pauses
the contract and clears the ballot. -/
structure PausesOnMajority (X : Externs) (w : World) (as : List Action) : Prop where
  undecided : ∀ bs, bs <+: as → PauseUndecided (run (step X) w bs)
  forced : ∀ t ∈ trace (step X) w as, ∀ env voter, t.act = .call env (.emergencyPause voter) →
    callOk X t = true →
    ¬ShortBallot t.pre.governance.getGuardians (t.pre.governance.pauseVotes ++ [voter]) →
      t.post.breaker.getState = .paused ∧ t.post.governance.pauseVotes = []

/-- The guardian set a call is there to leave. -/
def guardiansAfter (w : World) : Call → Option (List Guardian)
  | .initializeGuardians guardians => some guardians
  | .addGuardian guardian => some (w.governance.getGuardians ++ [guardian])
  | .executeGuardianRemoval => w.governance.pendingGuardianRemoval.map fun p =>
      w.governance.getGuardians.filter fun g => g.address ≠ p.targetGuardian
  | _ => none

/-- A change of the guardian set that goes through leaves the ballot on record
short of two thirds of the new set's power. -/
def LeavesUndecided (X : Externs) (t : Transition World Action) : Prop :=
  ∀ env c guardians, t.act = .call env c → callOk X t = true →
    guardiansAfter t.pre c = some guardians → ShortBallot guardians t.pre.governance.pauseVotes

/-! ## §2. Votes and changes of the set. -/

/-- A call that is there to change the guardian set does so, when it succeeds,
and leaves the ballot alone. -/
theorem Succeeds.setsGuardians {env : Env} {c : Call} {w w' : World} {guardians : List Guardian}
    (h : Succeeds X env c w w') (hc : guardiansAfter w c = some guardians) :
    w'.governance.getGuardians = guardians
      ∧ w'.governance.pauseVotes = w.governance.pauseVotes := by
  obtain ⟨r, hr⟩ := h
  cases c with
  | initializeGuardians gs =>
      obtain rfl := Option.some.inj hc
      obtain ⟨_, _, hadmin, hinit⟩ := bind_eq_ok.mp (done_eq_ok.mp hr).1
      obtain ⟨_, rfl⟩ := requireAdmin_ok.mp hadmin
      obtain ⟨_, _, _, rfl⟩ := initializeGuardians_ok.mp hinit
      exact ⟨rfl, rfl⟩
  | addGuardian g =>
      obtain rfl := Option.some.inj hc
      obtain ⟨_, _, _, rfl⟩ := addGuardian_ok.mp (done_eq_ok.mp hr).1
      exact ⟨rfl, rfl⟩
  | executeGuardianRemoval =>
      obtain ⟨p, t, _, hp, _, _, _, rfl⟩ := executeGuardianRemoval_ok (done_eq_ok.mp hr).1
      rw [guardiansAfter, hp] at hc
      obtain rfl := Option.some.inj hc
      exact ⟨rfl, rfl⟩
  | _ => cases hc

/-- Other calls but votes leave set and ballot. -/
theorem Effect.guardians_cases {env : Env} {c : Call} {w w' : World} (h : Effect X env w c w')
    (hvote : ∀ voter, c ≠ .emergencyPause voter) :
    (∃ guardians, guardiansAfter w c = some guardians)
      ∨ (w'.governance.getGuardians = w.governance.getGuardians
        ∧ w'.governance.pauseVotes = w.governance.pauseVotes) := by
  rcases h.governance with hkept | hstep
  · rw [hkept]
    exact Or.inr ⟨rfl, rfl⟩
  · generalize w'.governance = g at hstep
    cases hstep with
    | initGuardians gs => exact Or.inl ⟨gs, rfl⟩
    | add g => exact Or.inl ⟨_, rfl⟩
    | executeRemoval p t byAdmin pending => exact Or.inl ⟨_, by rw [guardiansAfter, pending]; rfl⟩
    | emergency voter => exact absurd rfl (hvote voter)
    | _ => exact Or.inr ⟨rfl, rfl⟩

/-- A sum that fits is what the code computes. -/
theorem eq_of_inU32 {n m : Nat} (h : inU32 n = some m) : m = n := by
  unfold inU32 at h
  split at h
  · exact (Option.some.inj h).symm
  · cases h

/-- The two sums of `emergency_pause`. -/
theorem pauseSums {guardians : List Guardian} {votes : List Address} {total power : Nat}
    (htotal : sumPowers (guardians.map (·.votingPower)) 0 = some total)
    (hpower : pausePower guardians votes = some power) :
    total = totalPower guardians ∧ power = powerHeld guardians votes := by
  rw [sumPowers_eq (by norm_num), Nat.zero_add] at htotal
  rw [pausePower_eq] at hpower
  exact ⟨eq_of_inU32 htotal, eq_of_inU32 hpower⟩

/-- **A vote leaves no majority waiting**: it is short of one, or it pauses. -/
theorem emergencyPause_undecided {env : Env} {w w' : World} {voter : Address}
    (h : emergencyPause voter env w = (.ok (), w')) (hw : PauseUndecided w) :
    PauseUndecided w'
      ∧ (¬ShortBallot w.governance.getGuardians (w.governance.pauseVotes ++ [voter]) →
        w'.breaker.getState = .paused ∧ w'.governance.pauseVotes = []) := by
  obtain ⟨hmay, total, power, htotal, hpower, hpost⟩ := emergencyPause_guards.mp h
  obtain ⟨rfl, rfl⟩ := pauseSums htotal hpower
  -- the voter is a guardian, so the set has power
  have hne : w.governance.getGuardians ≠ [] := by
    intro hnil
    have hmem := hmay.member
    rw [hnil] at hmem
    cases hmem
  have hsome : 0 < totalPower w.governance.getGuardians := by
    have hshort := hw.resolve_left hne
    omega
  by_cases hmet : totalPower w.governance.getGuardians * 2
      ≤ powerHeld w.governance.getGuardians (w.governance.pauseVotes ++ [voter]) * 3
  · rw [if_pos ⟨hsome, hmet⟩] at hpost
    rw [hpost]
    refine ⟨Or.inr ?_, fun _ => ⟨rfl, rfl⟩⟩
    -- an empty ballot holds nothing
    have hnothing : powerHeld w.governance.getGuardians [] = 0 := by simp [powerHeld]
    show 3 * powerHeld w.governance.getGuardians [] < 2 * totalPower w.governance.getGuardians
    omega
  · rw [if_neg fun hc => hmet hc.2] at hpost
    have hshort : ShortBallot w.governance.getGuardians (w.governance.pauseVotes ++ [voter]) :=
      Or.inr (by omega)
    rw [hpost]
    exact ⟨hshort, fun hnot => absurd hshort hnot⟩

/-! ## §3. Runs. -/

/-- One successful call. -/
theorem Succeeds.pauseUndecided {env : Env} {c : Call} {w w' : World} (h : Succeeds X env c w w')
    (hC : LeavesUndecided X ⟨w, .call env c, w'⟩) (hw : PauseUndecided w) : PauseUndecided w' := by
  by_cases hvote : ∃ voter, c = .emergencyPause voter
  · obtain ⟨voter, rfl⟩ := hvote
    obtain ⟨r, hr⟩ := h
    exact (emergencyPause_undecided (done_eq_ok.mp hr).1 hw).1
  · unfold PauseUndecided
    rcases h.effect.guardians_cases fun voter hc => hvote ⟨voter, hc⟩ with ⟨gs, hgs⟩ | ⟨hset, hbal⟩
    · obtain ⟨hset, hbal⟩ := h.setsGuardians hgs
      rw [hset, hbal]
      exact hC env c gs rfl (callOk_of_succeeds h) hgs
    · rw [hset, hbal]
      exact hw

theorem pauseUndecided_run {w : World} (h0 : PauseUndecided w) (as : List Action)
    (hC : ∀ t ∈ trace (step X) w as, LeavesUndecided X t) :
    PauseUndecided (run (step X) w as) :=
  run_call_invariant PauseUndecided (LeavesUndecided X) h0
    (fun h hc hsucc => hsucc.pauseUndecided hc h) (fun _ _ h => h) (fun _ h => h) as hC

/-- **The emergency ballot never waits with a majority** in exactly the runs in
which every change of the guardian set that goes through leaves the ballot on
record short of two thirds. -/
theorem pauses_on_majority_iff (X : Externs) (b : Address → Address → Nat) (t s : Nat)
    (as : List Action) :
    PausesOnMajority X (genesis b t s) as
      ↔ ∀ tr ∈ trace (step X) (genesis b t s) as, LeavesUndecided X tr := by
  have h0 : PauseUndecided (genesis b t s) := Or.inl rfl
  constructor
  · intro h tr htr env c guardians hact hok hgs
    obtain ⟨bs, hbs, hpre, hpost⟩ := prefix_of_mem_trace (step X) htr
    have hafter := h.undecided _ hbs
    -- the new set and the old ballot are those of the state after the call
    obtain ⟨pre, act, post⟩ := tr
    subst hact
    rw [run_concat, ← hpre] at hafter
    obtain ⟨hset, hbal⟩ := (callOk_iff.mp hok).setsGuardians hgs
    unfold PauseUndecided at hafter
    rw [hset, hbal] at hafter
    exact hafter
  · intro h
    have hall : ∀ bs, bs <+: as → PauseUndecided (run (step X) (genesis b t s) bs) := by
      intro bs hbs
      exact pauseUndecided_run h0 bs fun tr htr => h tr (mem_trace_of_isPrefix (step X) hbs htr)
    refine ⟨hall, ?_⟩
    intro tr htr env voter hact hok hmajority
    obtain ⟨bs, hbs, hpre, hpost⟩ := prefix_of_mem_trace (step X) htr
    have hbefore := hall bs ((List.prefix_append bs [tr.act]).trans hbs)
    rw [← hpre] at hbefore
    rw [run_concat, ← hpre] at hpost
    obtain ⟨pre, act, post⟩ := tr
    subst hact
    change post = step X pre (.call env (.emergencyPause voter)) at hpost
    subst hpost
    obtain ⟨r, hr⟩ := callOk_iff.mp hok
    exact (emergencyPause_undecided (done_eq_ok.mp hr).1 hbefore).2 hmajority

/-- Of the guardians 2, 3, 4 and 5, the first two vote for the pause, and 5 is
removed before anybody else does. -/
def sampleWaitingBallot : List Action :=
  [.call everybody (.initializeContract ⟨1⟩ 0),
    .call everybody (.initializeGuardians [⟨⟨2⟩, 1⟩, ⟨⟨3⟩, 1⟩, ⟨⟨4⟩, 1⟩, ⟨⟨5⟩, 1⟩]),
    .call everybody (.emergencyPause ⟨2⟩),
    .call everybody (.emergencyPause ⟨3⟩),
    .call everybody (.removeGuardian ⟨5⟩),
    .call everybody (.voteOnGuardianRemoval ⟨2⟩ true),
    .call everybody (.voteOnGuardianRemoval ⟨3⟩ true),
    .advance 172800 0,
    .call everybody .executeGuardianRemoval]

/-- **Two of three guardians are on the ballot**, and the breaker is closed. -/
theorem sampleWaitingBallot_waits :
    ¬PausesOnMajority sampleExterns sampleGenesis sampleWaitingBallot
      ∧ (sampleRun sampleWaitingBallot).governance.getGuardians
        = [⟨⟨2⟩, 1⟩, ⟨⟨3⟩, 1⟩, ⟨⟨4⟩, 1⟩]
      ∧ (sampleRun sampleWaitingBallot).governance.pauseVotes = [⟨2⟩, ⟨3⟩]
      ∧ (sampleRun sampleWaitingBallot).breaker.getState = .closed := by
  refine ⟨?_, rfl, rfl, rfl⟩
  intro h
  exact absurd (h.undecided sampleWaitingBallot List.prefix_rfl) (by decide)

end PredictIQ.Contract
