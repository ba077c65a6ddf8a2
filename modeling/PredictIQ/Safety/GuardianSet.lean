/-
  PredictIQ.Safety.GuardianSet: is every guardian counted once?

  `is_majority_met` looks up each voter and stops at the first match;
  `emergency_pause` walks the guardians.  The two tallies agree when no
  address is in the set twice.  `add_guardian` checks that, and
  `initialize_guardians` does not.
-/
import PredictIQ.Contract.Lifecycle
import PredictIQ.Safety.GuardianRemoval

namespace PredictIQ.Contract

open Foundation Tx

variable {X : Externs}

/-! ## §1. The property. -/

/-- The power of the guardians among `votes`, each entry of the set once. -/
def powerHeld (guardians : List Guardian) (votes : List Address) : Nat :=
  ((guardians.filter fun g => g.address ∈ votes).map (·.votingPower)).sum

/-- No address is in the guardian set twice. -/
def GuardiansDistinct (w : World) : Prop :=
  (w.governance.getGuardians.map (·.address)).Nodup

instance (w : World) : Decidable (GuardiansDistinct w) := inferInstanceAs (Decidable (List.Nodup _))

theorem GuardiansDistinct.genesis (b : Address → Address → Nat) (t s : Nat) :
    GuardiansDistinct (genesis b t s) := List.nodup_nil

/-- A `u32` total. -/
def inU32 (n : Nat) : Option Nat := if n < 2 ^ 32 then some n else none

/-- Every guardian is one entry of the set, both tallies count it once for any
list of distinct voters, and the lists on record are such lists. -/
structure GuardiansCountOnce (w : World) : Prop where
  distinct : GuardiansDistinct w
  tallies : ∀ votes : List Address, votes.Nodup →
    sumPowers (votes.map (powerOf w.governance.getGuardians)) 0
        = inU32 (powerHeld w.governance.getGuardians votes)
      ∧ pausePower w.governance.getGuardians votes
        = inU32 (powerHeld w.governance.getGuardians votes)
  ballots : (∀ p, w.governance.pendingUpgrade = some p → p.votesFor.Nodup)
    ∧ w.governance.pauseVotes.Nodup

/-- A list that `initialize_guardians` accepts names nobody twice. -/
def InitializesDistinct (X : Externs) (t : Transition World Action) : Prop :=
  ∀ env guardians, t.act = .call env (.initializeGuardians guardians) → callOk X t = true →
    (guardians.map (·.address)).Nodup

/-! ## §2. The two tallies. -/

/-- A checked sum is the sum, when it fits. -/
theorem sumPowers_eq {powers : List Nat} {total : Nat} (h : total < 2 ^ 32) :
    sumPowers powers total = inU32 (total + powers.sum) := by
  induction powers generalizing total with
  | nil => exact (if_pos h).symm
  | cons power rest ih =>
      rw [List.sum_cons, ← Nat.add_assoc]
      show (addU32 total power).bind (sumPowers rest) = _
      by_cases hfits : total + power < 2 ^ 32
      · rw [addU32, if_pos hfits]
        exact ih hfits
      · -- the sum only grows from here on
        have hover : ¬total + power + rest.sum < 2 ^ 32 := by omega
        rw [addU32, if_neg hfits, inU32, if_neg hover]
        rfl

theorem pausePower_eq (guardians : List Guardian) (votes : List Address) :
    pausePower guardians votes = inU32 (powerHeld guardians votes) := by
  unfold pausePower powerHeld
  rw [sumPowers_eq (by norm_num), Nat.zero_add]

theorem powerOf_cons (g : Guardian) (guardians : List Guardian) (voter : Address) :
    powerOf (g :: guardians) voter
      = if g.address = voter then g.votingPower else powerOf guardians voter := by
  unfold powerOf
  rw [List.find?_cons]
  by_cases h : g.address = voter <;> simp [h]

/-- Who is no guardian has no power. -/
theorem powerOf_of_not_mem {guardians : List Guardian} {voter : Address}
    (h : voter ∉ guardians.map (·.address)) : powerOf guardians voter = 0 := by
  unfold powerOf
  rw [List.find?_eq_none.mpr]
  · rfl
  · intro g hg heq
    exact h (List.mem_map.mpr ⟨g, hg, of_decide_eq_true heq⟩)

/-- One address among distinct voters adds its power once. -/
theorem sum_powerOf_one {votes : List Address} (h : votes.Nodup) (a : Address) (power : Nat) :
    (votes.map fun v => if a = v then power else 0).sum = if a ∈ votes then power else 0 := by
  induction votes with
  | nil => rfl
  | cons v votes ih =>
      obtain ⟨hv, hrest⟩ := List.nodup_cons.mp h
      rw [List.map_cons, List.sum_cons, ih hrest]
      by_cases hav : a = v
      · subst hav
        simp [hv]
      · simp [hav]

/-- **Tallying by voter and by guardian** comes to the same for distinct
guardians and distinct voters. -/
theorem sum_powerOf_eq {guardians : List Guardian} {votes : List Address}
    (hguardians : (guardians.map (·.address)).Nodup) (hvotes : votes.Nodup) :
    (votes.map (powerOf guardians)).sum = powerHeld guardians votes := by
  induction guardians with
  | nil =>
      have hzero : powerOf [] = fun _ => 0 := rfl
      simp [hzero, powerHeld]
  | cons g guardians ih =>
      obtain ⟨hfresh, hrest⟩ := List.nodup_cons.mp hguardians
      -- the head's power, and what the others have
      have hsplit : powerOf (g :: guardians)
          = fun v => (if g.address = v then g.votingPower else 0) + powerOf guardians v := by
        funext v
        rw [powerOf_cons]
        by_cases h : g.address = v
        · rw [if_pos h, if_pos h, powerOf_of_not_mem (h ▸ hfresh), Nat.add_zero]
        · rw [if_neg h, if_neg h, Nat.zero_add]
      rw [hsplit, List.sum_map_add, ih hrest, sum_powerOf_one hvotes]
      unfold powerHeld
      by_cases hmem : g.address ∈ votes <;> simp [hmem]

/-- Over a set of distinct guardians the tallies agree. -/
theorem tallies_agree {guardians : List Guardian} {votes : List Address}
    (hguardians : (guardians.map (·.address)).Nodup) (hvotes : votes.Nodup) :
    sumPowers (votes.map (powerOf guardians)) 0 = inU32 (powerHeld guardians votes)
      ∧ pausePower guardians votes = inU32 (powerHeld guardians votes) := by
  refine ⟨?_, pausePower_eq guardians votes⟩
  rw [sumPowers_eq (by norm_num), Nat.zero_add, sum_powerOf_eq hguardians hvotes]

/-! ## §3. The lists on record. -/

/-- The ballots of a pending upgrade and of the emergency pause. -/
structure BallotsDistinct (w : World) : Prop where
  upgrade : ∀ p, w.governance.pendingUpgrade = some p → p.votesFor.Nodup
  pause : w.governance.pauseVotes.Nodup

/-- A vote on an upgrade is the voter's first. -/
theorem voteForUpgrade_once {env : Env} {w w' : World} {voter : Address} {voteFor r : Bool}
    (h : voteForUpgrade voter voteFor env w = (.ok r, w')) {p : PendingUpgrade}
    (hp : w.governance.pendingUpgrade = some p) : voter ∉ p.votesFor := by
  simp only [voteForUpgrade, bind_eq_ok, requireAuth_ok, reads_eq_ok, failIf_ok, orErr_ok,
    and_assoc, exists_and_left, exists_eq_left', exists_const] at h
  obtain ⟨_, _, q, hq, honce, _⟩ := h
  obtain rfl := Option.some.inj (hp.symm.trans hq)
  exact honce

/-- The ballots under one successful call. -/
theorem Succeeds.ballotsDistinct {env : Env} {c : Call} {w w' : World} (h : Succeeds X env c w w')
    (hw : BallotsDistinct w) : BallotsDistinct w' := by
  by_cases hvote : ∃ voter voteFor, c = .voteForUpgrade voter voteFor
  · obtain ⟨voter, voteFor, rfl⟩ := hvote
    obtain ⟨r, hr⟩ := h
    obtain ⟨b, hvoted, _⟩ := returning_eq_ok.mp hr
    obtain ⟨p, met, hp, _, hpost⟩ := voteForUpgrade_ok hvoted
    have honce := voteForUpgrade_once hvoted hp
    refine ⟨?_, by rw [hpost]; exact hw.pause⟩
    intro q hq
    rw [hpost] at hq
    obtain rfl := Option.some.inj hq
    cases voteFor with
    | false => exact hw.upgrade p hp
    | true =>
        show (p.votesFor ++ [voter]).Nodup
        rw [← List.concat_eq_append]
        exact (hw.upgrade p hp).concat honce
  by_cases hpause : ∃ voter, c = .emergencyPause voter
  · obtain ⟨voter, rfl⟩ := hpause
    obtain ⟨r, hr⟩ := h
    obtain ⟨hmay, total, power, _, _, hpost⟩ := emergencyPause_guards.mp (done_eq_ok.mp hr).1
    have hgrown : (w.governance.pauseVotes ++ [voter]).Nodup := by
      rw [← List.concat_eq_append]
      exact hw.pause.concat hmay.once
    split at hpost <;> rw [hpost]
    · exact ⟨hw.upgrade, List.nodup_nil⟩
    · exact ⟨hw.upgrade, hgrown⟩
  -- nothing else adds to a ballot
  rcases h.effect.governance with hkept | hstep
  · exact ⟨by rw [hkept]; exact hw.upgrade, by rw [hkept]; exact hw.pause⟩
  · obtain ⟨hupgrade, hvotes⟩ := hw
    constructor <;> generalize w'.governance = g at hstep
    · cases hstep with
      | initiate =>
          intro q hq
          obtain rfl := Option.some.inj hq
          exact List.nodup_nil
      | vote voter voteFor => exact absurd ⟨voter, voteFor, rfl⟩ hvote
      | execute => intro q hq; cases hq
      | _ => exact hupgrade
    · cases hstep with
      | emergency voter => exact absurd ⟨voter, rfl⟩ hpause
      | _ => exact hvotes

/-! ## §4. Runs. -/

/-- The addresses of the set under one successful call. -/
theorem Succeeds.guardiansDistinct {env : Env} {c : Call} {w w' : World}
    (h : Succeeds X env c w w') (hC : InitializesDistinct X ⟨w, .call env c, w'⟩)
    (hw : GuardiansDistinct w) : GuardiansDistinct w' := by
  rcases h.effect.governance with hkept | hstep
  · unfold GuardiansDistinct
    rw [hkept]
    exact hw
  · unfold GuardiansDistinct at hw ⊢
    generalize w'.governance = g at hstep
    cases hstep with
    | initGuardians guardians => exact hC env guardians rfl (callOk_of_succeeds h)
    | add g byAdmin notAdmin fresh =>
        -- the new address was looked for in the set
        have hnew : g.address ∉ w.governance.getGuardians.map (·.address) := by
          rw [← isGuardian_iff, fresh]
          exact Bool.false_ne_true
        show ((w.governance.getGuardians ++ [g]).map (·.address)).Nodup
        rw [List.map_append, List.map_singleton, ← List.concat_eq_append]
        exact hw.concat hnew
    | executeRemoval p => exact hw.sublist (List.filter_sublist.map _)
    | _ => exact hw

theorem guardiansCountOnce_run (X : Externs) (b : Address → Address → Nat) (t s : Nat)
    (as : List Action) (hC : ∀ tr ∈ trace (step X) (genesis b t s) as, InitializesDistinct X tr) :
    GuardiansCountOnce (run (step X) (genesis b t s) as) := by
  have hballots : BallotsDistinct (run (step X) (genesis b t s) as) := by
    refine run_call_invariant BallotsDistinct (fun _ => True) ?_
      (fun h _ hsucc => hsucc.ballotsDistinct h) (fun _ _ h => ⟨h.upgrade, h.pause⟩)
      (fun _ h => ⟨h.upgrade, h.pause⟩) as fun _ _ => trivial
    exact ⟨fun p hp => (by cases hp), List.nodup_nil⟩
  have hdistinct : GuardiansDistinct (run (step X) (genesis b t s) as) :=
    run_call_invariant GuardiansDistinct (InitializesDistinct X) (.genesis b t s)
      (fun h hc hsucc => hsucc.guardiansDistinct hc h) (fun _ _ h => h) (fun _ h => h) as hC
  exact ⟨hdistinct, fun votes hvotes => tallies_agree hdistinct hvotes, hballots.upgrade,
    hballots.pause⟩

/-- **Every guardian counts once in every state** of exactly the runs in which
`initialize_guardians` accepts no list that names somebody twice. -/
theorem guardians_count_once_iff (X : Externs) (b : Address → Address → Nat) (t s : Nat)
    (as : List Action) :
    (∀ bs, bs <+: as → GuardiansCountOnce (run (step X) (genesis b t s) bs))
      ↔ ∀ tr ∈ trace (step X) (genesis b t s) as, InitializesDistinct X tr := by
  constructor
  · intro h tr htr env guardians hact hok
    obtain ⟨bs, hbs, hpre, hpost⟩ := prefix_of_mem_trace (step X) htr
    have hafter := (h _ hbs).distinct
    -- an accepted list is the set from here on
    have hstep : tr.post = step X tr.pre tr.act := by rw [hpost, run_concat, hpre]
    obtain ⟨pre, act, post⟩ := tr
    subst hact
    obtain ⟨r, hr⟩ := callOk_iff.mp hok
    obtain ⟨_, _, hadmin, hinit⟩ := bind_eq_ok.mp (done_eq_ok.mp hr).1
    obtain ⟨_, rfl⟩ := requireAdmin_ok.mp hadmin
    obtain ⟨_, _, _, hset⟩ := initializeGuardians_ok.mp hinit
    rw [← hpost, hstep, hset] at hafter
    exact hafter
  · intro h bs hbs
    exact guardiansCountOnce_run X b t s bs fun tr htr =>
      h tr (mem_trace_of_isPrefix (step X) hbs htr)

/-- The first guardian list names account 2 twice. -/
def sampleTwins : List Action :=
  [.call everybody (.initializeContract ⟨1⟩ 0),
    .call everybody (.initializeGuardians [⟨⟨2⟩, 1⟩, ⟨⟨2⟩, 1⟩, ⟨⟨3⟩, 1⟩])]

/-- **Account 2 is in the set twice**, and its vote is worth one to the upgrade
and two to the emergency pause. -/
theorem sampleTwins_counts :
    ¬(∀ bs, bs <+: sampleTwins → GuardiansCountOnce (sampleRun bs))
      ∧ sumPowers ([⟨2⟩].map (powerOf (sampleRun sampleTwins).governance.getGuardians)) 0 = some 1
      ∧ pausePower (sampleRun sampleTwins).governance.getGuardians [⟨2⟩] = some 2 := by
  refine ⟨?_, rfl, rfl⟩
  intro h
  exact absurd (h sampleTwins List.prefix_rfl).distinct (by decide)

end PredictIQ.Contract
