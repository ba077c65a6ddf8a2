/-
  PredictIQ.Safety.Roles: is the admin ever a guardian?

  Adding guardians checks the admin, and becoming admin checks the guardian
  account.  Two checks are missing: `set_guardian` does not look at the admin,
  and `accept_admin` does not look at the guardian set.  The roles stay apart
  in a run exactly when neither gap is used.
-/
import PredictIQ.Contract.Lifecycle

namespace PredictIQ.Contract

open Foundation Tx

variable {X : Externs}

/-! ## §1. Separation. -/

/-- The admin is neither the guardian account nor in the guardian set. -/
def RolesSeparated (w : World) : Prop :=
  ∀ a, w.admin.admin = some a →
    w.admin.guardianAccount ≠ some a ∧ ∀ g ∈ w.governance.getGuardians, g.address ≠ a

/-- No `set_guardian` that the admin signs names the admin, and no
`accept_admin` that the nominee signs comes from the guardian set. -/
structure KeepsRolesApart (t : Transition World Action) : Prop where
  guardian : ∀ env g, t.act = .call env (.setGuardian g) → ByAdmin env t.pre →
    t.pre.admin.admin ≠ some g
  admin : ∀ env caller, t.act = .call env (.acceptAdmin caller) →
    env.authorized caller = true → t.pre.admin.pendingAdmin = some caller →
      t.pre.admin.guardianAccount ≠ some caller →
        ∀ g ∈ t.pre.governance.getGuardians, g.address ≠ caller

/-- The invariant: before there is an admin there are no guardians either. -/
structure RolesInOrder (w : World) : Prop where
  separated : RolesSeparated w
  adminFirst : w.admin.admin = none →
    w.admin.guardianAccount = none ∧ w.governance.guardianSet = none

theorem ByAdmin.admin_ne_none {env : Env} {w : World} (h : ByAdmin env w) :
    w.admin.admin ≠ none := by
  obtain ⟨a, ha, _⟩ := h
  rw [ha]
  exact Option.some_ne_none a

/-! ## §2. One call. -/

/-- A change of the roles keeps them in order unless it uses a gap. -/
theorem AdminStep.rolesInOrder {env : Env} {w : World} {c : Call} {a : AdminStore}
    (hI : RolesInOrder w) (h : AdminStep env w c a)
    (hC : KeepsRolesApart ⟨w, .call env c, { w with admin := a }⟩) :
    RolesInOrder { w with admin := a } := by
  cases h with
  | propose => exact ⟨hI.separated, hI.adminFirst⟩
  | cancel => exact ⟨hI.separated, hI.adminFirst⟩
  | governanceToken => exact ⟨hI.separated, hI.adminFirst⟩
  | accept caller auth pending notGuardian =>
      refine ⟨?_, fun hnone => by cases hnone⟩
      intro a ha
      -- the account is checked by the code, the set by the condition
      obtain rfl := Option.some.inj ha
      exact ⟨notGuardian, hC.admin env caller rfl auth pending notGuardian⟩
  | guardian g byAdmin =>
      refine ⟨fun a ha => ⟨?_, (hI.separated a ha).2⟩, ?_⟩
      · intro hg
        -- the code checks nothing here
        obtain rfl := Option.some.inj hg
        exact hC.guardian env g rfl byAdmin ha
      · intro hnone
        exact absurd hnone byAdmin.admin_ne_none

/-- Every change of the guardian set checks the admin. -/
theorem GovernanceStep.rolesInOrder {env : Env} {w : World} {c : Call} {g : GovernanceStore}
    (hI : RolesInOrder w) (h : GovernanceStep env w c g) :
    RolesInOrder { w with governance := g } := by
  cases h with
  | initGuardians gs byAdmin first nonempty notAdmin =>
      refine ⟨fun a ha => ⟨(hI.separated a ha).1, ?_⟩, ?_⟩
      · intro g hg heq
        subst heq
        exact notAdmin g hg ha
      · intro hnone
        exact absurd hnone byAdmin.admin_ne_none
  | add g byAdmin notAdmin =>
      refine ⟨fun a ha => ⟨(hI.separated a ha).1, ?_⟩, ?_⟩
      · intro g' hg' heq
        -- an old member, or the one added
        rcases List.mem_append.mp hg' with hg' | hg'
        · exact (hI.separated a ha).2 g' hg' heq
        · obtain rfl := List.mem_singleton.mp hg'
          subst heq
          exact notAdmin ha
      · intro hnone
        exact absurd hnone byAdmin.admin_ne_none
  | executeRemoval p t byAdmin =>
      refine ⟨fun a ha => ⟨(hI.separated a ha).1, ?_⟩, ?_⟩
      · intro g hg
        exact (hI.separated a ha).2 g (List.mem_of_mem_filter hg)
      · intro hnone
        exact absurd hnone byAdmin.admin_ne_none
  | proposeRemoval => exact ⟨hI.separated, hI.adminFirst⟩
  | voteRemoval => exact ⟨hI.separated, hI.adminFirst⟩
  | initiate => exact ⟨hI.separated, hI.adminFirst⟩
  | vote => exact ⟨hI.separated, hI.adminFirst⟩
  | execute => exact ⟨hI.separated, hI.adminFirst⟩
  | timelock => exact ⟨hI.separated, hI.adminFirst⟩
  | emergency => exact ⟨hI.separated, hI.adminFirst⟩

/-- Roles and guardians are written nowhere else. -/
theorem Effect.rolesInOrder {env : Env} {w w' : World} {c : Call} (hI : RolesInOrder w)
    (hC : KeepsRolesApart ⟨w, .call env c, w'⟩) (h : Effect X env w c w') :
    RolesInOrder w' := by
  cases h with
  | initialized admin baseFee first =>
      -- the first admin finds no guardian of either kind
      obtain ⟨haccount, hset⟩ := hI.adminFirst first
      refine ⟨fun a _ => ⟨?_, ?_⟩, fun hnone => by cases hnone⟩
      · show w.admin.guardianAccount ≠ some a
        rw [haccount]
        exact fun h => by cases h
      · intro g hg
        have hempty : w.governance.getGuardians = [] := by
          unfold GovernanceStore.getGuardians
          rw [hset]
          rfl
        change g ∈ w.governance.getGuardians at hg
        rw [hempty] at hg
        cases hg
  | appointed _ a hstep => exact hstep.rolesInOrder hI hC
  | governed _ g br wasm evs hstep =>
      have hg := hstep.rolesInOrder hI
      exact ⟨hg.separated, hg.adminFirst⟩
  | created _ p id _ hc heff =>
      obtain ⟨_, _, _, hw⟩ := heff.frame
      rw [hw]
      exact ⟨hI.separated, hI.adminFirst⟩
  | bet b m fee _ heff =>
      obtain ⟨_, hw⟩ := heff.frame
      rw [hw]
      exact ⟨hI.separated, hI.adminFirst⟩
  | voted voter id outcome weight m ledger br evs _ lookup disputed snapshot frame =>
      obtain ⟨_, _, _, _, rfl⟩ := frame
      exact ⟨hI.separated, hI.adminFirst⟩
  | _ => exact ⟨hI.separated, hI.adminFirst⟩

/-! ## §3. Runs. -/

/-- A step that uses a gap leaves the roles joined. -/
theorem KeepsRolesApart.of_separated {t : Transition World Action}
    (hstep : t.post = step X t.pre t.act) (h : RolesSeparated t.post) : KeepsRolesApart t := by
  constructor
  · intro env g hact hby hadm
    have hsucc : Succeeds X env (.setGuardian g) t.pre _ :=
      ⟨.unit, done_eq_ok.mpr ⟨setGuardian_ok.mpr ⟨hby, rfl⟩, rfl⟩⟩
    -- the call goes through, and the admin is the guardian account
    rw [hstep, hact, step_of_succeeds hsucc] at h
    exact (h g hadm).1 rfl
  · intro env caller hact hauth hpending hnot g hg
    have hsucc : Succeeds X env (.acceptAdmin caller) t.pre _ :=
      ⟨.unit, done_eq_ok.mpr ⟨acceptAdmin_ok.mpr ⟨hauth, hpending, hnot, rfl⟩, rfl⟩⟩
    -- the new admin is still in the set
    rw [hstep, hact, step_of_succeeds hsucc] at h
    exact (h caller rfl).2 g hg

/-- **The roles stay separated exactly in the runs that use neither gap.** -/
theorem roles_separated_iff (X : Externs) (b : Address → Address → Nat) (t s : Nat)
    (as : List Action) :
    (∀ bs cs, as = bs ++ cs → RolesSeparated (run (step X) (genesis b t s) bs)) ↔
      ∀ tr ∈ trace (step X) (genesis b t s) as, KeepsRolesApart tr := by
  constructor
  · intro h tr htr
    obtain ⟨bs, cs, has, hpre, hpost⟩ := mem_trace (step X) htr
    refine .of_separated hpost ?_
    rw [hpost, hpre, ← run_concat (step X)]
    exact h (bs ++ [tr.act]) cs (by rw [has, List.append_assoc]; rfl)
  · intro hC bs cs has
    subst has
    have h0 : RolesInOrder (genesis b t s) :=
      ⟨fun a ha => (by cases ha), fun _ => ⟨rfl, rfl⟩⟩
    refine (run_call_invariant RolesInOrder KeepsRolesApart h0
      (fun hI hc hsucc => hsucc.effect.rolesInOrder hI hc)
      (fun _ _ hI => ⟨hI.separated, hI.adminFirst⟩)
      (fun _ hI => ⟨hI.separated, hI.adminFirst⟩) bs fun tr htr => hC tr ?_).separated
    rw [trace_append]
    exact List.mem_append_left _ htr

/-- **Both gaps can be used**: the admin makes itself the guardian account, and
a member of the guardian set becomes admin. -/
theorem roles_joined :
    ¬RolesSeparated (sampleRun
        [.call everybody (.initializeContract ⟨1⟩ 0), .call everybody (.setGuardian ⟨1⟩)])
      ∧ ¬RolesSeparated (sampleRun
        [.call everybody (.initializeContract ⟨1⟩ 0),
          .call everybody (.initializeGuardians [⟨⟨2⟩, 1⟩]),
          .call everybody (.proposeAdmin ⟨2⟩),
          .call everybody (.acceptAdmin ⟨2⟩)]) := by
  constructor
  · intro h
    exact (h ⟨1⟩ rfl).1 rfl
  · intro h
    exact (h ⟨2⟩ rfl).2 ⟨⟨2⟩, 1⟩ (by decide) rfl

end PredictIQ.Contract
