/-
  PredictIQ.Contract.Admin: `admin.rs`.

  The Admin role, its two-step transfer, the single guardian account and the
  governance token.  `ensureNotGuardian` consults the guardian account only;
  the guardian set of `governance.rs` is a different store.
-/
import PredictIQ.Contract.Host

namespace PredictIQ.Contract

open Foundation Tx

/-! ## §1. The functions. -/

def setAdmin (admin : Address) : Body Unit :=
  update fun w => { w with admin.admin := some admin }

def getAdmin : Body (Option Address) := reads (·.admin.admin)

/-- The admin, or the contract itself when none is set (event payloads). -/
def adminOrSelf : Body Address := reads fun w => w.admin.admin.getD currentContractAddress

def requireAdmin : Body Unit := do
  let admin ← orErr (← getAdmin) .notAuthorized
  requireAuth admin

def getGuardian : Body (Option Address) := reads (·.admin.guardianAccount)

def ensureNotGuardian (candidate : Address) : Body Unit := do
  let guardian ← getGuardian
  failIf (guardian = some candidate) .notAuthorized

def proposeAdmin (newAdmin : Address) : Body Unit := do
  requireAdmin
  ensureNotGuardian newAdmin
  update fun w => { w with admin.pendingAdmin := some newAdmin }

def acceptAdmin (caller : Address) : Body Unit := do
  requireAuth caller
  let pending ← orErr (← reads (·.admin.pendingAdmin)) .pendingTransferNotFound
  failIf (pending ≠ caller) .notPendingOwner
  ensureNotGuardian pending
  -- the guardian set is not consulted
  setAdmin pending
  update fun w => { w with admin.pendingAdmin := none }

def cancelAdminTransfer : Body Unit := do
  requireAdmin
  let pending ← reads (·.admin.pendingAdmin)
  failIf (pending = none) .pendingTransferNotFound
  update fun w => { w with admin.pendingAdmin := none }

def setGuardian (guardian : Address) : Body Unit := do
  requireAdmin
  -- the admin is not compared with the new account
  update fun w => { w with admin.guardianAccount := some guardian }

def setGovernanceToken (token : Address) : Body Unit := do
  requireAdmin
  update fun w => { w with admin.governanceToken := some token }

/-! ## §2. What each leaves behind. -/

/-- The call carries the stored admin's authorisation. -/
def ByAdmin (env : Env) (w : World) : Prop :=
  ∃ a, w.admin.admin = some a ∧ env.authorized a = true

section Rules

variable {env : Env} {w w' : World} {u : Unit}

@[simp] theorem requireAdmin_ok :
    requireAdmin env w = (.ok u, w') ↔ ByAdmin env w ∧ w = w' := by
  simp only [requireAdmin, getAdmin, bind_eq_ok, reads_eq_ok, orErr_ok, requireAuth_ok, ByAdmin,
    and_assoc, exists_and_left, exists_eq_left']
  constructor
  · intro h
    obtain ⟨a, ha, hauth, hw'⟩ := h
    exact ⟨⟨a, ha, hauth⟩, hw'⟩
  · intro h
    obtain ⟨⟨a, ha, hauth⟩, hw'⟩ := h
    exact ⟨a, ha, hauth, hw'⟩

/-- The check writes nothing, passed or not. -/
theorem requireAdmin_state (env : Env) (w : World) : (requireAdmin env w).2 = w := by
  unfold requireAdmin getAdmin
  rw [reads_bind]
  cases w.admin.admin with
  | none => rfl
  | some a => exact requireAuth_state a env w

@[simp] theorem adminOrSelf_ok {a : Address} :
    adminOrSelf env w = (.ok a, w') ↔ w.admin.admin.getD currentContractAddress = a ∧ w = w' :=
  reads_eq_ok

@[simp] theorem ensureNotGuardian_ok {candidate : Address} :
    ensureNotGuardian candidate env w = (.ok u, w')
      ↔ w.admin.guardianAccount ≠ some candidate ∧ w = w' := by
  simp [ensureNotGuardian, getGuardian, and_comm]

theorem proposeAdmin_ok {newAdmin : Address} :
    proposeAdmin newAdmin env w = (.ok u, w') ↔
      ByAdmin env w ∧ w.admin.guardianAccount ≠ some newAdmin
        ∧ w' = { w with admin.pendingAdmin := some newAdmin } := by
  simp [proposeAdmin, and_assoc]

theorem acceptAdmin_ok {caller : Address} :
    acceptAdmin caller env w = (.ok u, w') ↔
      env.authorized caller = true ∧ w.admin.pendingAdmin = some caller
        ∧ w.admin.guardianAccount ≠ some caller
        ∧ w' = { w with admin.admin := some caller, admin.pendingAdmin := none } := by
  simp only [acceptAdmin, setAdmin, bind_eq_ok, reads_eq_ok, orErr_ok, requireAuth_ok, failIf_ok,
    ensureNotGuardian_ok, update_eq_ok, and_assoc, exists_and_left, exists_eq_left',
    exists_eq_left, exists_const]
  constructor
  · intro h
    obtain ⟨hauth, p, hp, heq, hg, hw'⟩ := h
    have hpc : p = caller := not_not.mp heq
    subst hpc
    exact ⟨hauth, hp, hg, hw'⟩
  · intro h
    obtain ⟨hauth, hp, hg, hw'⟩ := h
    exact ⟨hauth, caller, hp, not_not.mpr rfl, hg, hw'⟩

theorem cancelAdminTransfer_ok :
    cancelAdminTransfer env w = (.ok u, w') ↔
      ByAdmin env w ∧ w.admin.pendingAdmin ≠ none
        ∧ w' = { w with admin.pendingAdmin := none } := by
  simp [cancelAdminTransfer, and_assoc]

theorem setGuardian_ok {guardian : Address} :
    setGuardian guardian env w = (.ok u, w') ↔
      ByAdmin env w ∧ w' = { w with admin.guardianAccount := some guardian } := by
  simp [setGuardian, and_assoc]

theorem setGovernanceToken_ok {token : Address} :
    setGovernanceToken token env w = (.ok u, w') ↔
      ByAdmin env w ∧ w' = { w with admin.governanceToken := some token } := by
  simp [setGovernanceToken, and_assoc]

end Rules

end PredictIQ.Contract
