/-
  PredictIQ.Safety.MigrationRollback: what a migration leaves behind.

  Every exit of `execute_migration` drops the snapshot.  On an error the two
  keys it holds are put back first, and nothing else: what `migration_fn`
  wrote elsewhere stays, an entry of the migration log included.  On success
  the snapshot is gone too, so that `reverse_migration` finds none.
-/
import PredictIQ.Contract.Migration
import PredictIQ.Contract.Entrypoints

namespace PredictIQ.Contract

open Foundation Tx

/-! ## §1. Rollback. -/

/-- The function leaves the key `migration:backup:v{version}` as it finds it. -/
def LeavesBackup (version : Nat) (migrationFn : Migration Unit) : Prop :=
  ∀ env s, (migrationFn env s).2.migrations.backup.lookup version
    = s.migrations.backup.lookup version

/-- What is left of `s` when the migration failed: both keys are as they were,
present or absent, the snapshot is gone, and the log is the function's. -/
structure RolledBack (env : Env) (s : Ledger) (fromVersion : Nat) (migrationFn : Migration Unit)
    (s' : Ledger) : Prop where
  admin : s'.world.admin.admin = s.world.admin.admin
  guardianSet : s'.world.governance.guardianSet = s.world.governance.guardianSet
  log : s'.migrations.log = (migrationFn env (s.backedUp fromVersion)).2.migrations.log
  backup : s'.migrations.backup.lookup fromVersion = none

/-- What is left when it went through. -/
structure MigrationRecorded (fromVersion toVersion : Nat) (s' : Ledger) : Prop where
  intact : s'.Intact
  log : s'.migrations.log.lookup toVersion
    = some { fromVersion := fromVersion, toVersion := toVersion, timestamp := s'.world.timestamp }
  backup : s'.migrations.backup.lookup fromVersion = none

variable {env : Env} {s : Ledger} {fromVersion toVersion : Nat} {migrationFn : Migration Unit}

/-- The function hands back the snapshot it found. -/
theorem LeavesBackup.snapshot (h : LeavesBackup fromVersion migrationFn) (env : Env) (s : Ledger) :
    (migrationFn env (s.backedUp fromVersion)).2.migrations.backup.lookup fromVersion
      = some s.snapshot := by
  rw [h]
  exact AList.lookup_insert _

/-- A state whose snapshot was put back. -/
theorem rolledBack_restored :
    RolledBack env s fromVersion migrationFn
      ((migrationFn env (s.backedUp fromVersion)).2.restored fromVersion s.snapshot) :=
  ⟨rfl, rfl, rfl, AList.lookup_erase _ _⟩

theorem migrationRecorded_migrated {v : Ledger} (h : v.Intact) :
    MigrationRecorded fromVersion toVersion (v.migrated fromVersion toVersion) :=
  ⟨h, AList.lookup_insert _, AList.lookup_erase _ _⟩

/-- The exits of a migration: recorded, rolled back for a missing key or for an
error of the function, or trapped. -/
theorem executeMigration_cases (env : Env) (s : Ledger) (hlt : fromVersion < toVersion)
    (hf : LeavesBackup fromVersion migrationFn) :
    (∃ s', executeMigration fromVersion toVersion migrationFn env s = (.ok (), s')
        ∧ MigrationRecorded fromVersion toVersion s')
      ∨ (∃ err s', executeMigration fromVersion toVersion migrationFn env s
          = (.error (.error err), s') ∧ RolledBack env s fromVersion migrationFn s')
      ∨ ∃ s', executeMigration fromVersion toVersion migrationFn env s = (.error .trap, s') := by
  have hsnapshot := hf.snapshot env s
  rw [executeMigration_eq hlt]
  cases hresult : (migrationFn env (s.backedUp fromVersion)).1 with
  | ok u =>
      by_cases hintact : (migrationFn env (s.backedUp fromVersion)).2.Intact
      · exact Or.inl ⟨_, finishMigration_intact hintact, migrationRecorded_migrated hintact⟩
      · exact Or.inr (Or.inl ⟨_, _, finishMigration_broken hintact hsnapshot, rolledBack_restored⟩)
  | error e =>
      cases e with
      | error err =>
          exact Or.inr (Or.inl ⟨_, _, finishMigration_error hsnapshot, rolledBack_restored⟩)
      | trap => exact Or.inr (Or.inr ⟨_, rfl⟩)

/-- **Rollback**: a migration that returns an error leaves both keys as they were,
drops the snapshot and adds nothing of its own to the log; one that returns
`Ok` is recorded with both keys present. -/
theorem migration_rollback (env : Env) (s : Ledger) (hlt : fromVersion < toVersion)
    (hf : LeavesBackup fromVersion migrationFn) :
    (∀ err s', executeMigration fromVersion toVersion migrationFn env s
        = (.error (.error err), s') → RolledBack env s fromVersion migrationFn s')
      ∧ ∀ s', executeMigration fromVersion toVersion migrationFn env s = (.ok (), s') →
          MigrationRecorded fromVersion toVersion s' := by
  have hcases := executeMigration_cases env s hlt hf
  refine ⟨?_, ?_⟩
  · intro err s' h
    rcases hcases with ⟨_, hok, _⟩ | ⟨_, _, herr, hback⟩ | ⟨_, htrap⟩
    · rw [hok] at h
      cases h
    · rw [herr] at h
      cases h
      exact hback
    · rw [htrap] at h
      cases h
  · intro s' h
    rcases hcases with ⟨_, hok, hrec⟩ | ⟨_, _, herr, _⟩ | ⟨_, htrap⟩
    · rw [hok] at h
      cases h
      exact hrec
    · rw [herr] at h
      cases h
    · rw [htrap] at h
      cases h

/-- A deployment with an admin and one guardian. -/
def sampleLedger : Ledger where
  world := sampleRun [.call everybody (.initializeContract ⟨1⟩ 0),
    .call everybody (.initializeGuardians [⟨⟨2⟩, 1⟩])]

/-- A migration that logs its own completion, and then fails. -/
def sampleSelfLogging : Migration Unit := do
  recordMigration 1 2
  abort (.error .overflow)

theorem sampleSelfLogging_leavesBackup : LeavesBackup 1 sampleSelfLogging := by
  intro env s
  rfl

/-- **Its entry stays in the log**, and the rest is rolled back. -/
theorem sampleSelfLogging_logged :
    LeavesBackup 1 sampleSelfLogging
      ∧ (executeMigration 1 2 sampleSelfLogging everybody sampleLedger).1
        = .error (.error .overflow)
      ∧ sampleLedger.migrations.log.lookup 2 = none
      ∧ (executeMigration 1 2 sampleSelfLogging everybody sampleLedger).2.migrations.log.lookup 2
        = some ⟨1, 2, 0⟩ :=
  ⟨sampleSelfLogging_leavesBackup, rfl, rfl, rfl⟩

/-- The admin and the guardian are there after that failure. -/
theorem sampleSelfLogging_rolledBack :
    RolledBack everybody sampleLedger 1 sampleSelfLogging
      (executeMigration 1 2 sampleSelfLogging everybody sampleLedger).2 :=
  (migration_rollback everybody sampleLedger (by decide : 1 < 2)
    sampleSelfLogging_leavesBackup).1 .overflow _ rfl

/-! ## §2. Reversal. -/

/-- Without a snapshot there is nothing to reverse to. -/
theorem reverseMigration_of_none (hlt : fromVersion < toVersion)
    (h : s.migrations.backup.lookup fromVersion = none) :
    reverseMigration fromVersion toVersion env s = (.error (.error .notAuthorized), s) := by
  unfold reverseMigration
  rw [rejectIf_of_neg (not_le.mpr hlt)]
  show (restoreStorageState fromVersion >>= _) env s = _
  exact bind_of_error (restoreStorageState_of_none h)

/-- A migration that went through had growing versions, and dropped its snapshot. -/
theorem executeMigration_ok {s' : Ledger}
    (h : executeMigration fromVersion toVersion migrationFn env s = (.ok (), s')) :
    fromVersion < toVersion ∧ s'.migrations.backup.lookup fromVersion = none := by
  obtain ⟨_, _, hreject, _⟩ := bind_eq_ok.mp h
  have hlt : fromVersion < toVersion := not_le.mp (rejectIf_eq_ok.mp hreject).1
  refine ⟨hlt, ?_⟩
  rw [executeMigration_eq hlt] at h
  cases hresult : (migrationFn env (s.backedUp fromVersion)).1 with
  | ok u =>
      rw [hresult] at h
      -- the last write of the success branch
      simp only [finishMigration, bind_eq_ok, update_eq_ok] at h
      obtain ⟨_, _, _, _, _, _, _, v, _, rfl⟩ := h
      exact AList.lookup_erase _ _
  | error e =>
      rw [hresult] at h
      cases e with
      | error err => simp [finishMigration] at h
      | trap => simp [finishMigration] at h

/-- **A migration that went through cannot be reversed**: the snapshot that
`reverse_migration` restores from was dropped with the success. -/
theorem reverse_after_success {s' : Ledger}
    (h : executeMigration fromVersion toVersion migrationFn env s = (.ok (), s')) :
    reverseMigration fromVersion toVersion env s' = (.error (.error .notAuthorized), s') := by
  obtain ⟨hlt, hnone⟩ := executeMigration_ok h
  exact reverseMigration_of_none hlt hnone

/-- A migration that changes nothing goes through, and its reversal fails, with the
log entry in place. -/
theorem sampleLedger_irreversible :
    (executeMigration 1 2 (pure ()) everybody sampleLedger).1 = .ok ()
      ∧ reverseMigration 1 2 everybody
          (executeMigration 1 2 (pure ()) everybody sampleLedger).2
        = (.error (.error .notAuthorized),
            (executeMigration 1 2 (pure ()) everybody sampleLedger).2) :=
  ⟨rfl, rfl⟩

/-- The same from the theorem. -/
theorem sampleLedger_reverse_fails :
    (reverseMigration 1 2 everybody
      (executeMigration 1 2 (pure ()) everybody sampleLedger).2).1
        = .error (.error .notAuthorized) :=
  congrArg Prod.fst (reverse_after_success (Prod.ext rfl rfl :
    executeMigration 1 2 (pure ()) everybody sampleLedger
      = (.ok (), (executeMigration 1 2 (pure ()) everybody sampleLedger).2)))

end PredictIQ.Contract
