/-
  PredictIQ.Contract.Migration: `migration.rs`.

  A migration snapshots two keys, runs a function it is given, and keeps or
  restores the snapshot.  The function may change anything, so a migration
  runs over the contract's world together with the keys of this module:
  `migration:backup:v{n}` and `migration:log:v{n}`, by their version.
-/
import PredictIQ.Contract.Admin

namespace PredictIQ.Contract

open Foundation Tx

/-! ## §1. Storage. -/

structure MigrationBackup where
  admin : Option Address
  guardianSet : Option (List Guardian)
  deriving DecidableEq, Repr

structure MigrationLogEntry where
  fromVersion : Nat
  toVersion : Nat
  timestamp : Nat
  deriving DecidableEq, Repr

/-- The keys `migration:backup:v{n}` and `migration:log:v{n}`. -/
structure MigrationStore where
  backup : Store Nat MigrationBackup := ∅
  log : Store Nat MigrationLogEntry := ∅

/-- Everything a migration may read or write. -/
structure Ledger where
  world : World
  migrations : MigrationStore := {}

abbrev Migration (α : Type) : Type := Tx Env Abort Ledger α

/-! ## §2. The functions. -/

/-- The two keys a migration guarantees to restore. -/
def Ledger.snapshot (s : Ledger) : MigrationBackup where
  admin := s.world.admin.admin
  guardianSet := s.world.governance.guardianSet

def backupStorageState (version : Nat) : Migration Unit :=
  update fun s => { s with
    migrations.backup := s.migrations.backup.insert version s.snapshot }

/-- A key that was absent is removed, one that was present is set. -/
def restoreStorageState (version : Nat) : Migration Unit := do
  let backup ← okOr (← reads (·.migrations.backup.lookup version)) (.error .notAuthorized)
  update fun s => { s with world.admin.admin := backup.admin }
  update fun s => { s with world.governance.guardianSet := backup.guardianSet }
  update fun s => { s with migrations.backup := s.migrations.backup.erase version }

def recordMigration (fromVersion toVersion : Nat) : Migration Unit := do
  let timestamp ← reads (·.world.timestamp)
  let entry : MigrationLogEntry :=
    { fromVersion := fromVersion, toVersion := toVersion, timestamp := timestamp }
  update fun s => { s with migrations.log := s.migrations.log.insert toVersion entry }

def getMigrationLog (toVersion : Nat) : Migration (Option MigrationLogEntry) :=
  reads (·.migrations.log.lookup toVersion)

/-- `ConfigKey::Admin` and `ConfigKey::GuardianSet` are present. -/
def verifyMigrationIntegrity : Migration Bool :=
  reads fun s => s.world.admin.admin.isSome && s.world.governance.guardianSet.isSome

/-- `execute_migration`, past the match on what `migration_fn` returned. -/
def finishMigration (fromVersion toVersion : Nat) : Except Abort Unit → Migration Unit
  | .ok () => do
      let intact ← verifyMigrationIntegrity
      whenever (intact = false) do
        restoreStorageState fromVersion
        abort (.error .migrationValidationError)
      recordMigration fromVersion toVersion
      -- the snapshot is dropped with the success
      update fun s => { s with migrations.backup := s.migrations.backup.erase fromVersion }
  | .error (.error err) => do
      restoreStorageState fromVersion
      abort (.error err)
  -- a trap takes the whole transaction down
  | .error .trap => abort .trap

def executeMigration (fromVersion toVersion : Nat) (migrationFn : Migration Unit) :
    Migration Unit := do
  rejectIf (toVersion ≤ fromVersion) (.error .notAuthorized)
  backupStorageState fromVersion
  let result ← attempt migrationFn
  finishMigration fromVersion toVersion result

def reverseMigration (fromVersion toVersion : Nat) : Migration Unit := do
  rejectIf (toVersion ≤ fromVersion) (.error .notAuthorized)
  restoreStorageState fromVersion
  update fun s => { s with migrations.log := s.migrations.log.erase toVersion }

/-! ## §3. The stake check. -/

/-- The loop of `validate_stake_invariant` over the indices that are left;
`none` is an overflow of `checked_add`. -/
def sumOutcomeStakes (outcomeStakes : Store Nat Int) : List Nat → Int → Option Int
  | [], sum => some sum
  | outcomeIdx :: rest, sum =>
      match outcomeStakes.lookup outcomeIdx with
      | some stake => (checkedAdd sum stake).bind (sumOutcomeStakes outcomeStakes rest)
      | none => sumOutcomeStakes outcomeStakes rest sum

/-- The indices run below the number of keys, whatever the keys are. -/
def validateStakes (market : Market) : Except Abort Bool :=
  match sumOutcomeStakes market.outcomeStakes
      (List.range market.outcomeStakes.entries.length) 0 with
  | some sum => .ok (market.totalStaked = sum)
  | none => .error (.error .arithmeticOverflow)

def MarketStore.validateStakeInvariant (s : MarketStore) (marketId : Nat) : Except Abort Bool :=
  match s.market.lookup marketId with
  | some market => validateStakes market
  | none => .error (.error .marketNotFound)

/-- Ids without a market are passed over. -/
def MarketStore.validateStored (s : MarketStore) (marketId : Nat) : Except Abort Bool :=
  if (s.market.lookup marketId).isSome then s.validateStakeInvariant marketId else .ok true

/-- The loop of `validate_all_markets_stake_invariant` over the ids that are
left; the counter is a `u64`. -/
def MarketStore.validateMarkets (s : MarketStore) : List Nat → Except Abort Bool
  | [] => .ok true
  | marketId :: rest =>
      match s.validateStored marketId with
      | .error e => .error e
      | .ok false => .ok false
      | .ok true =>
          match addU64 marketId 1 with
          | some _ => s.validateMarkets rest
          | none => .error .trap

def MarketStore.validateAllMarketsStakeInvariant (s : MarketStore) (marketCount : Nat) :
    Except Abort Bool :=
  s.validateMarkets (List.range' 1 marketCount)

/-! ## §4. Rules. -/

/-- The state `migration_fn` starts from. -/
def Ledger.backedUp (s : Ledger) (version : Nat) : Ledger :=
  { s with migrations.backup := s.migrations.backup.insert version s.snapshot }

/-- The state after a snapshot was put back. -/
def Ledger.restored (s : Ledger) (version : Nat) (b : MigrationBackup) : Ledger :=
  { s with
    world.admin.admin := b.admin
    world.governance.guardianSet := b.guardianSet
    migrations.backup := s.migrations.backup.erase version }

/-- The state after a migration was recorded and its snapshot dropped. -/
def Ledger.migrated (s : Ledger) (fromVersion toVersion : Nat) : Ledger :=
  { s with
    migrations.log := s.migrations.log.insert toVersion
      { fromVersion := fromVersion, toVersion := toVersion, timestamp := s.world.timestamp }
    migrations.backup := s.migrations.backup.erase fromVersion }

/-- Both keys that `verify_migration_integrity` checks are there. -/
def Ledger.Intact (s : Ledger) : Prop :=
  s.world.admin.admin ≠ none ∧ s.world.governance.guardianSet ≠ none

section Rules

variable {env : Env} {s : Ledger} {version fromVersion toVersion : Nat}

/-- With a snapshot at hand, restoring puts it back and drops it. -/
theorem restoreStorageState_of_backup {b : MigrationBackup}
    (h : s.migrations.backup.lookup version = some b) :
    restoreStorageState version env s = (.ok (), s.restored version b) := by
  simp only [restoreStorageState, bind_eq_ok, reads_eq_ok, okOr_eq_ok, update_eq_ok, and_assoc,
    exists_and_left, exists_eq_left', exists_eq_left, exists_const]
  exact ⟨b, h, rfl⟩

/-- Without one it returns an error. -/
theorem restoreStorageState_of_none (h : s.migrations.backup.lookup version = none) :
    restoreStorageState version env s = (.error (.error .notAuthorized), s) := by
  unfold restoreStorageState
  rw [reads_bind, h]
  rfl

/-- A migration whose versions grow is the function, run on the state with the
snapshot, and then the exits. -/
theorem executeMigration_eq {migrationFn : Migration Unit} (h : fromVersion < toVersion) :
    executeMigration fromVersion toVersion migrationFn env s
      = finishMigration fromVersion toVersion (migrationFn env (s.backedUp fromVersion)).1 env
          (migrationFn env (s.backedUp fromVersion)).2 := by
  unfold executeMigration
  rw [rejectIf_of_neg (not_le.mpr h)]
  rfl

/-- The exit on success, with both keys there. -/
theorem finishMigration_intact (h : s.Intact) :
    finishMigration fromVersion toVersion (.ok ()) env s
      = (.ok (), s.migrated fromVersion toVersion) := by
  obtain ⟨a, ha⟩ := Option.ne_none_iff_exists'.mp h.1
  obtain ⟨gs, hgs⟩ := Option.ne_none_iff_exists'.mp h.2
  have hintact : verifyMigrationIntegrity env s = (.ok true, s) := by
    simp [verifyMigrationIntegrity, ha, hgs]
  simp only [finishMigration, bind_of_ok hintact]
  rfl

/-- The exit on success, with a key missing: the snapshot is put back. -/
theorem finishMigration_broken {b : MigrationBackup} (h : ¬s.Intact)
    (hb : s.migrations.backup.lookup fromVersion = some b) :
    finishMigration fromVersion toVersion (.ok ()) env s
      = (.error (.error .migrationValidationError), s.restored fromVersion b) := by
  have hbroken : verifyMigrationIntegrity env s = (.ok false, s) := by
    rw [verifyMigrationIntegrity, reads_eq_ok]
    refine ⟨?_, rfl⟩
    by_contra hsome
    rw [Bool.not_eq_false, Bool.and_eq_true, Option.isSome_iff_ne_none,
      Option.isSome_iff_ne_none] at hsome
    exact h hsome
  have hrestore : (restoreStorageState fromVersion >>= fun _ =>
      abort (.error .migrationValidationError) : Migration Unit) env s
      = (.error (.error .migrationValidationError), s.restored fromVersion b) := by
    rw [bind_of_ok (restoreStorageState_of_backup hb)]
    rfl
  simp only [finishMigration, bind_of_ok hbroken]
  rw [whenever_of_pos rfl]
  exact bind_of_error hrestore

/-- The exit on an error of the function: the snapshot is put back. -/
theorem finishMigration_error {b : MigrationBackup} {err : ErrorCode}
    (hb : s.migrations.backup.lookup fromVersion = some b) :
    finishMigration fromVersion toVersion (.error (.error err)) env s
      = (.error (.error err), s.restored fromVersion b) := by
  simp only [finishMigration, bind_of_ok (restoreStorageState_of_backup hb)]
  rfl

end Rules

end PredictIQ.Contract
