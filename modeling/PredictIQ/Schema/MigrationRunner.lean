/-
  PredictIQ.Schema.MigrationRunner: the embedded migrations, the database, and
  `MigrationRunner::run`.

  Every SQL statement outside a transaction is one question to the database,
  and so is the whole transaction of `apply`.  A call keeps one session for
  the advisory lock; its other statements run on sessions of their own.  The
  contents of the migration files and what they do to the schema are
  parameters; only the file of migration 000 creates `schema_migrations`.
-/
import PredictIQ.Foundation.Process
import PredictIQ.Foundation.SessionLock
import Mathlib.Data.List.Sort

namespace PredictIQ.Schema

open Foundation
open Prog (attempt fail)

/-! ## §1. Migrations. -/

/-- What a schema can be, what SQL does to it (`none` when it fails), and the migration files. -/
structure Setting where
  Tables : Type
  effect : String → Tables → Option Tables
  file : String → String
  sha256Hex : String → String

structure Migration where
  version : String
  name : String
  sql : String
  deriving DecidableEq

structure AppliedMigration where
  version : String
  name : String
  appliedAt : Nat
  checksum : String
  deriving DecidableEq

/-- A statement of the transaction in `apply`. -/
inductive TxStatement where
  | rawSql (sql : String)
  | record (version name checksum : String)
  deriving DecidableEq

section Migrations

variable (W : Setting)

/-- A migration embedded from its file. -/
def Setting.embed (version name : String) : Migration :=
  ⟨version, name, W.file ("../database/migrations/" ++ name ++ ".sql")⟩

def bootstrap : Migration := W.embed "000" "000_create_schema_migrations"

def migrations : List Migration :=
  [ bootstrap W,
    W.embed "001" "001_enable_pgcrypto",
    W.embed "002" "002_create_newsletter_subscriptions",
    W.embed "003" "003_create_contact_form_submissions",
    W.embed "004" "004_create_waitlist_entries",
    W.embed "005" "005_create_content_management",
    W.embed "006" "006_create_analytics_events",
    W.embed "007" "007_create_audit_logs",
    W.embed "008" "008_create_email_tracking",
    W.embed "011" "011_create_markets",
    W.embed "017" "017_create_email_dead_letter_jobs",
    W.embed "017b" "017_add_soft_delete_markets",
    W.embed "017c" "017_add_analytics_events_market_id",
    W.embed "018" "018_add_email_tracking_email_status_index",
    W.embed "018b" "018_add_varchar_constraints",
    W.embed "019" "019_add_newsletter_confirmed_at_index",
    W.embed "020" "020_add_audit_log_actor_time_index" ]

/-- The checksum of a migration. -/
def Migration.checksum (migration : Migration) : String := W.sha256Hex migration.sql

/-- The transaction of `apply`: version 000 is not recorded. -/
def Migration.statements (migration : Migration) : List TxStatement :=
  .rawSql migration.sql
    :: if migration.version != "000" then [.record migration.version migration.name (migration.checksum W)] else []

end Migrations

/-! ## §2. The database. -/

/-- `tracking` is the table `schema_migrations`, once it is there; `history` is
kept of the transactions that have been committed. -/
structure Database (W : Setting) where
  tables : W.Tables
  tracking : Option (List AppliedMigration)
  sessions : Sessions
  history : List (List TxStatement)

namespace Database

variable {W : Setting}

def rows (d : Database W) : List AppliedMigration := d.tracking.getD []

/-- `CREATE TABLE IF NOT EXISTS` for the tracking table; any other SQL is for the schema. -/
def rawSql (d : Database W) (sql : String) : Option (Database W) :=
  if sql = (bootstrap W).sql then some { d with tracking := some d.rows }
  else (W.effect sql d.tables).map fun tables => { d with tables := tables }

/-- `INSERT INTO schema_migrations ... ON CONFLICT (version) DO NOTHING`. -/
def record (d : Database W) (now : Nat) (version name checksum : String) : Option (Database W) :=
  d.tracking.map fun rows =>
    if rows.any (·.version == version) then d
    else { d with tracking := some (rows ++ [⟨version, name, now, checksum⟩]) }

def perform (now : Nat) : Database W → List TxStatement → Option (Database W)
  | d, [] => some d
  | d, .rawSql sql :: rest => (d.rawSql sql).bind (perform now · rest)
  | d, .record version name checksum :: rest => (d.record now version name checksum).bind (perform now · rest)

def commit (d : Database W) (now : Nat) (statements : List TxStatement) : Option (Database W) :=
  (perform now d statements).map fun d' => { d' with history := d'.history ++ [statements] }

end Database

inductive Statement where
  | rawSql (sql : String)
  | acquire
  | pgTryAdvisoryLock (session : Nat)
  | pgAdvisoryUnlock (session : Nat)
  | release (session : Nat)
  | selectApplied
  | countVersion (version : String)
  | transaction (statements : List TxStatement)

@[reducible] def Reply : Statement → Type
  | .acquire => Nat
  | .pgTryAdvisoryLock _ | .pgAdvisoryUnlock _ => Bool
  | .selectApplied => List AppliedMigration
  | .countVersion _ => Nat
  | .rawSql _ | .release _ | .transaction _ => Unit

/-- The session the pool hands out, and the time. -/
structure Choice where
  session : Nat
  now : Nat

section Server

variable {W : Setting}

def exec (o : Choice) (d : Database W) : (q : Statement) → Option (Reply q × Database W)
  | .rawSql sql => (d.rawSql sql).map fun d' => ((), d')
  | .acquire => (d.sessions.checkOut o.session).map fun c => (o.session, { d with sessions := c })
  | .pgTryAdvisoryLock session => (d.sessions.tryLock session).map fun bc => (bc.1, { d with sessions := bc.2 })
  | .pgAdvisoryUnlock session => (d.sessions.unlock session).map fun bc => (bc.1, { d with sessions := bc.2 })
  | .release session => some ((), { d with sessions := d.sessions.checkIn session })
  | .selectApplied => d.tracking.map fun rows => (rows.insertionSort (·.version ≤ ·.version), d)
  | .countVersion version => d.tracking.map fun rows => (rows.countP (·.version == version), d)
  | .transaction statements => (d.commit o.now statements).map fun d' => ((), d')

variable (W) in
/-- Putting a session back is not a statement, and does not fail. -/
def server : Server Reply (Database W) Choice where
  exec := exec
  fallible
    | .release _ => false
    | _ => true

/-- A session ends. -/
inductive Outside where
  | endSession (session : Nat)

def outside : Outside → Database W → Database W
  | .endSession session, d => { d with sessions := d.sessions.close session }

end Server

/-! ## §3. The runner. -/

abbrev Db : Type → Type := Prog Reply String

def ask (q : Statement) : Db (Reply q) := .call q

/-- An error under a description of what was being done. -/
def withContext {α : Type} (p : Db α) (msg : String) : Db α := p.mapError fun e => msg ++ ": " ++ e

section Runner

variable (W : Setting)

def ensureTrackingTable : Db Unit :=
  match (migrations W).find? (·.version == "000") with
  | some bootstrap => withContext (ask (.rawSql bootstrap.sql)) "failed to create schema_migrations table"
  | none => fail "000_create_schema_migrations must be present"

def isApplied (version : String) : Db Bool := do
  let count ← withContext (ask (.countVersion version)) "failed to check migration version"
  pure (decide (count > 0))

def apply (migration : Migration) : Db Unit := ask (.transaction (migration.statements W))

/-- One record against the migration of its version; a version that is unknown is skipped. -/
def verifyRecord (record : AppliedMigration) : Except String Unit :=
  match (migrations W).find? (·.version == record.version) with
  | none => .ok ()
  | some migration =>
      let expected := migration.checksum W
      if expected ≠ record.checksum then
        .error ("migration checksum mismatch for version " ++ record.version ++ " (" ++ record.name ++ "): stored="
          ++ record.checksum ++ ", computed=" ++ expected)
      else .ok ()

def verifyRecords : List AppliedMigration → Except String Unit
  | [] => .ok ()
  | record :: rest =>
      match verifyRecord W record with
      | .ok () => verifyRecords rest
      | .error e => .error e

def verifyChecksums : Db Unit := do
  let applied ← withContext (ask .selectApplied) "failed to query schema_migrations for checksum verification"
  .done (verifyRecords W applied)

/-- The loop over the migrations. -/
def applyPending : List Migration → Nat → Db Nat
  | [], applied => pure applied
  | migration :: rest, applied => do
      if ← isApplied migration.version then applyPending rest applied
      else
        withContext (apply W migration) ("failed to apply migration " ++ migration.name)
        applyPending rest (applied + 1)

def runInner : Db Nat := do
  verifyChecksums W
  applyPending W (migrations W) 0

/-- The pending migrations are looked up and printed, not applied. -/
def lookUpAll : List Migration → Db Unit
  | [] => pure ()
  | migration :: rest => do
      let _ ← isApplied migration.version
      lookUpAll rest

def dryRun : Db Nat := do
  ensureTrackingTable W
  lookUpAll (migrations W)
  pure 0

/-- Inside the lock: the run, and then the unlock, whose failure is ignored. -/
def runLocked (session : Nat) : Db (Except String Nat) := do
  let result ← attempt (runInner W)
  let _ ← attempt (ask (.pgAdvisoryUnlock session))
  pure result

/-- `run`; `isDryRun` is what `MIGRATE_DRY_RUN` says.  The session goes back to
the pool on every path. -/
def run (isDryRun : Bool) : Db Nat :=
  if isDryRun then dryRun W
  else do
    ensureTrackingTable W
    let session ← withContext (ask .acquire) "acquire advisory lock connection"
    let locked ← attempt (withContext (ask (.pgTryAdvisoryLock session)) "acquire migration advisory lock")
    let result ← match locked with
      | .error e => pure (.error e)
      | .ok false => pure (.error ("another instance holds the migration advisory lock — "
          ++ "aborting to prevent concurrent migration execution"))
      | .ok true => runLocked W session
    let _ ← attempt (ask (.release session))
    .done result

/-! ## §4. Instances. -/

abbrev System : Type := Machine Nat Reply String (Database W)
abbrev Action : Type := Act Nat Bool String Choice Outside

/-- A call of `run` by an instance, started with or without `MIGRATE_DRY_RUN`. -/
def body (_ : Nat) (isDryRun : Bool) : Db Unit := do
  let _ ← run W isDryRun
  pure ()

def step : System W → Action → System W := Machine.step (server W) (body W) outside

end Runner

/-! ## §5. What the statements do. -/

section Lemmas

variable {W : Setting} {m m' : Migration} {d d' : Database W} {now : Nat}

theorem versions_nodup : ((migrations W).map (·.version)).Nodup := by
  show ["000", "001", "002", "003", "004", "005", "006", "007", "008", "011", "017", "017b", "017c", "018", "018b", "019",
    "020"].Nodup
  decide

theorem eq_of_version_eq (hm : m ∈ migrations W) (hm' : m' ∈ migrations W) (h : m.version = m'.version) : m = m' :=
  List.inj_on_of_nodup_map versions_nodup hm hm' h

theorem find_version (hm : m ∈ migrations W) : (migrations W).find? (·.version == m.version) = some m := by
  cases hfind : (migrations W).find? (·.version == m.version) with
  | none => simpa using List.find?_eq_none.mp hfind m hm
  | some m' =>
      have hversion : m'.version = m.version := by simpa using List.find?_some hfind
      rw [eq_of_version_eq (List.mem_of_find?_eq_some hfind) hm hversion]

theorem ensureTrackingTable_eq : ensureTrackingTable W
    = withContext (ask (.rawSql (bootstrap W).sql)) "failed to create schema_migrations table" := rfl

/-- The transactions tell the migrations apart. -/
theorem statements_inj (hm : m ∈ migrations W) (hm' : m' ∈ migrations W) (h : m.statements W = m'.statements W) :
    m = m' := by
  refine eq_of_version_eq hm hm' ?_
  unfold Migration.statements at h
  by_cases h0 : m.version = "000" <;> by_cases h0' : m'.version = "000" <;> simp_all

/-- A version that is recorded. -/
def Database.IsRecorded (d : Database W) (version : String) : Prop := ∃ row ∈ d.rows, row.version = version

theorem count_pos_iff {version : String} : d.rows.countP (·.version == version) > 0 ↔ d.IsRecorded version := by
  simp [List.countP_pos_iff, Database.IsRecorded]

theorem rawSql_eq_some {sql : String} (h : d.rawSql sql = some d') :
    d'.rows = d.rows ∧ d'.sessions = d.sessions ∧ d'.history = d.history := by
  unfold Database.rawSql at h
  split at h
  · cases h
    exact ⟨rfl, rfl, rfl⟩
  · obtain ⟨tables, -, rfl⟩ := Option.map_eq_some_iff.mp h
    exact ⟨rfl, rfl, rfl⟩

theorem record_eq_some {version name checksum : String} (h : d.record now version name checksum = some d') :
    d'.sessions = d.sessions ∧ d'.history = d.history
      ∧ ∀ row, row ∈ d'.rows ↔ row ∈ d.rows ∨ ¬d.IsRecorded version ∧ row = ⟨version, name, now, checksum⟩ := by
  obtain ⟨rows, hrows, rfl⟩ := Option.map_eq_some_iff.mp h
  have hd : d.rows = rows := by simp [Database.rows, hrows]
  have hany : rows.any (·.version == version) = true ↔ d.IsRecorded version := by
    simp [Database.IsRecorded, hd]
  split
  · rename_i hrecorded
    exact ⟨rfl, rfl, fun row => by simp [hany.mp hrecorded]⟩
  · rename_i hrecorded
    have hnot : ¬d.IsRecorded version := fun h => hrecorded (hany.mpr h)
    exact ⟨rfl, rfl, fun row => by simp [Database.rows, hrows, hnot]⟩

/-- **The transaction of a migration**: what it records is its version with its
checksum, where the version was not recorded. -/
theorem commit_eq_some (h : d.commit now (m.statements W) = some d') :
    d'.sessions = d.sessions ∧ d'.history = d.history ++ [m.statements W]
      ∧ ∀ row, row ∈ d'.rows ↔ row ∈ d.rows
        ∨ m.version ≠ "000" ∧ ¬d.IsRecorded m.version ∧ row = ⟨m.version, m.name, now, m.checksum W⟩ := by
  obtain ⟨d₂, hperform, rfl⟩ := Option.map_eq_some_iff.mp h
  unfold Migration.statements at hperform
  obtain ⟨d₁, hsql, hrest⟩ := Option.bind_eq_some_iff.mp hperform
  obtain ⟨hrows, hsessions, hhistory⟩ := rawSql_eq_some hsql
  have hsame : ∀ version, d₁.IsRecorded version ↔ d.IsRecorded version := fun version => by
    simp [Database.IsRecorded, hrows]
  by_cases h0 : m.version = "000"
  · simp only [h0, bne_self_eq_false, Bool.false_eq_true, if_false] at hrest
    cases hrest
    refine ⟨hsessions, by rw [hhistory], fun row => ?_⟩
    show row ∈ d₂.rows ↔ _
    simp [h0, hrows]
  · have hrest : (d₁.record now m.version m.name (m.checksum W)).bind (Database.perform now · []) = some d₂ := by
      simpa [h0, Database.perform] using hrest
    obtain ⟨d₃, hrecord, hdone⟩ := Option.bind_eq_some_iff.mp hrest
    cases hdone
    obtain ⟨hsessions', hhistory', hmem⟩ := record_eq_some hrecord
    refine ⟨hsessions'.trans hsessions, by rw [hhistory', hhistory], fun row => ?_⟩
    show row ∈ d₂.rows ↔ _
    rw [hmem, hrows, hsame]
    simp [h0]

end Lemmas

end PredictIQ.Schema
