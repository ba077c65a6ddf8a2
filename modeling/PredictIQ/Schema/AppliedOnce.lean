/-
  PredictIQ.Schema.AppliedOnce: migrations are committed once, and in order.

  `Progress` holds in every run: a call that has passed a migration knows that
  it is committed and recorded, so commits keep the order of the list and a
  call that returns `Ok` leaves everything recorded.  `Exclusive` needs the
  advisory lock: what a call has found missing stays missing until it commits
  it, because nobody else is inside.  The lock is lost when its session ends,
  and the call does not notice: `sampleLostSession_twice` is a run in which
  two instances commit one migration.
-/
import PredictIQ.Schema.MigrationRunner
import PredictIQ.Foundation.TaskHistory
import PredictIQ.Foundation.Triple

namespace PredictIQ.Schema

open Foundation Monitor
open Prog (attempt fail)

/-! ## §1. The stages of a call. -/

/-- Where a call stands.  `rest` are the migrations it has not passed yet, and
`missing` says that the first of them was not recorded when it looked. -/
inductive Stage where
  | arriving
  | seated (session : Nat)
  | locked (session : Nat)
  | walking (session : Nat) (rest : List Migration) (missing : Bool)
  | leaving (session : Nat) (complete : Bool)
  | left (complete : Bool)
  deriving DecidableEq

section Stages

variable (W : Setting)

namespace Stage

def seat : Stage → Seat
  | .arriving | .left _ => .none
  | .seated s | .leaving s _ => .outside s
  | .locked s | .walking s .. => .inside s

/-- The migrations that a verified call has not passed. -/
def rest : Stage → Option (List Migration)
  | .walking _ rest _ => some rest
  | .leaving _ true | .left true => some []
  | _ => none

def isComplete : Stage → Bool
  | .walking _ [] _ | .leaving _ true => true
  | _ => false

/-- The first migration that has not been passed was found, or not, and is passed in the first case. -/
def counted (count : Nat) : Stage → Stage
  | .walking s (m :: rest) _ => if count > 0 then .walking s rest false else .walking s (m :: rest) true
  | φ => φ

def committed : Stage → Stage
  | .walking s (_ :: rest) true => .walking s rest false
  | φ => φ

def failed : Stage → Stage
  | .walking s rest true => .walking s rest false
  | φ => φ

def verified (rows : List AppliedMigration) : Stage → Stage
  | .locked s => if verifyRecords W rows = .ok () then .walking s (migrations W) false else .locked s
  | φ => φ

def next (φ : Stage) : (q : Statement) → Except String (Reply q) → Stage
  | .acquire, .ok s => .seated s
  | .pgTryAdvisoryLock s, .ok true => .locked s
  | .selectApplied, .ok rows => φ.verified W rows
  | .countVersion _, .ok count => φ.counted count
  | .transaction _, .ok () => φ.committed
  | .transaction _, .error _ => φ.failed
  | .pgAdvisoryUnlock s, _ => .leaving s φ.isComplete
  | .release _, _ => .left φ.isComplete
  | _, _ => φ

def allows (φ : Stage) : Statement → Prop
  | .rawSql sql => sql = (bootstrap W).sql
  | .acquire => φ = .arriving
  | .pgTryAdvisoryLock s => φ = .seated s
  | .pgAdvisoryUnlock s => φ.seat = .inside s
  | .release s => φ.seat = .outside s
  | .selectApplied => True
  | .countVersion version => ∀ s m rest b, φ = .walking s (m :: rest) b → version = m.version
  | .transaction statements => ∃ s m rest, φ = .walking s (m :: rest) true ∧ statements = m.statements W

end Stage

def stageMonitor : Monitor Reply String Stage := ⟨.arriving, Stage.next W, Stage.allows W⟩

/-! ## §2. The runner keeps to its stages. -/

variable {W}

/-- A call that is not a dry run returns `Ok` only when everything is passed. -/
def Passes (isDryRun : Bool) (φ : Stage) (res : Except String Unit) : Prop :=
  isDryRun = false → res = .ok () → φ.rest = some []

/-- An error under a description is an error. -/
theorem triple_withContext {α : Type} {A : Stage → Prop} {B : Stage → α → Prop} {E : Stage → Prop} {p : Db α} {msg : String}
    (h : (stageMonitor W).Triple A p B E) : (stageMonitor W).Triple A (withContext p msg) B E :=
  triple_mapError h

theorem triple_ensureTrackingTable {A : Stage → Prop} :
    (stageMonitor W).Triple A (ensureTrackingTable W) (fun φ _ => A φ) (fun _ => True) := by
  rw [ensureTrackingTable_eq]
  exact triple_withContext (triple_call (fun _ _ => rfl) (fun _ _ h => h) fun _ _ _ => trivial)

/-- Looking one migration up while it is the first that is not passed. -/
theorem triple_isApplied {session : Nat} {m : Migration} {rest : List Migration} :
    (stageMonitor W).Triple (· = .walking session (m :: rest) false) (isApplied m.version)
      (fun φ applied => φ = if applied then .walking session rest false else .walking session (m :: rest) true)
      (fun φ => φ.seat = .inside session) := by
  refine triple_bind (B := fun φ count => φ = Stage.counted count (.walking session (m :: rest) false))
    (triple_withContext (triple_call ?_ ?_ ?_)) fun count => triple_pure ?_
  · rintro φ rfl s m' rest' b heq
    cases heq
    rfl
  · rintro φ count rfl
    rfl
  · rintro φ e rfl
    rfl
  · rintro φ rfl
    by_cases hcount : count > 0 <;> simp [Stage.counted, hcount]

/-- **The loop** passes the migrations one by one. -/
theorem triple_applyPending {session : Nat} (rest : List Migration) (applied : Nat) :
    (stageMonitor W).Triple (· = .walking session rest false) (applyPending W rest applied)
      (fun φ _ => φ = .walking session [] false) (fun φ => φ.seat = .inside session) := by
  induction rest generalizing applied with
  | nil => exact triple_pure fun φ hφ => hφ
  | cons m rest ih =>
      refine triple_bind triple_isApplied fun isApplied => ?_
      cases isApplied with
      | true => exact ih applied
      | false =>
          refine triple_bind (B := fun φ _ => φ = .walking session rest false)
            (triple_withContext (triple_call ?_ ?_ ?_)) fun _ => ih (applied + 1)
          · rintro φ rfl
            exact ⟨session, m, rest, rfl, rfl⟩
          · rintro φ _ rfl
            rfl
          · rintro φ e rfl
            rfl

theorem triple_runInner {session : Nat} :
    (stageMonitor W).Triple (· = .locked session) (runInner W) (fun φ _ => φ = .walking session [] false)
      (fun φ => φ.seat = .inside session) := by
  have hverify : (stageMonitor W).Triple (· = .locked session) (verifyChecksums W)
      (fun φ _ => φ = .walking session (migrations W) false) (fun φ => φ.seat = .inside session) := by
    refine triple_bind (B := fun φ rows => φ = Stage.verified W rows (.locked session))
      (triple_withContext (triple_call (fun _ _ => trivial) ?_ ?_)) fun rows => triple_done ?_ ?_
    · rintro φ rows rfl
      rfl
    · rintro φ e rfl
      rfl
    · rintro φ u rfl hrows
      simp [Stage.verified, hrows]
    · rintro φ rfl
      show (if verifyRecords W rows = .ok () then Stage.walking session (migrations W) false else .locked session).seat = _
      split <;> rfl
  exact triple_bind hverify fun _ => triple_applyPending (migrations W) 0

/-- Inside the lock. -/
theorem triple_runLocked {session : Nat} :
    (stageMonitor W).Triple (· = .locked session) (runLocked W session)
      (fun φ result => φ.seat = .outside session ∧ (result.isOk = true → φ.isComplete = true)) (fun _ => True) := by
  have hunlock : ∀ {result : Except String Nat} {A : Stage → Prop}, (∀ φ, A φ → φ.seat = .inside session) →
      (∀ φ, A φ → result.isOk = true → φ.isComplete = true) →
      (stageMonitor W).Triple A (attempt (ask (.pgAdvisoryUnlock session)) >>= fun _ => pure result)
        (fun φ result => φ.seat = .outside session ∧ (result.isOk = true → φ.isComplete = true)) (fun _ => True) := by
    intro result A hseat hcomplete
    have hleft : ∀ φ, A φ → (Stage.leaving session φ.isComplete).seat = .outside session
        ∧ (result.isOk = true → (Stage.leaving session φ.isComplete).isComplete = true) := fun φ hφ =>
      ⟨rfl, fun hok => by rw [hcomplete φ hφ hok]; rfl⟩
    refine triple_attempt_bind (B := fun φ _ => φ.seat = .outside session ∧ (result.isOk = true → φ.isComplete = true))
      (D := fun φ => φ.seat = .outside session ∧ (result.isOk = true → φ.isComplete = true))
      (triple_call hseat (fun φ _ => hleft φ) fun φ _ => hleft φ) (fun _ => triple_pure fun φ hφ => hφ)
      fun _ => triple_pure fun φ hφ => hφ
  refine triple_attempt_bind triple_runInner (fun applied => ?_) fun e => ?_
  · refine hunlock ?_ ?_
    · rintro φ rfl
      rfl
    · rintro φ rfl _
      rfl
  · exact hunlock (fun φ hφ => hφ) fun φ _ hok => by cases hok

/-- Putting the session back, and returning what the run has come to. -/
theorem triple_release {session : Nat} (result : Except String Nat) :
    (stageMonitor W).Triple (fun φ => φ.seat = .outside session ∧ (result.isOk = true → φ.isComplete = true))
      (attempt (ask (.release session)) >>= fun _ => .done result) (fun φ _ => φ.rest = some []) (fun _ => True) := by
  have hleft : ∀ φ : Stage, (result.isOk = true → φ.isComplete = true) → result.isOk = true →
      (Stage.left φ.isComplete).rest = some [] := fun φ hφ hok => by
    rw [hφ hok]
    rfl
  have hdone : (stageMonitor W).Triple (fun φ => result.isOk = true → φ.rest = some []) (.done result)
      (fun φ _ => φ.rest = some []) (fun _ => True) :=
    triple_done (fun φ applied hφ hresult => hφ (by rw [hresult]; rfl)) fun _ _ => trivial
  exact triple_attempt_bind (triple_call (fun φ hφ => hφ.1) (fun φ _ hφ => hleft φ hφ.2) fun φ _ hφ => hleft φ hφ.2)
    (fun _ => hdone) fun _ => hdone

/-- **A call** that returns `Ok` has passed every migration. -/
theorem triple_run : (stageMonitor W).Triple (· = .arriving) (run W false) (fun φ _ => φ.rest = some []) (fun _ => True) := by
  unfold run
  simp only [Bool.false_eq_true, if_false]
  refine triple_bind triple_ensureTrackingTable fun _ => ?_
  refine triple_bind (B := fun φ session => φ = .seated session)
    (triple_withContext (triple_call (fun φ hφ => hφ) (fun _ _ _ => rfl) fun _ _ _ => trivial)) fun session => ?_
  have htry : (stageMonitor W).Triple (· = .seated session) (withContext (ask (.pgTryAdvisoryLock session))
      "acquire migration advisory lock") (fun φ locked => φ = if locked then .locked session else .seated session)
      (· = .seated session) := by
    refine triple_withContext (triple_call (fun φ hφ => hφ) (fun φ locked hφ => ?_) fun φ e hφ => hφ)
    cases locked with
    | true => rfl
    | false => exact hφ
  have hrefused : ∀ msg, (stageMonitor W).Triple (· = .seated session) (pure (.error msg) : Db (Except String Nat))
      (fun φ result => φ.seat = .outside session ∧ (result.isOk = true → φ.isComplete = true)) (fun _ => True) := by
    refine fun msg => triple_pure fun φ hφ => ⟨?_, fun hok => by cases hok⟩
    rw [hφ]
    rfl
  refine triple_attempt_bind htry (fun locked => ?_) fun e => ?_
  · cases locked with
    | true => exact triple_bind triple_runLocked triple_release
    | false => exact triple_bind (hrefused _) triple_release
  · exact triple_bind (hrefused e) triple_release

theorem triple_lookUpAll (rest : List Migration) :
    (stageMonitor W).Triple (· = .arriving) (lookUpAll rest) (fun φ _ => φ = .arriving) (fun _ => True) := by
  induction rest with
  | nil => exact triple_pure fun φ hφ => hφ
  | cons m rest ih =>
      have hcount : (stageMonitor W).Triple (· = .arriving) (isApplied m.version) (fun φ _ => φ = .arriving)
          (fun _ => True) := by
        refine triple_bind (B := fun φ _ => φ = .arriving) (triple_withContext (triple_call ?_ ?_ fun _ _ _ => trivial))
          fun count => triple_pure fun φ hφ => hφ
        · rintro φ rfl s m' rest' b heq
          cases heq
        · rintro φ count rfl
          rfl
      exact triple_bind hcount fun _ => ih

theorem obeys_body (p : Nat) (isDryRun : Bool) :
    (stageMonitor W).Obeys (Passes isDryRun) (stageMonitor W).start (body W p isDryRun) := by
  cases isDryRun with
  | true =>
      have hdry : (stageMonitor W).Triple (· = .arriving) (body W p true) (fun _ _ => True) (fun _ => True) :=
        triple_bind (triple_bind triple_ensureTrackingTable fun _ => triple_bind (triple_lookUpAll _) fun _ =>
          triple_pure (B := fun _ _ => True) fun _ _ => trivial) fun _ => triple_pure (B := fun _ _ => True) fun _ _ => trivial
      exact (hdry .arriving rfl).mono fun _ _ _ h => by cases h
  | false =>
      have hrun : (stageMonitor W).Triple (· = .arriving) (body W p false) (fun φ _ => φ.rest = some []) (fun _ => True) :=
        triple_bind triple_run fun _ => triple_pure fun φ hφ => hφ
      refine (hrun .arriving rfl).mono fun φ res hres _ hok => ?_
      subst hok
      exact hres

end Stages

/-! ## §3. What every run keeps. -/

section Books

variable {W : Setting} (rows₀ : List AppliedMigration)

/-- Recorded before the run began. -/
def Known (m : Migration) : Prop := ∃ row ∈ rows₀, row.version = m.version

/-- The transaction of a migration comes after those of all that are listed
before it and were not known. -/
def InOrder (history : List (List TxStatement)) : Prop :=
  ∀ before after done rest m, history = before ++ m.statements W :: after → migrations W = done ++ m :: rest →
    ∀ m' ∈ done, m'.statements W ∈ before ∨ Known rows₀ m'

/-- A migration is committed, and recorded unless it is 000. -/
def Passed (d : Database W) (m : Migration) : Prop :=
  (m.statements W ∈ d.history ∨ Known rows₀ m) ∧ (m.version ≠ "000" → d.IsRecorded m.version)

/-- A row with the checksum of the migration that it is for. -/
def Genuine (W : Setting) (row : AppliedMigration) : Prop :=
  ∀ m ∈ migrations W, m.version = row.version → row.checksum = m.checksum W

/-- Every migration other than 000 is recorded with its checksum. -/
def Recorded (d : Database W) : Prop :=
  ∀ m ∈ migrations W, m.version ≠ "000" → ∃ row ∈ d.rows, row.version = m.version ∧ row.checksum = m.checksum W

structure Progress (stages : Nat → Stage) (d : Database W) : Prop where
  rows : ∀ row ∈ d.rows, row ∈ rows₀ ∨ Genuine W row ∧ ∃ m ∈ migrations W, m.version = row.version
    ∧ m.statements W ∈ d.history
  kept : rows₀ ⊆ d.rows
  recorded : ∀ m ∈ migrations W, m.version ≠ "000" → m.statements W ∈ d.history → d.IsRecorded m.version
  ordered : InOrder (W := W) rows₀ d.history
  walked : ∀ p rest, (stages p).rest = some rest → (∀ row ∈ rows₀, Genuine W row)
    ∧ ∃ done, migrations W = done ++ rest ∧ ∀ m ∈ done, Passed rows₀ d m

variable {rows₀} {stages : Nat → Stage} {d d' : Database W} {m : Migration} {p : Nat}

theorem Passed.mono (h : Passed rows₀ d m) (hhistory : d.history ⊆ d'.history) (hrows : d.rows ⊆ d'.rows) :
    Passed rows₀ d' m := by
  refine ⟨h.1.imp_left fun hmem => hhistory hmem, fun h0 => ?_⟩
  obtain ⟨row, hmem, hversion⟩ := h.2 h0
  exact ⟨row, hrows hmem, hversion⟩

/-- What is recorded is committed or was known. -/
theorem Progress.passed (h : Progress rows₀ stages d) (hm : m ∈ migrations W) (hrecorded : d.IsRecorded m.version) :
    Passed rows₀ d m := by
  refine ⟨?_, fun _ => hrecorded⟩
  obtain ⟨row, hmem, hversion⟩ := hrecorded
  rcases h.rows row hmem with hold | ⟨-, m', hm', hversion', hcommitted⟩
  · exact .inr ⟨row, hold, hversion⟩
  · rw [eq_of_version_eq hm hm' (hversion.symm.trans hversion'.symm)]
    exact .inl hcommitted

/-- A call that has passed everything leaves everything recorded. -/
theorem Progress.complete (h : Progress rows₀ stages d) (hp : (stages p).rest = some []) : Recorded d := by
  obtain ⟨hgenuine, done, hall, hpassed⟩ := h.walked p [] hp
  intro m hm h0
  rw [List.append_nil] at hall
  obtain ⟨row, hmem, hversion⟩ := (hpassed m (hall ▸ hm)).2 h0
  refine ⟨row, hmem, hversion, ?_⟩
  rcases h.rows row hmem with hold | ⟨hnew, -⟩
  · exact hgenuine row hold m hm hversion.symm
  · exact hnew m hm hversion.symm

/-- Records that have been verified are genuine. -/
theorem genuine_of_verifyRecords {rows : List AppliedMigration} (h : verifyRecords W rows = .ok ()) :
    ∀ row ∈ rows, Genuine W row := by
  induction rows with
  | nil => exact fun row hrow => by cases hrow
  | cons record rest ih =>
      unfold verifyRecords at h
      cases hrecord : verifyRecord W record with
      | error e =>
          rw [hrecord] at h
          cases h
      | ok u =>
          rw [hrecord] at h
          intro row hrow
          rcases List.mem_cons.mp hrow with rfl | hrest
          · intro m hm hversion
            unfold verifyRecord at hrecord
            rw [← hversion, find_version hm] at hrecord
            dsimp only at hrecord
            split at hrecord
            · cases hrecord
            · rename_i hsum
              exact (not_not.mp hsum).symm
          · exact ih h row hrest

/-- A history with one transaction more. -/
theorem InOrder.concat {history : List (List TxStatement)} {done rest : List Migration} (h : InOrder (W := W) rows₀ history)
    (hsplit : migrations W = done ++ m :: rest)
    (hdone : ∀ m' ∈ done, m'.statements W ∈ history ∨ Known rows₀ m') :
    InOrder (W := W) rows₀ (history ++ [m.statements W]) := by
  intro before after done' rest' m₁ hhistory hsplit' m' hm'
  rcases List.eq_nil_or_concat' after with rfl | ⟨after, last, rfl⟩
  · -- the new transaction
    obtain ⟨rfl, hlast⟩ := List.append_inj' hhistory rfl
    have hmem : m ∈ migrations W := by simp [hsplit]
    have hmem' : m₁ ∈ migrations W := by simp [hsplit']
    obtain rfl := statements_inj hmem hmem' (List.singleton_inj.mp hlast)
    have hnodup : (m :: (done ++ rest)).Nodup := List.nodup_middle.mp (hsplit ▸ versions_nodup.of_map _)
    simp only [List.nodup_cons, List.mem_append, not_or] at hnodup
    obtain ⟨rfl, -, -⟩ := (List.append_cons_inj_of_notMem hnodup.1.1 hnodup.1.2).mp (hsplit.symm.trans hsplit')
    exact hdone m' hm'
  · rw [← List.cons_append, ← List.append_assoc] at hhistory
    obtain ⟨hold, -⟩ := List.append_inj' hhistory rfl
    exact h before after done' rest' m₁ hold hsplit' m' hm'

end Books

/-! ## §4. One answer. -/

section Answers

variable {W : Setting} {rows₀ : List AppliedMigration} {stages : Nat → Stage} {d d' : Database W} {m : Migration}
  {p session : Nat} {q : Statement} {r : Except String (Reply q)} {φ : Stage} {rest : List Migration}

/-- How a call gets to where it has not passed `rest`. -/
theorem rest_next (hallows : φ.allows W q) (h : (φ.next W q r).rest = some rest) : φ.rest = some rest
    ∨ (∃ rows, (⟨q, r⟩ : Exchange Reply String) = ⟨.selectApplied, .ok rows⟩ ∧ verifyRecords W rows = .ok ()
      ∧ rest = migrations W)
    ∨ (∃ m count, (⟨q, r⟩ : Exchange Reply String) = ⟨.countVersion m.version, .ok count⟩ ∧ count > 0
      ∧ φ.rest = some (m :: rest))
    ∨ ∃ m, (⟨q, r⟩ : Exchange Reply String) = ⟨.transaction (m.statements W), .ok ()⟩ ∧ φ.rest = some (m :: rest) := by
  have hcomplete : ∀ φ' : Stage, (∃ s, φ' = .leaving s φ.isComplete) ∨ φ' = .left φ.isComplete → φ'.rest = some rest →
      φ.rest = some rest := by
    intro φ' hφ' hrest
    cases hc : φ.isComplete with
    | false =>
        rw [hc] at hφ'
        rcases hφ' with ⟨s, rfl⟩ | rfl <;> cases hrest
    | true =>
        rw [hc] at hφ'
        have hnil : rest = [] := by rcases hφ' with ⟨s, rfl⟩ | rfl <;> simpa [Stage.rest, eq_comm] using hrest
        subst hnil
        unfold Stage.isComplete at hc
        split at hc
        · rfl
        · rfl
        · cases hc
  cases q with
  | rawSql sql => cases r <;> exact .inl h
  | acquire =>
      cases r with
      | error e => exact .inl h
      | ok s => cases h
  | pgTryAdvisoryLock s =>
      cases r with
      | error e => exact .inl h
      | ok b =>
          cases b with
          | false => exact .inl h
          | true => cases h
  | pgAdvisoryUnlock s => exact .inl (hcomplete _ (.inl ⟨s, rfl⟩) h)
  | release s => exact .inl (hcomplete _ (.inr rfl) h)
  | selectApplied =>
      cases r with
      | error e => exact .inl h
      | ok rows =>
          have h : (φ.verified W rows).rest = some rest := h
          unfold Stage.verified at h
          split at h
          · split at h
            · rename_i hrows
              cases h
              exact .inr (.inl ⟨rows, rfl, hrows, rfl⟩)
            · cases h
          · exact .inl h
  | countVersion version =>
      cases r with
      | error e => exact .inl h
      | ok count =>
          have h : (φ.counted count).rest = some rest := h
          unfold Stage.counted at h
          split at h
          · rename_i s m rest' b _
            split at h
            · rename_i hcount
              cases h
              obtain rfl : version = m.version := hallows s m rest b rfl
              exact .inr (.inr (.inl ⟨m, count, rfl, hcount, rfl⟩))
            · exact .inl h
          · exact .inl h
  | transaction statements =>
      obtain ⟨s, m, rest', rfl, rfl⟩ := hallows
      cases r with
      | error e => exact .inl h
      | ok u =>
          cases h
          exact .inr (.inr (.inr ⟨m, rfl, rfl⟩))

/-- What an answer does to the tables. -/
theorem books_of_exec {o : Choice} {v : Reply q} (h : exec o d q = some (v, d')) :
    (d'.rows = d.rows ∧ d'.history = d.history)
      ∨ ∃ statements, q = .transaction statements ∧ d.commit o.now statements = some d' := by
  cases q with
  | rawSql sql =>
      obtain ⟨d₁, hd₁, heq⟩ := Option.map_eq_some_iff.mp h
      cases heq
      exact .inl ⟨(rawSql_eq_some hd₁).1, (rawSql_eq_some hd₁).2.2⟩
  | transaction statements =>
      obtain ⟨d₁, hd₁, heq⟩ := Option.map_eq_some_iff.mp h
      cases heq
      exact .inr ⟨statements, rfl, hd₁⟩
  | release s =>
      cases h
      exact .inl ⟨rfl, rfl⟩
  | acquire | pgTryAdvisoryLock s | pgAdvisoryUnlock s | selectApplied | countVersion version =>
      obtain ⟨x, hx, heq⟩ := Option.map_eq_some_iff.mp h
      cases heq
      exact .inl ⟨rfl, rfl⟩

theorem books_of_answers (h : Machine.Answers (server W) d d' q r) : (d'.rows = d.rows ∧ d'.history = d.history)
    ∨ ∃ now statements, q = .transaction statements ∧ d.commit now statements = some d' := by
  have hexec : ∀ o v, exec o d q = some (v, d') → (d'.rows = d.rows ∧ d'.history = d.history)
      ∨ ∃ now statements, q = .transaction statements ∧ d.commit now statements = some d' := fun o v h =>
    (books_of_exec h).imp_right fun ⟨statements, hq, hcommit⟩ => ⟨o.now, statements, hq, hcommit⟩
  rcases h with ⟨o, v, -, h⟩ | ⟨e, -, rfl | ⟨o, v, h⟩⟩
  · exact hexec o v h
  · exact .inl ⟨rfl, rfl⟩
  · exact hexec o v h

theorem Progress.listed (h : Progress rows₀ stages d) (hp : (stages p).rest = some (m :: rest)) : m ∈ migrations W := by
  obtain ⟨-, done, hall, -⟩ := h.walked p _ hp
  rw [hall]
  exact List.mem_append_right _ List.mem_cons_self

/-- A migration that is committed is recorded. -/
theorem recorded_of_commit {now : Nat} (hcommit : d.commit now (m.statements W) = some d') (h0 : m.version ≠ "000") :
    d'.IsRecorded m.version := by
  obtain ⟨-, -, hrows⟩ := commit_eq_some hcommit
  by_cases hrecorded : d.IsRecorded m.version
  · obtain ⟨row, hrow, hversion⟩ := hrecorded
    exact ⟨row, (hrows row).mpr (.inl hrow), hversion⟩
  · exact ⟨_, (hrows _).mpr (.inr ⟨h0, hrecorded, rfl⟩), rfl⟩

/-- **A commit** keeps what every run keeps of the tables. -/
theorem Progress.commit {now : Nat} (h : Progress rows₀ stages d) (hp : (stages p).rest = some (m :: rest))
    (hcommit : d.commit now (m.statements W) = some d') : Progress rows₀ stages d' := by
  have hm := h.listed hp
  obtain ⟨-, hhistory, hrows⟩ := commit_eq_some hcommit
  have hmono : d.rows ⊆ d'.rows := fun row hrow => (hrows row).mpr (.inl hrow)
  have hgrow : d.history ⊆ d'.history := hhistory ▸ List.subset_append_left _ _
  obtain ⟨-, done, hall, hpassed⟩ := h.walked p _ hp
  refine ⟨fun row hrow => ?_, List.Subset.trans h.kept hmono, fun m' hm' h0 hmem => ?_, ?_, fun p' rest' hrest => ?_⟩
  · rcases (hrows row).mp hrow with hold | ⟨h0, -, rfl⟩
    · exact (h.rows row hold).imp_right fun ⟨hgenuine, m', hm', hversion, hmem⟩ => ⟨hgenuine, m', hm', hversion, hgrow hmem⟩
    · refine .inr ⟨fun m' hm' hversion => ?_, m, hm, rfl, by simp [hhistory]⟩
      rw [eq_of_version_eq hm' hm hversion]
  · rw [hhistory] at hmem
    rcases List.mem_append.mp hmem with hold | hnew
    · obtain ⟨row, hrow, hversion⟩ := h.recorded m' hm' h0 hold
      exact ⟨row, hmono hrow, hversion⟩
    · obtain rfl := statements_inj hm' hm (List.mem_singleton.mp hnew)
      exact recorded_of_commit hcommit h0
  · rw [hhistory]
    exact h.ordered.concat hall fun m' hm' => (hpassed m' hm').1
  · obtain ⟨hgenuine, done', hall', hpassed'⟩ := h.walked p' rest' hrest
    exact ⟨hgenuine, done', hall', fun m' hm' => (hpassed' m' hm').mono hgrow hmono⟩

/-- It reads the tables and the history, and nothing else. -/
theorem Progress.congr (h : Progress rows₀ stages d) (hrows : d'.rows = d.rows) (hhistory : d'.history = d.history) :
    Progress rows₀ stages d' := by
  have hpassed : ∀ m, Passed rows₀ d m → Passed rows₀ d' m := fun m hm =>
    hm.mono (fun t ht => by rwa [hhistory]) fun row hrow => by rwa [hrows]
  refine ⟨?_, hrows ▸ h.kept, ?_, hhistory ▸ h.ordered, fun p rest hrest => ?_⟩
  · rw [hrows, hhistory]
    exact h.rows
  · unfold Database.IsRecorded
    rw [hrows, hhistory]
    exact h.recorded
  · obtain ⟨hgenuine, done, hall, hall'⟩ := h.walked p rest hrest
    exact ⟨hgenuine, done, hall, fun m hm => hpassed m (hall' m hm)⟩

/-- A call that has moved on knows what it has passed. -/
theorem Progress.move {φ : Stage} (h : Progress rows₀ stages d)
    (hφ : ∀ rest, φ.rest = some rest → (∀ row ∈ rows₀, Genuine W row)
      ∧ ∃ done, migrations W = done ++ rest ∧ ∀ m ∈ done, Passed rows₀ d m) :
    Progress rows₀ (Function.update stages p φ) d := by
  refine ⟨h.rows, h.kept, h.recorded, h.ordered, fun p' rest hrest => ?_⟩
  rw [Function.update_apply] at hrest
  split at hrest
  · exact hφ rest hrest
  · exact h.walked p' rest hrest

/-- **One answer** keeps what every run keeps. -/
theorem Progress.answer (h : Progress rows₀ stages d) (hallows : (stages p).allows W q)
    (hr : Machine.Answers (server W) d d' q r) :
    Progress rows₀ (Function.update stages p ((stages p).next W q r)) d' := by
  have htables : Progress rows₀ stages d' := by
    rcases books_of_answers hr with ⟨hrows, hhistory⟩ | ⟨now, statements, rfl, hcommit⟩
    · exact h.congr hrows hhistory
    · obtain ⟨s, m, rest, hp, rfl⟩ := hallows
      exact h.commit (p := p) (by rw [hp]; rfl) hcommit
  refine htables.move fun rest hrest => ?_
  -- one migration more is behind, if it is passed now
  have hpass : ∀ m, (stages p).rest = some (m :: rest) → Passed rows₀ d' m → (∀ row ∈ rows₀, Genuine W row)
      ∧ ∃ done, migrations W = done ++ rest ∧ ∀ m ∈ done, Passed rows₀ d' m := by
    intro m hold hm
    obtain ⟨hgenuine, done, hall, hpassed⟩ := htables.walked p _ hold
    exact ⟨hgenuine, done ++ [m], by rw [hall, List.append_assoc]; rfl, forall_mem_concat hpassed hm⟩
  rcases rest_next hallows hrest with hold | ⟨rows, hx, hverified, rfl⟩ | ⟨m, count, hx, hcount, hold⟩ | ⟨m, hx, hold⟩
  · exact htables.walked p rest hold
  · cases hx
    rcases hr with ⟨o, v, hv, hexec⟩ | ⟨e, he, -⟩
    · cases hv
      obtain ⟨tracked, htracked, heq⟩ := Option.map_eq_some_iff.mp hexec
      cases heq
      have hrows : d.rows = tracked := by simp [Database.rows, htracked]
      refine ⟨fun row hrow => genuine_of_verifyRecords hverified row ?_, [], rfl, fun m hm => by cases hm⟩
      exact (List.mem_insertionSort _).mpr (hrows ▸ h.kept hrow)
    · cases he
  · cases hx
    rcases hr with ⟨o, v, hv, hexec⟩ | ⟨e, he, -⟩
    · cases hv
      obtain ⟨tracked, htracked, heq⟩ := Option.map_eq_some_iff.mp hexec
      cases heq
      have hrows : d.rows = tracked := by simp [Database.rows, htracked]
      have hrecorded : d.IsRecorded m.version := count_pos_iff.mp (hrows ▸ hcount)
      exact hpass m hold (h.passed (h.listed hold) hrecorded)
    · cases he
  · cases hx
    rcases hr with ⟨o, v, hv, hexec⟩ | ⟨e, he, -⟩
    · obtain ⟨d₁, hcommit, heq⟩ := Option.map_eq_some_iff.mp hexec
      cases heq
      obtain ⟨-, hhistory, -⟩ := commit_eq_some hcommit
      exact hpass m hold ⟨.inl (by simp [hhistory]), recorded_of_commit hcommit⟩
    · cases he

end Answers

/-! ## §5. Inside the lock. -/

section Exclusion

variable {W : Setting} {rows₀ : List AppliedMigration} {stages : Nat → Stage} {d d' : Database W} {m : Migration}
  {p : Nat} {q : Statement} {r : Except String (Reply q)} {φ : Stage} {rest : List Migration} {session : Nat}

def seats (stages : Nat → Stage) (p : Nat) : Seat := (stages p).seat

theorem seats_update (stages : Nat → Stage) (p : Nat) (φ : Stage) :
    seats (Function.update stages p φ) = Function.update (seats stages) p φ.seat := by
  funext p'
  unfold seats
  rw [Function.apply_update (fun _ φ => Stage.seat φ)]

/-- What holds while nobody loses the lock: the calls and the sessions go
together, nothing is committed twice, and what is missing is not recorded. -/
structure Exclusive (rows₀ : List AppliedMigration) (stages : Nat → Stage) (d : Database W) : Prop where
  tenancy : Tenancy (seats stages) d.sessions
  once : ∀ m ∈ migrations W, m.version ≠ "000" →
    d.history.count (m.statements W) ≤ 1 ∧ (Known rows₀ m → m.statements W ∉ d.history)
  missing : ∀ p s m rest, stages p = .walking s (m :: rest) true → m.version ≠ "000" → ¬d.IsRecorded m.version

/-- The statements that leave the sessions alone. -/
def Statement.isOnTables : Statement → Bool
  | .rawSql _ | .selectApplied | .countVersion _ | .transaction _ => true
  | _ => false

theorem sessions_of_exec {o : Choice} {v : Reply q} (hallows : φ.allows W q) (hq : q.isOnTables = true)
    (h : exec o d q = some (v, d')) : d'.sessions = d.sessions := by
  cases q with
  | rawSql sql =>
      obtain ⟨d₁, hd₁, heq⟩ := Option.map_eq_some_iff.mp h
      cases heq
      exact (rawSql_eq_some hd₁).2.1
  | selectApplied | countVersion version =>
      obtain ⟨rows, -, heq⟩ := Option.map_eq_some_iff.mp h
      cases heq
      rfl
  | transaction statements =>
      obtain ⟨s, m, rest, -, rfl⟩ := hallows
      obtain ⟨d₁, hd₁, heq⟩ := Option.map_eq_some_iff.mp h
      cases heq
      exact (commit_eq_some hd₁).1
  | _ => cases hq

/-- A call on the tables keeps its seat. -/
theorem seat_next (hq : q.isOnTables = true) : (φ.next W q r).seat = φ.seat := by
  have hcounted : ∀ n, (φ.counted n).seat = φ.seat := fun n => by
    unfold Stage.counted
    split
    · split <;> rfl
    · rfl
  have hverified : ∀ rows, (φ.verified W rows).seat = φ.seat := fun rows => by
    unfold Stage.verified
    split
    · split <;> rfl
    · rfl
  have hcommitted : φ.committed.seat = φ.seat := by
    unfold Stage.committed
    split <;> rfl
  have hfailed : φ.failed.seat = φ.seat := by
    unfold Stage.failed
    split <;> rfl
  cases q with
  | rawSql sql => cases r <;> rfl
  | selectApplied =>
      cases r with
      | error e => rfl
      | ok rows => exact hverified rows
  | countVersion version =>
      cases r with
      | error e => rfl
      | ok count => exact hcounted count
  | transaction statements =>
      cases r with
      | error e => exact hfailed
      | ok u => exact hcommitted
  | _ => cases hq

/-- The seats after an answer. -/
theorem tenancy_answer (h : Tenancy (seats stages) d.sessions) (hallows : (stages p).allows W q)
    (hr : Machine.Answers (server W) d d' q r) :
    Tenancy (seats (Function.update stages p ((stages p).next W q r))) d'.sessions := by
  have hstay : Function.update (seats stages) p (stages p).seat = seats stages := Function.update_eq_self p (seats stages)
  rw [seats_update]
  cases q with
  | acquire =>
      rcases hr with ⟨o, v, rfl, hexec⟩ | ⟨e, rfl, rfl | ⟨o, v, hexec⟩⟩
      · obtain ⟨c, hc, heq⟩ := Option.map_eq_some_iff.mp hexec
        cases heq
        exact h.checkOut hc
      · exact hstay.symm ▸ h
      · obtain ⟨c, hc, heq⟩ := Option.map_eq_some_iff.mp hexec
        cases heq
        exact hstay.symm ▸ h.checkOut_lost hc
  | pgTryAdvisoryLock s =>
      have hp : (seats stages p).session = some s := by
        unfold seats
        rw [show stages p = .seated s from hallows]
        rfl
      rcases hr with ⟨o, v, rfl, hexec⟩ | ⟨e, rfl, rfl | ⟨o, v, hexec⟩⟩
      · obtain ⟨⟨b, c⟩, hc, heq⟩ := Option.map_eq_some_iff.mp hexec
        cases heq
        cases b with
        | true => exact h.tryLock_true hp hc
        | false => exact hstay.symm ▸ h.tryLock hc
      · exact hstay.symm ▸ h
      · obtain ⟨⟨b, c⟩, hc, heq⟩ := Option.map_eq_some_iff.mp hexec
        cases heq
        exact hstay.symm ▸ h.tryLock hc
  | pgAdvisoryUnlock s =>
      have hp : (seats stages p).session = some s := by
        unfold seats
        rw [show (stages p).seat = .inside s from hallows]
        rfl
      rcases hr with ⟨o, v, rfl, hexec⟩ | ⟨e, rfl, rfl | ⟨o, v, hexec⟩⟩
      · obtain ⟨⟨b, c⟩, hc, heq⟩ := Option.map_eq_some_iff.mp hexec
        cases heq
        exact h.unlock hp hc
      · exact h.stepOut hp
      · obtain ⟨⟨b, c⟩, hc, heq⟩ := Option.map_eq_some_iff.mp hexec
        cases heq
        exact h.unlock hp hc
  | release s =>
      have hp : (seats stages p).session = some s := by
        unfold seats
        rw [show (stages p).seat = .outside s from hallows]
        rfl
      rcases hr with ⟨o, v, rfl, hexec⟩ | ⟨e, rfl, rfl | ⟨o, v, hexec⟩⟩
      · cases hexec
        exact h.checkIn hp
      · exact h.leave p
      · cases hexec
        exact h.checkIn hp
  | rawSql sql | selectApplied | countVersion version | transaction statements =>
      have hsessions : d'.sessions = d.sessions := by
        rcases hr with ⟨o, v, -, hexec⟩ | ⟨e, -, rfl | ⟨o, v, hexec⟩⟩
        · exact sessions_of_exec (o := o) hallows rfl hexec
        · rfl
        · exact sessions_of_exec (o := o) hallows rfl hexec
      rw [seat_next rfl, hstay, hsessions]
      exact h

/-- A call that has found the next migration missing had done so before, or has just looked. -/
theorem missing_next (hallows : φ.allows W q) (h : φ.next W q r = .walking session (m :: rest) true) :
    (φ = .walking session (m :: rest) true ∧ ∀ statements, q ≠ .transaction statements)
      ∨ (⟨q, r⟩ : Exchange Reply String) = ⟨.countVersion m.version, .ok (0 : Nat)⟩ := by
  cases q with
  | rawSql sql => cases r <;> exact .inl ⟨h, fun _ hq => by cases hq⟩
  | acquire =>
      cases r with
      | error e => exact .inl ⟨h, fun _ hq => by cases hq⟩
      | ok s => cases h
  | pgTryAdvisoryLock s =>
      cases r with
      | error e => exact .inl ⟨h, fun _ hq => by cases hq⟩
      | ok b =>
          cases b with
          | false => exact .inl ⟨h, fun _ hq => by cases hq⟩
          | true => cases h
  | pgAdvisoryUnlock s => cases h
  | release s => cases h
  | selectApplied =>
      cases r with
      | error e => exact .inl ⟨h, fun _ hq => by cases hq⟩
      | ok rows =>
          have h : φ.verified W rows = .walking session (m :: rest) true := h
          unfold Stage.verified at h
          split at h
          · split at h <;> cases h
          · exact .inl ⟨h, fun _ hq => by cases hq⟩
  | countVersion version =>
      cases r with
      | error e => exact .inl ⟨h, fun _ hq => by cases hq⟩
      | ok count =>
          have hcount : φ.counted count = .walking session (m :: rest) true := h
          unfold Stage.counted at hcount
          split at hcount
          · rename_i s m' rest' b
            split at hcount
            · cases hcount
            · rename_i hzero
              cases hcount
              obtain rfl : version = m.version := hallows session m rest b rfl
              obtain rfl : count = (0 : Nat) := Nat.eq_zero_of_not_pos hzero
              exact .inr rfl
          · exact .inl ⟨hcount, fun _ hq => by cases hq⟩
  | transaction statements =>
      obtain ⟨s, m', rest', rfl, rfl⟩ := hallows
      cases r <;> cases h

/-- **One answer** keeps the calls apart. -/
theorem Exclusive.answer (h : Exclusive rows₀ stages d) (hprogress : Progress rows₀ stages d)
    (hallows : (stages p).allows W q) (hr : Machine.Answers (server W) d d' q r) :
    Exclusive rows₀ (Function.update stages p ((stages p).next W q r)) d' := by
  refine ⟨tenancy_answer h.tenancy hallows hr, fun m' hm' h0 => ?_, fun p' s' m' rest' hp' h0 hrecorded => ?_⟩
  · rcases books_of_answers hr with ⟨-, hhistory⟩ | ⟨now, statements, rfl, hcommit⟩
    · rw [hhistory]
      exact h.once m' hm' h0
    · obtain ⟨s, m, rest, hp, rfl⟩ := hallows
      obtain ⟨-, hhistory, -⟩ := commit_eq_some hcommit
      have hrest : (stages p).rest = some (m :: rest) := by rw [hp]; rfl
      have hm : m ∈ migrations W := hprogress.listed hrest
      obtain ⟨hcount, hknown⟩ := h.once m' hm' h0
      rw [hhistory, List.count_append]
      by_cases hmm : m' = m
      · subst hmm
        have hfresh : m'.statements W ∉ d.history := fun hmem =>
          h.missing p s m' rest hp h0 (hprogress.recorded m' hm' h0 hmem)
        refine ⟨?_, fun hk => ?_⟩
        · rw [List.count_eq_zero.mpr hfresh]
          simp
        · obtain ⟨row, hrow, hversion⟩ := hk
          exact absurd ⟨row, hprogress.kept hrow, hversion⟩ (h.missing p s m' rest hp h0)
      · have hne : m.statements W ≠ m'.statements W := fun heq => hmm (statements_inj hm' hm heq.symm)
        refine ⟨by simpa [hne] using hcount, fun hk => ?_⟩
        simpa [hne.symm] using hknown hk
  · have hkept : d'.rows = d.rows → d.IsRecorded m'.version := fun hrows => by
      unfold Database.IsRecorded at hrecorded
      rwa [hrows] at hrecorded
    by_cases hpp : p' = p
    · rw [hpp, Function.update_self] at hp'
      rcases missing_next hallows hp' with ⟨hold, hq⟩ | hx
      · rcases books_of_answers hr with ⟨hrows, -⟩ | ⟨now, statements, hcommit, -⟩
        · exact h.missing p s' m' rest' hold h0 (hkept hrows)
        · exact hq statements hcommit
      · cases hx
        rcases hr with ⟨o, v, hv, hexec⟩ | ⟨e, he, -⟩
        · cases hv
          obtain ⟨tracked, htracked, heq⟩ := Option.map_eq_some_iff.mp hexec
          obtain ⟨hcount, rfl⟩ := Prod.mk.inj heq
          have hrows : d.rows = tracked := by simp [Database.rows, htracked]
          have hpos := count_pos_iff.mpr hrecorded
          rw [hrows, hcount] at hpos
          exact absurd hpos (lt_irrefl 0)
        · cases he
    · rw [Function.update_of_ne hpp] at hp'
      rcases books_of_answers hr with ⟨hrows, -⟩ | ⟨now, statements, rfl, -⟩
      · exact h.missing p' s' m' rest' hp' h0 (hkept hrows)
      · -- two calls would be inside
        obtain ⟨s, m, rest, hp, -⟩ := hallows
        have hs' : seats stages p' = .inside s' := by
          unfold seats
          rw [hp']
          rfl
        have hs : seats stages p = .inside s := by
          unfold seats
          rw [hp]
          rfl
        exact hpp (h.tenancy.unique hs' hs)

end Exclusion

/-! ## §6. Runs. -/

section Runs

variable {W : Setting} {rows₀ : List AppliedMigration} {m : System W} {a : Action}

/-- No call is inside the lock through a session that ends. -/
def SessionKept (t : Transition (System W) Action) : Prop :=
  ∀ s, t.act = .outside (.endSession s) → ∀ p, seats (t.pre.phase (stageMonitor W)) p ≠ .inside s

/-- **One step** keeps what every run keeps. -/
theorem Progress.step (h : Progress rows₀ (m.phase (stageMonitor W)) m.store)
    (hm : Machine.Monitored (stageMonitor W) m) :
    Progress rows₀ ((step W m a).phase (stageMonitor W)) (step W m a).store := by
  refine Machine.phases_step (I := fun stages d _ => Progress rows₀ stages d) hm h (fun _ _ _ p hI => ?_)
    (fun p q d' r ha _ hallows hr => h.answer hallows (Machine.answers_of_reply (server W) ha hr)) fun w _ => ?_
  · exact hI.move fun rest hrest => by cases hrest
  · cases w with
    | endSession s => exact h.congr rfl rfl

/-- **One step** in which nobody loses the lock. -/
theorem Exclusive.step (h : Exclusive rows₀ (m.phase (stageMonitor W)) m.store)
    (hprogress : Progress rows₀ (m.phase (stageMonitor W)) m.store) (hm : Machine.Monitored (stageMonitor W) m)
    (hkept : SessionKept ⟨m, a, Schema.step W m a⟩) :
    Exclusive rows₀ ((Schema.step W m a).phase (stageMonitor W)) (Schema.step W m a).store := by
  refine Machine.phases_step (I := fun stages d _ => Exclusive rows₀ stages d) hm h (fun stages _ _ p hI => ?_)
    (fun p q d' r ha _ hallows hr => h.answer hprogress hallows (Machine.answers_of_reply (server W) ha hr)) fun w hw => ?_
  · refine ⟨?_, hI.once, fun p' s m rest hp' => ?_⟩
    · rw [seats_update]
      exact hI.tenancy.leave p
    · rw [Function.update_apply] at hp'
      split at hp'
      · cases hp'
      · exact hI.missing p' s m rest hp'
  · cases w with
    | endSession s => exact ⟨h.tenancy.close (hkept s hw), h.once, h.missing⟩

theorem monitored (d : Database W) (as : List Action) :
    Machine.Monitored (stageMonitor W) (Foundation.run (step W) (Machine.idle d) as) :=
  Machine.monitored_run (fun p isDryRun => (obeys_body p isDryRun).mono fun _ _ _ => trivial) d as

/-- **Every run.** -/
theorem progress_run {d : Database W} (hhistory : d.history = []) (as : List Action) :
    Progress d.rows ((Foundation.run (step W) (Machine.idle d) as).phase (stageMonitor W))
      (Foundation.run (step W) (Machine.idle d) as).store := by
  induction as using List.reverseRecOn with
  | nil =>
      refine ⟨fun row hrow => .inl hrow, List.Subset.refl _, fun m _ _ hmem => ?_, ?_, fun p rest hrest => by cases hrest⟩
      · exact absurd (hhistory ▸ hmem : m.statements W ∈ []) List.not_mem_nil
      · intro before after done rest m hsplit
        have hnil : before ++ m.statements W :: after = [] := hsplit.symm.trans hhistory
        simp at hnil
  | append_singleton as a ih =>
      rw [run_concat]
      exact ih.step (monitored d as)

/-- **Every run in which nobody loses the lock.** -/
theorem exclusive_run {d : Database W} (hhistory : d.history = []) (as : List Action)
    (hkept : ∀ t ∈ trace (step W) (Machine.idle d) as, SessionKept t) :
    Exclusive d.rows ((Foundation.run (step W) (Machine.idle d) as).phase (stageMonitor W))
      (Foundation.run (step W) (Machine.idle d) as).store := by
  induction as using List.reverseRecOn with
  | nil =>
      refine ⟨Tenancy.vacant fun p => rfl, fun m _ _ => ?_, fun p s m rest hp => by cases hp⟩
      have hnil : (Foundation.run (step W) (Machine.idle d) []).store.history = [] := hhistory
      rw [hnil]
      exact ⟨Nat.zero_le 1, fun _ => List.not_mem_nil⟩
  | append_singleton as a ih =>
      rw [trace_concat] at hkept
      rw [run_concat]
      exact (ih fun t ht => hkept t (List.mem_append_left _ ht)).step (progress_run hhistory as) (monitored d as)
        (hkept _ (List.mem_append_right _ List.mem_cons_self))

/-- **Whenever a call returns `Ok`**, every migration other than 000 is
recorded with its checksum, in every run. -/
theorem recorded_of_ends {d : Database W} (hhistory : d.history = []) (as : List Action) {p : Nat}
    (hends : Machine.Ends (server W) (Foundation.run (step W) (Machine.idle d) as) a p (.ok ()))
    (hreal : Machine.tasksOf false (trace (step W) (Machine.idle d) as) p = false) :
    Recorded (step W (Foundation.run (step W) (Machine.idle d) as) a).store := by
  obtain ⟨l, s, r, ha, hl, hr, hrest⟩ := hends
  have hobeys : (stageMonitor W).Obeys (Passes (Machine.tasksOf false (trace (step W) (Machine.idle d) as) p))
      (Machine.phaseAfter (stageMonitor W) l.heard) (.ask l.question l.rest) :=
    Machine.tasksMonitored_run (M := fun _ => stageMonitor W) (fun p isDryRun => obeys_body p isDryRun) false d as p l hl
  rw [hreal] at hobeys
  have hphase : Machine.phaseAfter (stageMonitor W) l.heard
      = (Foundation.run (step W) (Machine.idle d) as).phase (stageMonitor W) p := by
    unfold Machine.phase
    rw [hl]
  rw [hphase] at hobeys
  have hpasses := hobeys.2 r
  rw [hrest] at hpasses
  have hafter := (progress_run hhistory as).answer hobeys.1 (Machine.answers_of_reply (server W) ha hr)
  have hdeliver : step W (Foundation.run (step W) (Machine.idle d) as) a
      = (Foundation.run (step W) (Machine.idle d) as).deliver p l s r :=
    Machine.step_eq_deliver (server W) (body W) outside ha hl hr
  rw [hdeliver]
  show Recorded s
  refine hafter.complete (p := p) ?_
  rw [Function.update_self]
  exact hpasses rfl rfl

/-- What is asked of a run of the instances: no migration but 000 is committed
twice, or when it was known; commits are in order; and a call that returns
`Ok` leaves everything recorded. -/
structure OnceInOrder (d : Database W) (as : List Action) : Prop where
  once : ∀ m ∈ migrations W, m.version ≠ "000" →
    (Foundation.run (step W) (Machine.idle d) as).store.history.count (m.statements W) ≤ 1
      ∧ (Known d.rows m → m.statements W ∉ (Foundation.run (step W) (Machine.idle d) as).store.history)
  ordered : InOrder (W := W) d.rows (Foundation.run (step W) (Machine.idle d) as).store.history
  recorded : ∀ bs a p, bs ++ [a] <+: as →
    Machine.Ends (server W) (Foundation.run (step W) (Machine.idle d) bs) a p (.ok ()) →
    Machine.tasksOf false (trace (step W) (Machine.idle d) bs) p = false →
    Recorded (Foundation.run (step W) (Machine.idle d) (bs ++ [a])).store

/-- **Migrations run once and in order** in every run in which no session ends
while a call is inside the lock through it. -/
theorem once_in_order (d : Database W) (hhistory : d.history = []) (as : List Action)
    (hkept : ∀ t ∈ trace (step W) (Machine.idle d) as, SessionKept t) : OnceInOrder d as where
  once := (exclusive_run hhistory as hkept).once
  ordered := (progress_run hhistory as).ordered
  recorded bs a p _ hends hreal := by
    rw [run_concat]
    exact recorded_of_ends hhistory bs hends hreal

end Runs

/-! ## §7. Two instances. -/

/-- A schema that lists what has been executed on it. -/
@[reducible] def sampleSetting : Setting where
  Tables := List String
  effect sql tables := some (tables ++ [sql])
  file path := path
  sha256Hex sql := "sha256:" ++ sql

def sampleDatabase : Database sampleSetting := ⟨[], none, ⟨∅, ∅, none⟩, []⟩

def sampleAnswers (p n : Nat) : List Action := List.replicate n (.answer p ⟨p, 0⟩)

/-- One instance after the other; the second finds everything applied. -/
def sampleInTurn : List Action :=
  .start 0 false :: sampleAnswers 0 40 ++ .start 1 false :: sampleAnswers 1 24

/-- The session of the first instance ends when it is about to commit 001;
the second gets the lock, and both commit it. -/
def sampleLostSession : List Action :=
  .start 0 false :: sampleAnswers 0 7 ++ .outside (.endSession 0) :: .start 1 false :: sampleAnswers 1 8
    ++ sampleAnswers 0 1

def endsSession : Action → Bool
  | .outside (.endSession _) => true
  | _ => false

theorem sampleInstances_once : OnceInOrder sampleDatabase sampleInTurn
    ∧ (Foundation.run (step sampleSetting) (Machine.idle sampleDatabase) sampleInTurn).store.history.length = 18 := by
  have hsessions : sampleInTurn.all (fun a => !endsSession a) = true := by
    decide +kernel
  refine ⟨once_in_order sampleDatabase rfl sampleInTurn fun t ht s hs => ?_, by decide +kernel⟩
  have hact := List.all_eq_true.mp hsessions t.act (act_mem_of_mem_trace _ ht)
  rw [hs] at hact
  cases hact

/-- **Migration 001 is committed twice.** -/
theorem sampleLostSession_twice : ¬OnceInOrder sampleDatabase sampleLostSession := by
  intro h
  have htwice : (Foundation.run (step sampleSetting) (Machine.idle sampleDatabase) sampleLostSession).store.history.count
      ((sampleSetting.embed "001" "001_enable_pgcrypto").statements sampleSetting) = 2 := by
    decide +kernel
  have honce := (h.once (sampleSetting.embed "001" "001_enable_pgcrypto") (by decide) (by decide)).1
  rw [htwice] at honce
  exact absurd honce (by decide)

end PredictIQ.Schema
