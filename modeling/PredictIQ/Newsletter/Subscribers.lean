/-
  PredictIQ.Newsletter.Subscribers: the table `newsletter_subscribers`.

  Each `newsletter_*` function of `db.rs` is one SQL statement, read as a
  function of the table.  The table is keyed by `email`, which is unique; the
  id and the columns that no statement reads are left out.  Timestamps are
  microseconds since the epoch.  A statement whose parameters Postgres turns
  down (an interval or a timestamp out of range, a negative LIMIT, a text that
  does not go into its column) fails and leaves the table as it was.  A text
  with U+0000 is stored nowhere, so that looking for one finds no row.
-/
import PredictIQ.Foundation.Run
import PredictIQ.Foundation.Table

namespace PredictIQ.Newsletter

open Foundation

/-! ## §1. Rows. -/

structure NewsletterSubscriber where
  email : String
  source : String
  confirmed : Bool
  confirmationToken : Option String
  createdAt : Int
  confirmedAt : Option Int
  unsubscribedAt : Option Int
  deletedAt : Option Int
  deriving DecidableEq

/-- The test `already_active` of `newsletter_subscribe`. -/
def NewsletterSubscriber.isActive (r : NewsletterSubscriber) : Bool :=
  r.confirmed && r.unsubscribedAt.isNone

abbrev Subscribers : Type := Store String NewsletterSubscriber

/-! ## §2. Parameters of the statements. -/

/-- Seconds that an interval can hold: its microseconds are an `i64`. -/
def maxIntervalSecs : Int := 9223372036854

/-- The first and the last timestamp of Postgres. -/
def minTimestamp : Int := -210866803200000000

def endTimestamp : Int := 9224318016000000000

/-- `NOW() - ($1 || ' seconds')::INTERVAL`, where `$1` is a `u64` bound as an `i64`. -/
def cutoff (now : Int) (secs : UInt64) : Option Int :=
  let seconds := secs.toInt64.toInt
  let time := now - seconds * 1000000
  if -maxIntervalSecs ≤ seconds ∧ seconds ≤ maxIntervalSecs ∧ minTimestamp ≤ time ∧ time < endTimestamp then
    some time
  else none

/-- `LIMIT $2`, where `$2` is a `u64` bound as an `i64`. -/
def limitOf (batchSize : UInt64) : Option Nat :=
  let limit := batchSize.toInt64.toInt
  if 0 ≤ limit then some limit.toNat else none

/-- A text that a column `VARCHAR(n)` takes.  Blanks behind the `n`-th
character, which Postgres cuts off, count as too long too. -/
def isVarchar (n : Nat) (s : String) : Bool := s.toList.length ≤ n && !s.toList.contains (Char.ofNat 0)

/-- `email VARCHAR(255)`, `source VARCHAR(100)`, `confirmation_token VARCHAR(255)`. -/
def areStorable (normalizedEmail source confirmationToken : String) : Bool :=
  isVarchar 255 normalizedEmail && isVarchar 100 source && isVarchar 255 confirmationToken

/-! ## §3. The statements. -/

def newsletterGetByEmail (normalizedEmail : String) (rows : Subscribers) : Option NewsletterSubscriber :=
  (rows.lookup normalizedEmail).filter (·.deletedAt.isNone)

/-- A conflicting row keeps the columns that the statement does not set. -/
def newsletterUpsertPending (now : Int) (normalizedEmail source confirmationToken : String)
    (rows : Subscribers) : Option Subscribers :=
  if areStorable normalizedEmail source confirmationToken then
    some (rows.insert normalizedEmail {
      email := normalizedEmail
      source := source
      confirmed := false
      confirmationToken := some confirmationToken
      createdAt := now
      confirmedAt := none
      unsubscribedAt := none
      deletedAt := (rows.lookup normalizedEmail).bind (·.deletedAt) })
  else none

/-- `WHERE confirmation_token = $1 AND created_at > cutoff`. -/
def isConfirmable (token : String) (cutoff : Int) (r : NewsletterSubscriber) : Bool :=
  r.confirmationToken == some token && decide (cutoff < r.createdAt)

def newsletterConfirmByToken (now : Int) (token : String) (tokenTtlSecs : UInt64) (rows : Subscribers) :
    Option (Bool × Subscribers) :=
  (cutoff now tokenTtlSecs).map fun cutoff =>
    (0 < rows.countWhere (isConfirmable token cutoff),
      rows.updateWhere (isConfirmable token cutoff) fun r =>
        { r with confirmed := true, confirmationToken := none, confirmedAt := some now, unsubscribedAt := none })

/-- `WHERE confirmed = FALSE AND created_at <= cutoff`. -/
def isExpired (cutoff : Int) (r : NewsletterSubscriber) : Bool :=
  !r.confirmed && decide (r.createdAt ≤ cutoff)

/-- The addresses whose rows `newsletter_delete_expired_pending` removes. -/
def expiredPending (now : Int) (tokenTtlSecs batchSize : UInt64) (order : RowOrder String)
    (rows : Subscribers) : Option (List String) :=
  match cutoff now tokenTtlSecs, limitOf batchSize with
  | some cutoff, some limit => some (rows.selectWhere order (isExpired cutoff) limit)
  | _, _ => none

/-- Remove pending subscriptions whose token has expired, at most `batchSize` of them. -/
def newsletterDeleteExpiredPending (now : Int) (tokenTtlSecs batchSize : UInt64) (order : RowOrder String)
    (rows : Subscribers) : Option (Nat × Subscribers) :=
  (expiredPending now tokenTtlSecs batchSize order rows).map fun emails =>
    (emails.length, Store.eraseAll rows emails)

/-- `UPDATE … SET … WHERE email = $1 AND deleted_at IS NULL`. -/
def updateByEmail (normalizedEmail : String) (set : NewsletterSubscriber → NewsletterSubscriber)
    (rows : Subscribers) : Bool × Subscribers :=
  match newsletterGetByEmail normalizedEmail rows with
  | some r => (true, rows.insert normalizedEmail (set r))
  | none => (false, rows)

def newsletterUnsubscribe (now : Int) (normalizedEmail : String) (rows : Subscribers) :
    Bool × Subscribers :=
  updateByEmail normalizedEmail (fun r => { r with unsubscribedAt := some now, confirmed := false }) rows

def newsletterSoftDelete (now : Int) (normalizedEmail : String) (rows : Subscribers) :
    Bool × Subscribers :=
  updateByEmail normalizedEmail (fun r => { r with deletedAt := some now }) rows

def newsletterGdprDelete (normalizedEmail : String) (rows : Subscribers) : Bool × Subscribers :=
  ((rows.lookup normalizedEmail).isSome, rows.erase normalizedEmail)

/-! ## §4. Runs. -/

/-- A call of one of the functions. -/
inductive Statement where
  | upsertPending (normalizedEmail source confirmationToken : String)
  | confirmByToken (token : String)
  | deleteExpiredPending (batchSize : UInt64) (order : RowOrder String)
  | unsubscribe (normalizedEmail : String)
  | softDelete (normalizedEmail : String)
  | gdprDelete (normalizedEmail : String)

/-- What a call leaves of the table; one that fails leaves it alone. -/
def Statement.exec (tokenTtlSecs : UInt64) (now : Int) (rows : Subscribers) : Statement → Subscribers
  | .upsertPending normalizedEmail source confirmationToken =>
      (newsletterUpsertPending now normalizedEmail source confirmationToken rows).getD rows
  | .confirmByToken token => ((newsletterConfirmByToken now token tokenTtlSecs rows).map (·.2)).getD rows
  | .deleteExpiredPending batchSize order =>
      ((newsletterDeleteExpiredPending now tokenTtlSecs batchSize order rows).map (·.2)).getD rows
  | .unsubscribe normalizedEmail => (newsletterUnsubscribe now normalizedEmail rows).2
  | .softDelete normalizedEmail => (newsletterSoftDelete now normalizedEmail rows).2
  | .gdprDelete normalizedEmail => (newsletterGdprDelete normalizedEmail rows).2

/-- The table and the database's clock. -/
structure System where
  now : Int
  rows : Subscribers

/-- A call, made some time after the one before it. -/
structure Action where
  elapsed : Nat
  statement : Statement

def System.step (tokenTtlSecs : UInt64) (s : System) (a : Action) : System where
  now := s.now + a.elapsed
  rows := a.statement.exec tokenTtlSecs (s.now + a.elapsed) s.rows

/-- Before the first call. -/
def System.initial (now : Int) : System := ⟨now, ∅⟩

/-! ## §5. What one call does to one row. -/

section Rows

variable {rows : Subscribers} {now : Int} {ttl : UInt64} {e : String}

theorem getByEmail_eq_some {r : NewsletterSubscriber} :
    newsletterGetByEmail e rows = some r ↔ rows.lookup e = some r ∧ r.deletedAt = none := by
  unfold newsletterGetByEmail
  rw [Option.filter_eq_some_iff, Option.isNone_iff_eq_none]

theorem lookup_updateByEmail (e' : String) (set : NewsletterSubscriber → NewsletterSubscriber) :
    (updateByEmail e' set rows).2.lookup e
      = (rows.lookup e).map fun r => if e = e' ∧ r.deletedAt = none then set r else r := by
  unfold updateByEmail
  split
  · rename_i r hget
    obtain ⟨hrow, hlive⟩ := getByEmail_eq_some.mp hget
    rw [Store.lookup_insert_eq]
    by_cases he : e = e'
    · subst he
      simp [hrow, hlive]
    · simp [he]
  · rename_i hget
    by_cases he : e = e'
    · subst he
      -- a row that is there is deleted
      cases hrow : rows.lookup e with
      | none => rfl
      | some r =>
          have hdel : r.deletedAt ≠ none := fun hlive =>
            Option.some_ne_none r ((getByEmail_eq_some.mpr ⟨hrow, hlive⟩).symm.trans hget)
          simp [hdel]
    · simp [he]

/-- What a subscription leaves of the row of an address, if its texts are storable. -/
theorem lookup_upsertPending {email source token : String} {rows' : Subscribers}
    (h : newsletterUpsertPending now email source token rows = some rows') :
    rows'.lookup e = if e = email then some ⟨email, source, false, some token, now, none, none,
      (rows.lookup email).bind (·.deletedAt)⟩ else rows.lookup e := by
  obtain ⟨-, hrows⟩ := Option.ite_none_right_eq_some.mp h
  cases hrows
  exact Store.lookup_insert_eq _ _ _ _

/-- A confirmation rewrites the rows that are confirmable; a failed one none. -/
theorem lookup_confirmByToken (token : String) :
    ((Statement.confirmByToken token).exec ttl now rows).lookup e
      = (rows.lookup e).map fun r =>
          if (cutoff now ttl).any (isConfirmable token · r) then
            { r with confirmed := true, confirmationToken := none, confirmedAt := some now, unsubscribedAt := none }
          else r := by
  simp only [Statement.exec, newsletterConfirmByToken]
  cases hcut : cutoff now ttl with
  | none => simp
  | some c => simp [Store.lookup_updateWhere]

/-- The clean-up removes the rows it selects and no others. -/
theorem lookup_deleteExpiredPending (batchSize : UInt64) (order : RowOrder String) :
    ((Statement.deleteExpiredPending batchSize order).exec ttl now rows).lookup e
      = if e ∈ (expiredPending now ttl batchSize order rows).getD [] then none else rows.lookup e := by
  simp only [Statement.exec, newsletterDeleteExpiredPending]
  cases expiredPending now ttl batchSize order rows with
  | none => simp
  | some emails => exact Store.lookup_eraseAll rows emails e

/-- What the clean-up selects is unconfirmed and was written before the cutoff. -/
theorem exists_of_mem_expiredPending {batchSize : UInt64} {order : RowOrder String}
    (h : e ∈ (expiredPending now ttl batchSize order rows).getD []) :
    ∃ c r, cutoff now ttl = some c ∧ rows.lookup e = some r ∧ r.confirmed = false ∧ r.createdAt ≤ c := by
  unfold expiredPending at h
  cases hcut : cutoff now ttl with
  | none => simp [hcut] at h
  | some c =>
      cases hlimit : limitOf batchSize with
      | none => simp [hcut, hlimit] at h
      | some limit =>
          simp only [hcut, hlimit, Option.getD_some] at h
          obtain ⟨r, hr, hexpired⟩ := Store.exists_of_mem_selectWhere h
          obtain ⟨hconf, hold⟩ := Bool.and_eq_true_iff.mp hexpired
          exact ⟨c, r, rfl, hr, by simpa using hconf, by simpa using hold⟩

end Rows

end PredictIQ.Newsletter
