/-
  PredictIQ.Api.GdprRequests: who gets a subscriber's data, and who erases it.

  The handlers of `/newsletter/gdpr` are programs that any number of requests
  interleave, beside the other statements on the table; every await is one
  question.  A token is mailed to the address it is for, and a request comes
  from a party with mailboxes of its own: it can show what was mailed there,
  but cannot make a signature.
-/
import PredictIQ.Api.GdprTokens
import PredictIQ.Foundation.TaskHistory
import PredictIQ.Foundation.Triple

namespace PredictIQ.Api.Gdpr

open Foundation Monitor
open Newsletter (NewsletterSubscriber Subscribers Statement newsletterGetByEmail)
open Signing (Hmac)
open Prog (attempt)

/-! ## §1. The handlers. -/

/-- A body of a response; `internalError` is what `into_api_error` makes of an error. -/
inductive GdprResponse where
  | message (response : NewsletterResponse)
  | data (row : NewsletterSubscriber)
  | internalError

inductive Command where
  | allow (key : String)
  | clock
  | newsletterGetByEmail (normalizedEmail : String)
  | sendGdprVerificationEmail (email token : String)
  | newsletterGdprDelete (normalizedEmail : String)
  | respond (response : GdprResponse)

@[reducible] def Reply : Command → Type
  | .allow _ | .newsletterGdprDelete _ => Bool
  | .clock => UInt64
  | .newsletterGetByEmail _ => Option NewsletterSubscriber
  | .sendGdprVerificationEmail .. | .respond _ => Unit

abbrev GdprM : Type → Type := Prog Reply String

def ask (q : Command) : GdprM (Reply q) := .call q

def tooManyRequests : GdprResponse := .message ⟨429, false, "Too many requests, please try again later."⟩

def invalidEmail : GdprResponse := .message ⟨400, false, "Invalid email address."⟩

/-- `.map_err(into_api_error)?`. -/
def orInternalError (p : GdprM GdprResponse) : GdprM GdprResponse := do
  match ← attempt p with
  | .ok response => pure response
  | .error _ => pure .internalError

section Handlers

variable (H : Hmac) (h : NewsletterHandler) (canMail : Bool)

/-- `send_gdpr_verification_email`, which needs SendGrid's key and a sender. -/
def sendGdprVerificationEmail (email token : String) : GdprM Unit :=
  if canMail then ask (.sendGdprVerificationEmail email token) else .fail "missing SENDGRID_API_KEY"

/-- A record gets a token by mail; that there is none, and any failure, is only logged. -/
def mailToken (email : String) (found : Except String (Option NewsletterSubscriber)) : GdprM Unit :=
  match found, h.unsubscribeSigningSecret with
  | .ok (some _), some secret => do
      let now ← ask .clock
      let _ ← attempt (sendGdprVerificationEmail canMail email (generateGdprVerificationToken H email secret now))
      pure ()
  | _, _ => pure ()

def newsletterGdprRequestToken (ip email : String) : GdprM GdprResponse := do
  let allowed ← ask (.allow ("gdpr_token:ip:" ++ ip))
  if !allowed then pure tooManyRequests
  else
    match h.normalizedEmail email with
    | none => pure invalidEmail
    | some email => do
        let found ← attempt (ask (.newsletterGetByEmail email))
        mailToken H h canMail email found
        pure (.message ⟨200, true, "If this email is subscribed, a verification code has been sent."⟩)

/-- `check_gdpr_token`, at the time that the clock shows, and what follows it. -/
def checked (email token : String) (next : GdprM GdprResponse) : GdprM GdprResponse := do
  let now ← ask .clock
  match checkGdprToken H h.unsubscribeSigningSecret email token now with
  | some response => pure (.message response)
  | none => next

def newsletterGdprExport (ip email token : String) : GdprM GdprResponse := do
  let allowed ← ask (.allow ("gdpr_export:ip:" ++ ip))
  if !allowed then pure tooManyRequests
  else
    match h.normalizedEmail email with
    | none => pure invalidEmail
    | some email => checked H h email token (orInternalError do
        let data ← ask (.newsletterGetByEmail email)
        let allowed ← ask (.allow ("gdpr_export:email:" ++ email))
        if !allowed then pure tooManyRequests
        else
          match data with
          | none => pure (.message ⟨404, false, "No newsletter record found."⟩)
          | some row => pure (.data row))

def newsletterGdprDelete (email token : String) : GdprM GdprResponse :=
  match h.normalizedEmail email with
  | none => pure invalidEmail
  | some email => checked H h email token (orInternalError do
      let _ ← ask (.newsletterGdprDelete email)
      pure (.message ⟨200, true, "Data deleted."⟩))

/-! ## §2. The system. -/

/-- A request; those that show a token come from a party. -/
inductive Task (P : Type) where
  | gdprRequestToken (ip email : String)
  | gdprExport (party : P) (ip email token : String)
  | gdprDelete (party : P) (email token : String)

variable {P : Type}

def body (_ : Nat) : Task P → GdprM Unit
  | .gdprRequestToken ip email => do
      let response ← newsletterGdprRequestToken H h canMail ip email
      ask (.respond response)
  | .gdprExport _ ip email token => do
      let response ← newsletterGdprExport H h ip email token
      ask (.respond response)
  | .gdprDelete _ email token => do
      let response ← newsletterGdprDelete H h email token
      ask (.respond response)

end Handlers

/-- The clock, the table, and what was mailed to which address. -/
structure State where
  now : UInt64
  rows : Subscribers
  mails : List (String × String)

/-- Whether a limiter lets a request pass is left open. -/
def exec (allowed : Bool) (s : State) : (q : Command) → Option (Reply q × State)
  | .allow _ => some (allowed, s)
  | .clock => some (s.now, s)
  | .newsletterGetByEmail email => some (newsletterGetByEmail email s.rows, s)
  | .sendGdprVerificationEmail email token => some ((), { s with mails := s.mails ++ [(email, token)] })
  | .newsletterGdprDelete email =>
      let r := Newsletter.newsletterGdprDelete email s.rows
      some (r.1, { s with rows := r.2 })
  | .respond _ => some ((), s)

/-- The database and SendGrid may fail, before or after they have done their part. -/
def Command.fallible : Command → Bool
  | .newsletterGetByEmail _ | .sendGdprVerificationEmail .. | .newsletterGdprDelete _ => true
  | .allow _ | .clock | .respond _ => false

def server : Server Reply State Bool := ⟨exec, Command.fallible⟩

/-- The clock goes on, or another handler or worker runs a statement. -/
inductive Outside where
  | tick (later : UInt64)
  | statement (statement : Statement) (other : ∀ e, statement ≠ .gdprDelete e)

def outside (tokenTtlSecs : UInt64) : Outside → State → State
  | .tick later, s => { s with now := max s.now later }
  | .statement statement _, s =>
      { s with rows := statement.exec tokenTtlSecs (s.now.toNat * 1000000) s.rows }

/-! ## §3. What a task asks, and when. -/

/-- Where a request stands: it has read the clock, and the row of an address after that. -/
inductive Phase where
  | start
  | at (now : UInt64)
  | read (now : UInt64) (email : String) (row : Option NewsletterSubscriber)

def Phase.next (φ : Phase) : (q : Command) → Except String (Reply q) → Phase
  | .clock, .ok now => .at now
  | .newsletterGetByEmail email, .ok row =>
      match φ with
      | .at now => .read now email row
      | φ => φ
  | _, _ => φ

section Permits

variable (H : Hmac) (h : NewsletterHandler) {P : Type}

/-- The token opens the address of the request at this time. -/
def Opens (raw token email : String) (now : UInt64) : Prop :=
  h.normalizedEmail raw = some email ∧ checkGdprToken H h.unsubscribeSigningSecret email token now = none

/-- A row is read for an export, shown and erased only after the check. -/
def permits : Task P → Phase → Command → Prop
  | .gdprRequestToken _ raw, _, .newsletterGetByEmail email => h.normalizedEmail raw = some email
  | .gdprRequestToken _ raw, _, .sendGdprVerificationEmail email _ => h.normalizedEmail raw = some email
  | .gdprExport _ _ raw token, φ, .newsletterGetByEmail email => ∃ now, φ = .at now ∧ Opens H h raw token email now
  | .gdprExport _ _ raw token, φ, .respond (.data row) =>
      ∃ now email, φ = .read now email (some row) ∧ Opens H h raw token email now
  | .gdprDelete _ raw token, φ, .newsletterGdprDelete email => ∃ now, φ = .at now ∧ Opens H h raw token email now
  | _, _, .allow _ | _, _, .clock | _, _, .respond (.message _) | _, _, .respond .internalError => True
  | _, _, _ => False

def taskMonitor (task : Task P) : Monitor Reply String Phase := ⟨.start, Phase.next, permits H h task⟩

end Permits

section Triples

variable {H : Hmac} {h : NewsletterHandler} {canMail : Bool} {P : Type} {task : Task P} {φ₀ : Phase}

/-- The limiter and the clock may always be asked. -/
theorem triple_allow (key : String) : (taskMonitor H h task).Triple (· = φ₀) (ask (.allow key)) (fun φ _ => φ = φ₀)
    (fun _ => True) := by
  refine triple_call (fun φ _ => ?_) ?_ ?_
  · show permits H h task φ (.allow key)
    cases task <;> trivial
  · rintro φ _ rfl
    rfl
  · exact fun _ _ _ => trivial

theorem triple_clock : (taskMonitor H h task).Triple (· = φ₀) (ask .clock) (fun φ now => φ = .at now)
    (fun _ => True) := by
  refine triple_call (fun φ _ => ?_) ?_ ?_
  · show permits H h task φ .clock
    cases task <;> trivial
  · rintro φ _ rfl
    rfl
  · exact fun _ _ _ => trivial

/-- What may be the answer to the request. -/
def Answerable (H : Hmac) (h : NewsletterHandler) (task : Task P) (φ : Phase) (response : GdprResponse) : Prop :=
  permits H h task φ (.respond response)

theorem answerable_message (φ : Phase) (response : NewsletterResponse) :
    Answerable H h task φ (.message response) := by
  cases task <;> trivial

theorem answerable_internalError (φ : Phase) : Answerable H h task φ .internalError := by
  cases task <;> trivial

/-- An error of the database has an answer too. -/
theorem triple_orInternalError {A : Phase → Prop} {p : GdprM GdprResponse}
    (hp : (taskMonitor H h task).Triple A p (Answerable H h task) (fun _ => True)) :
    (taskMonitor H h task).Triple A (orInternalError p) (Answerable H h task) (fun _ => True) :=
  triple_attempt_bind hp (fun _ => triple_pure fun _ hφ => hφ) fun _ =>
    triple_pure fun φ _ => answerable_internalError φ

/-- **After the check** the token opens the address. -/
theorem triple_checked {email token : String} {next : GdprM GdprResponse}
    (hnext : ∀ now, checkGdprToken H h.unsubscribeSigningSecret email token now = none →
      (taskMonitor H h task).Triple (· = .at now) next (Answerable H h task) (fun _ => True)) :
    (taskMonitor H h task).Triple (· = .start) (checked H h email token next) (Answerable H h task)
      (fun _ => True) := by
  refine triple_bind triple_clock fun now => ?_
  cases hcheck : checkGdprToken H h.unsubscribeSigningSecret email token now with
  | some response => exact triple_pure fun φ _ => answerable_message φ response
  | none => exact hnext now hcheck

theorem triple_mailToken (ip raw email : String) (hemail : h.normalizedEmail raw = some email)
    (found : Except String (Option NewsletterSubscriber)) :
    (taskMonitor H h (.gdprRequestToken ip raw : Task P)).Triple (· = .start) (mailToken H h canMail email found)
      (fun _ _ => True) (fun _ => True) := by
  unfold mailToken
  split
  · refine triple_bind triple_clock fun now => ?_
    refine triple_attempt_bind (B := fun _ _ => True) (D := fun _ => True) ?_ (fun _ => triple_pure fun _ _ => trivial)
      fun _ => triple_pure fun _ _ => trivial
    unfold sendGdprVerificationEmail
    split
    · exact triple_call (fun _ _ => hemail) (fun _ _ _ => trivial) fun _ _ _ => trivial
    · exact triple_fail fun _ _ => trivial
  · exact triple_pure fun _ _ => trivial

theorem triple_requestToken (ip raw : String) :
    (taskMonitor H h (.gdprRequestToken ip raw : Task P)).Triple (· = .start)
      (newsletterGdprRequestToken H h canMail ip raw) (Answerable H h (.gdprRequestToken ip raw : Task P))
      (fun _ => True) := by
  unfold newsletterGdprRequestToken
  refine triple_bind (triple_allow _) fun allowed => ?_
  split
  · exact triple_pure fun φ _ => answerable_message φ _
  · split
    · exact triple_pure fun φ _ => answerable_message φ _
    · rename_i email hemail
      have hmail : ∀ found, (taskMonitor H h (.gdprRequestToken ip raw : Task P)).Triple (· = .start)
          (mailToken H h canMail email found >>= fun _ =>
            pure (.message ⟨200, true, "If this email is subscribed, a verification code has been sent."⟩))
          (Answerable H h (.gdprRequestToken ip raw : Task P)) (fun _ => True) := fun found =>
        triple_bind (triple_mailToken ip raw email hemail found) fun _ => triple_pure fun φ _ => answerable_message φ _
      -- a row that is read before the clock leaves the request where it stands
      refine triple_attempt_bind (B := fun φ _ => φ = .start) (D := (· = .start))
        (triple_call (fun _ _ => hemail) ?_ ?_) (fun row => hmail (.ok row)) fun e => hmail (.error e)
      · rintro φ row rfl
        rfl
      · rintro φ e rfl
        rfl

theorem triple_export (party : P) (ip raw token : String) :
    (taskMonitor H h (.gdprExport party ip raw token)).Triple (· = .start) (newsletterGdprExport H h ip raw token)
      (Answerable H h (.gdprExport party ip raw token)) (fun _ => True) := by
  unfold newsletterGdprExport
  refine triple_bind (triple_allow _) fun allowed => ?_
  split
  · exact triple_pure fun φ _ => answerable_message φ _
  · split
    · exact triple_pure fun φ _ => answerable_message φ _
    · rename_i email hemail
      refine triple_checked fun now hcheck => triple_orInternalError ?_
      refine triple_bind (B := fun φ row => φ = .read now email row) (triple_call ?_ ?_ ?_) fun row => ?_
      · rintro φ rfl
        exact ⟨now, rfl, hemail, hcheck⟩
      · rintro φ row rfl
        rfl
      · exact fun _ _ _ => trivial
      · refine triple_bind (triple_allow _) fun allowed => ?_
        split
        · exact triple_pure fun φ _ => answerable_message φ _
        · cases row with
          | none => exact triple_pure fun φ _ => answerable_message φ _
          | some row => exact triple_pure fun φ hφ => ⟨now, email, hφ, hemail, hcheck⟩

theorem triple_delete (party : P) (raw token : String) :
    (taskMonitor H h (.gdprDelete party raw token)).Triple (· = .start) (newsletterGdprDelete H h raw token)
      (Answerable H h (.gdprDelete party raw token)) (fun _ => True) := by
  unfold newsletterGdprDelete
  split
  · exact triple_pure fun φ _ => answerable_message φ _
  · rename_i email hemail
    refine triple_checked fun now hcheck => triple_orInternalError ?_
    refine triple_bind (B := fun _ _ => True) (triple_call ?_ (fun _ _ _ => trivial) fun _ _ _ => trivial) fun _ =>
      triple_pure fun φ _ => answerable_message φ _
    rintro φ rfl
    exact ⟨now, rfl, hemail, hcheck⟩

/-- **Every task** asks only what it may, where it stands. -/
theorem obeys_body (pid : Nat) (task : Task P) :
    (taskMonitor H h task).Obeys (fun _ _ => True) (taskMonitor H h task).start (body H h canMail pid task) := by
  have hrespond : ∀ {p : GdprM GdprResponse},
      (taskMonitor H h task).Triple (· = .start) p (Answerable H h task) (fun _ => True) →
      (taskMonitor H h task).Obeys (fun _ _ => True) .start (p >>= fun response => ask (.respond response)) := by
    intro p hp
    refine (triple_bind hp fun response => ?_ : (taskMonitor H h task).Triple _ _ (fun _ _ => True) _).obeys rfl
    exact triple_call (fun _ hφ => hφ) (fun _ _ _ => trivial) fun _ _ _ => trivial
  cases task with
  | gdprRequestToken ip email => exact hrespond (triple_requestToken ip email)
  | gdprExport party ip email token => exact hrespond (triple_export party ip email token)
  | gdprDelete party email token => exact hrespond (triple_delete party email token)

end Triples

/-! ## §4. Runs. -/

abbrev System : Type := Machine Nat Reply String State

abbrev Action (P : Type) : Type := Act Nat (Task P) String Bool Outside

def State.initial (now : UInt64) : State := ⟨now, ∅, []⟩

section Runs

variable (H : Hmac) (h : NewsletterHandler) (canMail : Bool) (ttl : UInt64) {P : Type} (owns : P → String → Prop)

def step : System → Action P → System := Machine.step server (body H h canMail) (outside ttl)

def after (now : UInt64) (as : List (Action P)) : System :=
  run (step H h canMail ttl) (Machine.idle (State.initial now)) as

def history (now : UInt64) (as : List (Action P)) : List (Transition System (Action P)) :=
  trace (step H h canMail ttl) (Machine.idle (State.initial now)) as

/-- The task that a process was last started on. -/
def taskOf (now : UInt64) (as : List (Action P)) : Nat → Task P :=
  Machine.tasksOf (.gdprRequestToken "" "") (history H h canMail ttl now as)

/-- The tokens that were mailed to the party's addresses. -/
def Mailed (party : P) (s : State) : Set Issued := {i | owns party i.email ∧ (i.email, i.token H) ∈ s.mails}

/-- The party and the token of a request. -/
def Task.shows : Task P → Option (P × String)
  | .gdprRequestToken .. => none
  | .gdprExport party _ _ token | .gdprDelete party _ token => some (party, token)

/-- A party that makes a request has no signature under the handler's secret
but from its mail. -/
def Vouched (task : Task P) (s : State) : Prop :=
  ∀ party token secret, task.shows = some (party, token) → h.unsubscribeSigningSecret = some secret →
    Unforged H (Mailed H owns party s) secret token

/-- So has every party that starts a request. -/
def ShowsMail (t : Transition System (Action P)) : Prop :=
  ∀ pid task, t.act = .start pid task → Vouched H h owns task t.pre.store

/-- The party reads the mail of the address, and a token was mailed there that
had not expired when this request read the clock. -/
def OpenedBy (m : System) (pid : Nat) (party : P) (email : String) : Prop :=
  owns party email ∧ ∃ (i : Issued) (now : UInt64), i.email = email ∧ h.unsubscribeSigningSecret = some i.secret
    ∧ (email, i.token H) ∈ m.store.mails ∧ now ≤ i.expiresAt
    ∧ ∃ l, m.procs pid = some l ∧ ⟨.clock, .ok now⟩ ∈ l.heard

end Runs

section Invariants

variable {H : Hmac} {h : NewsletterHandler} {canMail : Bool} {ttl : UInt64} {P : Type} {owns : P → String → Prop}
  {now : UInt64} {s s' : State} {q : Command}

/-- Rows stand under their addresses. -/
def RowsKeyed (rows : Subscribers) : Prop := ∀ e r, rows.lookup e = some r → r.email = e

theorem RowsKeyed.updateByEmail {rows : Subscribers} (hrows : RowsKeyed rows) (e' : String)
    {set : NewsletterSubscriber → NewsletterSubscriber} (hset : ∀ r, (set r).email = r.email) :
    RowsKeyed (Newsletter.updateByEmail e' set rows).2 := by
  intro e r hr
  rw [Newsletter.lookup_updateByEmail] at hr
  obtain ⟨old, hold, rfl⟩ := Option.map_eq_some_iff.mp hr
  split
  · exact (hset old).trans (hrows e old hold)
  · exact hrows e old hold

variable (ttl) in
theorem RowsKeyed.exec {rows : Subscribers} (hrows : RowsKeyed rows) (time : Int) (statement : Statement) :
    RowsKeyed (statement.exec ttl time rows) := by
  cases statement with
  | upsertPending email source token =>
      show RowsKeyed ((Newsletter.newsletterUpsertPending time email source token rows).getD rows)
      cases hstore : Newsletter.newsletterUpsertPending time email source token rows with
      | none => exact hrows
      | some rows' =>
          intro e r hr
          rw [Option.getD_some, Newsletter.lookup_upsertPending hstore] at hr
          split at hr
          · rename_i he
            cases hr
            exact he.symm
          · exact hrows e r hr
  | confirmByToken token =>
      intro e r hr
      rw [Newsletter.lookup_confirmByToken] at hr
      obtain ⟨old, hold, rfl⟩ := Option.map_eq_some_iff.mp hr
      split <;> exact hrows e old hold
  | deleteExpiredPending batchSize order =>
      intro e r hr
      rw [Newsletter.lookup_deleteExpiredPending] at hr
      split at hr
      · cases hr
      · exact hrows e r hr
  | unsubscribe email => exact hrows.updateByEmail email fun _ => rfl
  | softDelete email => exact hrows.updateByEmail email fun _ => rfl
  | gdprDelete email =>
      intro e r hr
      simp only [Statement.exec, Newsletter.newsletterGdprDelete, Store.lookup_erase_eq] at hr
      split at hr
      · cases hr
      · exact hrows e r hr

/-- What a question leaves: mail is only added, and rows keep their places. -/
theorem exec_spec {allowed : Bool} {v : Reply q} (hexec : exec allowed s q = some (v, s')) :
    s.mails ⊆ s'.mails ∧ (RowsKeyed s.rows → RowsKeyed s'.rows) := by
  cases q with
  | sendGdprVerificationEmail email token =>
      cases hexec
      exact ⟨List.subset_append_left _ _, fun hrows => hrows⟩
  | newsletterGdprDelete email =>
      cases hexec
      exact ⟨List.Subset.refl _, fun hrows => hrows.exec 0 0 (.gdprDelete email)⟩
  | allow key | clock | newsletterGetByEmail email | respond response =>
      cases hexec
      exact ⟨List.Subset.refl _, fun hrows => hrows⟩

variable (H h canMail ttl) in
theorem step_spec (m : System) (a : Action P) :
    m.store.mails ⊆ (step H h canMail ttl m a).store.mails
      ∧ (RowsKeyed m.store.rows → RowsKeyed (step H h canMail ttl m a).store.rows) := by
  rcases m.store_step_cases server (body H h canMail) (outside ttl) a with hsame | ⟨q, allowed, v, -, hexec, -⟩
    | ⟨w, -, hw⟩
  · have hstore : (step H h canMail ttl m a).store = m.store := hsame
    rw [hstore]
    exact ⟨List.Subset.refl _, fun hrows => hrows⟩
  · exact exec_spec hexec
  · have hstore : (step H h canMail ttl m a).store = outside ttl w m.store := hw
    rw [hstore]
    cases w with
    | tick later => exact ⟨List.Subset.refl _, fun hrows => hrows⟩
    | statement statement other => exact ⟨List.Subset.refl _, fun hrows => hrows.exec ttl _ statement⟩

theorem Vouched.mono {task : Task P} (hv : Vouched H h owns task s) (hmails : s.mails ⊆ s'.mails) :
    Vouched H h owns task s' := by
  intro party token secret htask hsecret expiresAtStr signature hcut payload hsig
  obtain ⟨i, ⟨hown, hmail⟩, hi⟩ := hv party token secret htask hsecret expiresAtStr signature hcut payload hsig
  exact ⟨i, ⟨hown, hmails hmail⟩, hi⟩

/-- **Every request in flight** comes from a party that has no signature but from its mail. -/
theorem vouched_after (now : UInt64) (as : List (Action P))
    (hshows : ∀ t ∈ history H h canMail ttl now as, ShowsMail H h owns t) :
    ∀ pid l, (after H h canMail ttl now as).procs pid = some l →
      Vouched H h owns (taskOf H h canMail ttl now as pid) (after H h canMail ttl now as).store := by
  refine history_invariant (step H h canMail ttl)
    (fun history (m : System) => ∀ pid l, m.procs pid = some l →
      Vouched H h owns (Machine.tasksOf (.gdprRequestToken "" "") history pid) m.store)
    (fun t => ShowsMail H h owns t) ?_ ?_ as hshows
  · intro pid l hl
    cases hl
  · intro as a hbefore hshow pid l' hl'
    rw [Machine.tasksOf_concat]
    have hmails := (step_spec H h canMail ttl
      (run (step H h canMail ttl) (Machine.idle (State.initial now)) as) a).1
    rcases Machine.procs_step_cases server (body H h canMail) (outside ttl) hl' with ⟨hold, -⟩
      | ⟨task, q, k, rfl, hnone, -, -⟩ | ⟨l, s, r, q, k, ha, hl, -, -, -, -⟩
    · rw [Machine.tasksAfter_eq hold]
      exact (hbefore pid l' hold).mono hmails
    · have htask : Machine.tasksAfter (Machine.tasksOf (.gdprRequestToken "" "")
          (trace (step H h canMail ttl) (Machine.idle (State.initial now)) as))
          (run (step H h canMail ttl) (Machine.idle (State.initial now)) as) (.start pid task : Action P) pid
            = task := by
        simp [Machine.tasksAfter, hnone]
      rw [htask]
      exact (hshow pid task rfl).mono hmails
    · rw [Machine.tasksAfter_eq hl]
      exact (hbefore pid l hl).mono hmails

/-- Rows that were read stood under the address that was asked for. -/
theorem email_of_heard (now : UInt64) (as : List (Action P)) :
    RowsKeyed (after H h canMail ttl now as).store.rows
      ∧ ∀ pid l, (after H h canMail ttl now as).procs pid = some l → ∀ email row,
        ⟨.newsletterGetByEmail email, .ok (some row)⟩ ∈ l.heard → row.email = email := by
  refine run_invariant_of (step H h canMail ttl)
    (fun (m : System) => RowsKeyed m.store.rows ∧ ∀ pid l, m.procs pid = some l → ∀ email row,
      ⟨.newsletterGetByEmail email, .ok (some row)⟩ ∈ l.heard → row.email = email) (fun _ => True) ?_ ?_ as
    fun _ _ => trivial
  · refine ⟨fun e r hr => ?_, fun pid l hl => ?_⟩
    · rw [show (Machine.idle (State.initial now) : System).store.rows = ∅ from rfl, AList.lookup_empty] at hr
      cases hr
    · cases hl
  · rintro m a ⟨hrows, hheard⟩ -
    refine ⟨(step_spec H h canMail ttl m a).2 hrows, fun pid l' hl' email row hx => ?_⟩
    rcases Machine.heard_step server (body H h canMail) (outside ttl) hl' hx with ⟨l, hl, hold⟩
      | ⟨q, s, r, ha, hr, -, -, hnew⟩
    · exact hheard pid l hl email row hold
    · cases hnew
      rcases Machine.reply_cases server ha hr with ⟨allowed, v, -, hv, hexec⟩ | ⟨e, -, he, -⟩
        | ⟨allowed, e, v, -, he, -⟩
      · cases hv
        have hget := (Prod.mk.inj (Option.some.inj hexec)).1
        exact hrows email row (Newsletter.getByEmail_eq_some.mp hget).1
      · cases he
      · cases he

/-- What a request in this phase has heard. -/
def Phase.Told (heard : List (Exchange Reply String)) : Phase → Prop
  | .start => True
  | .at now => ⟨.clock, .ok now⟩ ∈ heard
  | .read now email row => ⟨.clock, .ok now⟩ ∈ heard ∧ ⟨.newsletterGetByEmail email, .ok row⟩ ∈ heard

theorem Phase.Told.mono {heard heard' : List (Exchange Reply String)} {φ : Phase} (hφ : φ.Told heard)
    (hheard : heard ⊆ heard') : φ.Told heard' := by
  cases φ with
  | start => trivial
  | «at» now => exact hheard hφ
  | read now email row => exact ⟨hheard hφ.1, hheard hφ.2⟩

variable (H h) in
theorem told_phaseAfter (task : Task P) (heard : List (Exchange Reply String)) :
    (Machine.phaseAfter (taskMonitor H h task) heard).Told heard := by
  induction heard using List.reverseRecOn with
  | nil => trivial
  | append_singleton heard x ih =>
      rw [Machine.phaseAfter_concat]
      show (Phase.next _ x.question x.answer).Told _
      have hlast : x ∈ heard ++ [x] := List.mem_append_right _ (List.mem_singleton_self x)
      have hstay := ih.mono (List.subset_append_left heard [x])
      obtain ⟨q, r⟩ := x
      cases q with
      | clock =>
          cases r with
          | ok now => exact hlast
          | error e => exact hstay
      | newsletterGetByEmail email =>
          cases r with
          | ok row =>
              unfold Phase.next
              dsimp only
              split
              · rename_i now hat
                rw [hat] at hstay
                exact ⟨hstay, hlast⟩
              · exact hstay
          | error e => exact hstay
      | allow key | sendGdprVerificationEmail email token | newsletterGdprDelete email | respond response => exact hstay

/-! ## §5. Only the mailbox opens a record. -/

/-- **The check** lets a party pass with what was mailed to it. -/
theorem openedBy_of_opens (hideal : H.Ideal) {m : System} {pid : Nat} {party : P} {task : Task P}
    {raw token email : String} {checked : UInt64} (hv : Vouched H h owns task m.store)
    (htask : task.shows = some (party, token)) (hopens : Opens H h raw token email checked)
    (hheard : ∃ l, m.procs pid = some l ∧ ⟨.clock, .ok checked⟩ ∈ l.heard) : OpenedBy H h owns m pid party email := by
  obtain ⟨secret, hsecret, hverify⟩ := checkGdprToken_eq_none_iff.mp hopens.2
  obtain ⟨i, ⟨hown, hmail⟩, rfl, rfl, hexpiry⟩ := issued_of_verify hideal (hv party token secret htask hsecret) hverify
  exact ⟨hown, i, checked, rfl, hsecret, hmail, hexpiry, hheard⟩

/-- **Only the mailbox opens a record.**  However requests interleave and
whatever fails: a record is erased by a request, or shown in a response, only
to a party that reads the mail of its address, after a token was mailed there
and before it expired. -/
theorem gdpr_needs_the_mailbox (H : Hmac) (hideal : H.Ideal) (h : NewsletterHandler) (canMail : Bool) (ttl : UInt64)
    (owns : P → String → Prop) (now : UInt64) (as : List (Action P))
    (hshows : ∀ t ∈ history H h canMail ttl now as, ShowsMail H h owns t) (a : Action P) (q : Command)
    (hasks : (after H h canMail ttl now as).performs a = some q) :
    (∀ email, q = .newsletterGdprDelete email → ∃ pid party raw token, a.asker = some pid
        ∧ taskOf H h canMail ttl now as pid = .gdprDelete party raw token
        ∧ OpenedBy H h owns (after H h canMail ttl now as) pid party email)
      ∧ ∀ row, q = .respond (.data row) → ∃ pid party ip raw token, a.asker = some pid
        ∧ taskOf H h canMail ttl now as pid = .gdprExport party ip raw token
        ∧ OpenedBy H h owns (after H h canMail ttl now as) pid party row.email := by
  -- the process that asks, in the phase that its task allows
  have hprocess : ∃ pid l, a.asker = some pid ∧ (after H h canMail ttl now as).procs pid = some l ∧ l.question = q := by
    have hlive : ∀ pid, ((after H h canMail ttl now as).procs pid).map (·.question) = some q →
        ∃ l, (after H h canMail ttl now as).procs pid = some l ∧ l.question = q := fun pid hq =>
      Option.map_eq_some_iff.mp hq
    cases a with
    | answer pid c =>
        obtain ⟨l, hl, hq⟩ := hlive pid hasks
        exact ⟨pid, l, rfl, hl, hq⟩
    | lose pid c e =>
        obtain ⟨l, hl, hq⟩ := hlive pid hasks
        exact ⟨pid, l, rfl, hl, hq⟩
    | start pid task | refuse pid e | crash pid | outside w => cases hasks
  obtain ⟨pid, l, hpid, hl, hq⟩ := hprocess
  have hpermits : permits H h (taskOf H h canMail ttl now as pid)
      (Machine.phaseAfter (taskMonitor H h (taskOf H h canMail ttl now as pid)) l.heard) q := by
    have hmonitored : Machine.TasksMonitored (taskMonitor H h) (fun _ _ _ => True)
        (taskOf H h canMail ttl now as) (after H h canMail ttl now as) :=
      Machine.tasksMonitored_run obeys_body (.gdprRequestToken "" "") (State.initial now) as
    exact hq ▸ (hmonitored pid l hl).1
  have htold := told_phaseAfter H h (taskOf H h canMail ttl now as pid) l.heard
  have hvouched := vouched_after now as hshows pid l hl
  generalize Machine.phaseAfter (taskMonitor H h (taskOf H h canMail ttl now as pid)) l.heard = φ at hpermits htold
  refine ⟨?_, ?_⟩
  · rintro email rfl
    cases htask : taskOf H h canMail ttl now as pid with
    | gdprRequestToken ip raw | gdprExport party ip raw token =>
        rw [htask] at hpermits
        exact hpermits.elim
    | gdprDelete party raw token =>
        rw [htask] at hpermits hvouched
        obtain ⟨checked, rfl, hopens⟩ := hpermits
        exact ⟨pid, party, raw, token, hpid, htask, openedBy_of_opens hideal hvouched rfl hopens ⟨l, hl, htold⟩⟩
  · rintro row rfl
    cases htask : taskOf H h canMail ttl now as pid with
    | gdprRequestToken ip raw | gdprDelete party raw token =>
        rw [htask] at hpermits
        exact hpermits.elim
    | gdprExport party ip raw token =>
        rw [htask] at hpermits hvouched
        obtain ⟨checked, email, rfl, hopens⟩ := hpermits
        obtain ⟨hclock, hread⟩ := htold
        obtain rfl := (email_of_heard now as).2 pid l hl email row hread
        exact ⟨pid, party, ip, raw, token, hpid, htask, openedBy_of_opens hideal hvouched rfl hopens ⟨l, hl, hclock⟩⟩

end Invariants

/-- A handler with a secret, which takes any address as it is. -/
def sampleHandler : NewsletterHandler where
  crates := ⟨id, fun _ => true, fun _ => "", fun _ _ => none, fun _ _ => none⟩
  baseUrl := ""
  unsubscribeSigningSecret := some "test-secret"
  newsletterTokenTtlSecs := 86400

/-- Somebody subscribes, and is mailed a token. -/
def sampleMailed : List (Action Unit) :=
  [.outside (.statement (.upsertPending "a:b.c@example.com" "direct" "token") fun _ h => by cases h),
    .outside (.tick 1000),
    .start 0 (.gdprRequestToken "10.0.0.1" "a:b.c@example.com")] ++ List.replicate 5 (.answer 0 true)

/-- They send it back, and it is checked. -/
def sampleErasure : List (Action Unit) :=
  sampleMailed ++ [.start 1 (.gdprDelete () "a:b.c@example.com" (sampleIssued.token Signing.plainHmac)), .answer 1 true]

/-- Nothing but what is in the mail. -/
theorem sampleErasure_shows (t : Transition System (Action Unit))
    (ht : t ∈ history Signing.plainHmac sampleHandler true 86400 0 sampleErasure) :
    ShowsMail Signing.plainHmac sampleHandler (fun _ e => e = "a:b.c@example.com") t := by
  have hearlier : ∀ t ∈ history Signing.plainHmac sampleHandler true 86400 0 sampleMailed,
      ShowsMail Signing.plainHmac sampleHandler (fun _ e => e = "a:b.c@example.com") t := by
    intro t ht pid task hact party token secret htask
    have hmem := act_mem_of_mem_trace _ ht
    rw [hact] at hmem
    simp only [sampleMailed, List.replicate, List.cons_append, List.nil_append, List.mem_cons, List.not_mem_nil,
      reduceCtorEq, false_or, or_false, Act.start.injEq] at hmem
    rw [hmem.2] at htask
    cases htask
  unfold history sampleErasure at ht
  rw [trace_append, List.mem_append] at ht
  rcases ht with hold | hnew
  · exact hearlier t hold
  · simp only [trace, List.mem_cons, List.not_mem_nil, or_false] at hnew
    rcases hnew with rfl | rfl
    · intro pid task hact party token secret htask hsecret
      cases hact
      cases htask
      cases hsecret
      -- the signature is that of the token in the mail
      intro expiresAtStr signature hcut payload hsig
      obtain ⟨i, hi, hissued⟩ := sampleIssued_unforged expiresAtStr signature hcut payload hsig
      obtain rfl := hi
      refine ⟨sampleIssued, ⟨rfl, ?_⟩, hissued⟩
      have hmail : (after Signing.plainHmac sampleHandler true 86400 0 sampleMailed).store.mails
          = [("a:b.c@example.com", sampleIssued.token Signing.plainHmac)] := by decide +kernel
      exact hmail ▸ List.mem_singleton_self _
    · intro pid task hact
      cases hact

theorem gdpr_needs_the_mailbox_sample :
    ∃ pid party raw token, (.answer 1 true : Action Unit).asker = some pid
      ∧ taskOf Signing.plainHmac sampleHandler true 86400 0 sampleErasure pid = .gdprDelete party raw token
      ∧ OpenedBy Signing.plainHmac sampleHandler (fun (_ : Unit) e => e = "a:b.c@example.com")
        (after Signing.plainHmac sampleHandler true 86400 0 sampleErasure) pid party "a:b.c@example.com" :=
  (gdpr_needs_the_mailbox Signing.plainHmac Signing.plainHmac_ideal sampleHandler true 86400
    (fun _ e => e = "a:b.c@example.com") 0 sampleErasure sampleErasure_shows (.answer 1 true)
    (.newsletterGdprDelete "a:b.c@example.com") rfl).1 _ rfl

end PredictIQ.Api.Gdpr
