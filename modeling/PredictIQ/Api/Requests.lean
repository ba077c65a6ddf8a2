/-
  PredictIQ.Api.Requests: what API requests ask of the database, beside the
  email workers.

  The server answers the commands of the email service and the statements of
  the webhook and the newsletter handlers; they share the clock, Redis and the
  database.  `lift` runs a program of the email service on this server.
-/
import PredictIQ.Email.Queue
import PredictIQ.Newsletter.Subscribers
import PredictIQ.Foundation.TaskHistory

namespace PredictIQ.Api

open Foundation

/-! ## §1. Tables. -/

inductive SuppressionType where
  | bounce | complaint | unsubscribe | manual
  deriving DecidableEq, Repr

def SuppressionType.asStr : SuppressionType → String
  | .bounce => "bounce"
  | .complaint => "complaint"
  | .unsubscribe => "unsubscribe"
  | .manual => "manual"

/-- The counters of a row of `email_analytics`. -/
inductive AnalyticsColumn where
  | sent | delivered | opened | clicked | bounced | complained | unsubscribed
  deriving DecidableEq, Repr

/-- The unique columns of `email_analytics`; a date is its number of days since the epoch. -/
structure AnalyticsKey where
  templateName : String
  variantName : String
  date : Int
  deriving DecidableEq

abbrev Analytics : Type := Store AnalyticsKey (AnalyticsColumn → Nat)

/-- `INSERT … ON CONFLICT … DO UPDATE SET column = column + 1`. -/
def increment (column : AnalyticsColumn) (key : AnalyticsKey) (t : Analytics) : Analytics :=
  let row := (t.lookup key).getD fun _ => 0
  t.insert key (Function.update row column (row column + 1))

/-- What a counter adds up to, over all rows. -/
def countOf (column : AnalyticsColumn) (t : Analytics) : Int := t.total fun _ row => (row column : Int)

theorem countOf_increment (column : AnalyticsColumn) (key : AnalyticsKey) (t : Analytics) :
    countOf column (increment column key t) = countOf column t + 1 := by
  unfold countOf increment
  rw [Store.total_insert_getD _ _ _ _ (fun _ => 0) rfl]
  simp only [Function.update_self]
  push_cast
  ring

/-! ## §2. Events of SendGrid. -/

/-- An event as `sanitize_event` leaves it. -/
structure SendGridEvent where
  email : String
  event : String
  timestamp : Int
  messageId : Option String
  reason : Option String
  status : Option String
  response : Option String
  bounceClassification : Option String
  url : Option String
  deriving DecidableEq

/-! ## §3. Commands. -/

inductive Command where
  | email (q : Email.Command)
  | emailEventExists (messageId : Option String) (eventType email : String)
  | emailAddSuppression (email suppressionType : String) (reason bounceType : Option String)
  | emailIncrementAnalyticsCounter (column : AnalyticsColumn) (key : AnalyticsKey)
  | newsletterGetByEmail (normalizedEmail : String)
  | newsletterUpsertPending (normalizedEmail source confirmationToken : String)
  | newsletterConfirmByToken (token : String) (tokenTtlSecs : UInt64)
  | newsletterUnsubscribe (normalizedEmail : String)
  | newToken
  | respondEvent (event : SendGridEvent) (result : Except String Unit)

@[reducible] def Reply : Command → Type
  | .email q => Email.Reply q
  | .emailEventExists .. => Bool
  | .newsletterGetByEmail _ => Option Newsletter.NewsletterSubscriber
  | .newsletterConfirmByToken .. => Bool
  | .newsletterUnsubscribe _ => Bool
  | .newToken => String
  | _ => Unit

/-- What a command leaves open: that of the email service, and a random token. -/
structure Choice where
  email : Email.Choice
  token : String

structure Backend where
  email : Email.Backend
  analytics : Analytics := ∅
  subscribers : Newsletter.Subscribers := ∅

namespace Backend

variable (b : Backend)

/-- The database's clock, in microseconds. -/
def nowMicros : Int := b.email.now * 1000000

/-- `message_id IS NOT DISTINCT FROM $1 AND event_type = $2 AND recipient_email = $3`. -/
def eventExists (messageId : Option String) (eventType email : String) : Bool :=
  b.email.db.events.any fun e =>
    e.messageId == messageId && e.eventType == eventType && e.recipientEmail == email

/-- The address has a row, whose other columns nothing here reads. -/
def suppress (email : String) : Backend :=
  if email ∈ b.email.db.suppressions then b
  else { b with email.db.suppressions := email :: b.email.db.suppressions }

end Backend

def exec (c : Choice) (b : Backend) : (q : Command) → Option (Reply q × Backend)
  | .email q => (Email.exec c.email b.email q).map fun r => (r.1, { b with email := r.2 })
  | .emailEventExists messageId eventType email => some (b.eventExists messageId eventType email, b)
  | .emailAddSuppression email _ _ _ => some ((), b.suppress email)
  | .emailIncrementAnalyticsCounter column key =>
      some ((), { b with analytics := increment column key b.analytics })
  | .newsletterGetByEmail email => some (Newsletter.newsletterGetByEmail email b.subscribers, b)
  | .newsletterUpsertPending email source token =>
      (Newsletter.newsletterUpsertPending b.nowMicros email source token b.subscribers).map fun rows =>
        ((), { b with subscribers := rows })
  | .newsletterConfirmByToken token ttl =>
      (Newsletter.newsletterConfirmByToken b.nowMicros token ttl b.subscribers).map fun r =>
        (r.1, { b with subscribers := r.2 })
  | .newsletterUnsubscribe email =>
      let r := Newsletter.newsletterUnsubscribe b.nowMicros email b.subscribers
      some (r.1, { b with subscribers := r.2 })
  | .newToken => some (c.token, b)
  | .respondEvent .. => some ((), b)

/-- A response and a random token cannot fail; every statement can. -/
def fallible : Command → Bool
  | .email q => Email.fallible q
  | .newToken | .respondEvent .. => false
  | _ => true

def server : Server Reply Backend Choice := ⟨exec, fallible⟩

abbrev ApiM (α : Type) : Type := Prog Reply String α

abbrev request (q : Command) : ApiM (Reply q) := Prog.call q

/-- A program of the email service. -/
def lift {α : Type} : Email.EmailM α → ApiM α
  | .done r => .done r
  | .ask q k => .ask (.email q) fun r => lift (k r)

/-- Time passes. -/
inductive Outside where
  | tick (seconds : Nat)

def outside : Outside → Backend → Backend
  | .tick seconds, b => { b with email.now := b.email.now + seconds }

/-! ## §4. Programs of the email service on this server. -/

section Lift

open Monitor

variable {α β : Type}

theorem Uses.lift {S : Command → Prop} {p : Email.EmailM α} (h : p.Uses fun q => S (.email q)) :
    (lift p).Uses S := by
  induction p with
  | done r => trivial
  | ask q k ih => exact ⟨h.1, fun r => ih r (h.2 r)⟩

/-- What a monitor of this server sees of the email service. -/
def emailMonitor {Φ : Type} (M : Monitor Reply String Φ) : Monitor Email.Reply String Φ where
  start := M.start
  next φ q r := M.next φ (.email q) r
  allows φ q := M.allows φ (.email q)

theorem obeys_lift {Φ : Type} {M : Monitor Reply String Φ} {post : Φ → Except String α → Prop} {φ : Φ}
    {p : Email.EmailM α} : M.Obeys post φ (lift p) ↔ (emailMonitor M).Obeys post φ p := by
  induction p generalizing φ with
  | done r => exact Iff.rfl
  | ask q k ih => exact and_congr_right fun _ => forall_congr' fun r => ih r

end Lift

end PredictIQ.Api
