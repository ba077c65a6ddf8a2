/-
  PredictIQ.Api.Suppression: mail to suppressed addresses.

  Webhook deliveries, queue workers and API requests run over one server, and
  `email_remove_suppression` may be called at any time.  `process_job` asks
  for the recipient as the job has it, and the webhook suppresses an address as
  the event has it: addresses that mean one mailbox are told apart by their
  spelling.  `suppressed_get_no_mail` says that a suppressed address gets no
  mail from jobs taken up later, in a run in which they are spelled alike, no
  guard turns away an event whose address is not suppressed, and nobody lifts a
  suppression while the delivery that wrote it is still under way.
-/
import PredictIQ.Api.Webhook

namespace PredictIQ.Api

open Foundation

/-! ## §1. Webhooks and workers together. -/

inductive MailTask where
  | webhook (event : SendGridEvent)
  | queue (task : Email.Task)

/-- Time passes; a suppression is lifted. -/
inductive MailOutside where
  | tick (seconds : Nat)
  | emailRemoveSuppression (email : String)

/-- The row of exactly this address goes. -/
def Backend.emailRemoveSuppression (b : Backend) (email : String) : Backend :=
  { b with email.db.suppressions := b.email.db.suppressions.filter fun address => decide (address ≠ email) }

def mailOutside : MailOutside → Backend → Backend
  | .tick seconds, b => { b with email.now := b.email.now + seconds }
  | .emailRemoveSuppression email, b => b.emailRemoveSuppression email

abbrev Mail : Type := Machine Email.Uuid Reply String Backend

abbrev MailAction : Type := Act Email.Uuid MailTask String Choice MailOutside

section Setup

variable (h : WebhookHandler) (svc : Email.EmailService)

def mailBody (pid : Email.Uuid) : MailTask → ApiM Unit
  | .webhook event => h.deliver event
  | .queue task => lift (Email.body svc pid task)

def Mail.step : Mail → MailAction → Mail := Machine.step server (mailBody h svc) mailOutside

/-! ## §2. No mail to a suppressed address. -/

/-- The suppressing event whose handler has returned `Ok`, at its response. -/
def Command.handled? : Command → Option SendGridEvent
  | .respondEvent event (.ok ()) => if suppresses event.event then some event else none
  | _ => none

def Mail.handled? (m : Mail) (p : Email.Uuid) : Option SendGridEvent := (m.procs p).bind fun l => l.question.handled?

/-- In this step `process_event` returns `Ok` for a suppressing event. -/
def Handles (t : Transition Mail MailAction) (event : SendGridEvent) : Prop :=
  ∃ p, t.act.asker = some p ∧ t.pre.handled? p = none ∧ t.post.handled? p = some event

/-- In this step SendGrid accepts an email of process `p`. -/
def Accepts (t : Transition Mail MailAction) (p : Email.Uuid) (payload : Email.Payload) : Prop :=
  t.act.asker = some p ∧ t.post.store.email.accepted = t.pre.store.email.accepted ++ [payload]

/-- Whether an answer hands a process the row of a job. -/
def readsJob : (q : Command) → Except String (Reply q) → Bool
  | .email (.getJob _), .ok (some _) => true
  | _, _ => false

/-- Process `p` has been handed a row in this part of the log. -/
def HasRead (p : Email.Uuid) (log : List (Email.Uuid × Exchange Reply String)) : Prop :=
  ∃ x ∈ log, x.1 = p ∧ readsJob x.2.question x.2.answer = true

/-- Two spellings of one mailbox, by what `lower` makes of letter case. -/
def SameMailbox (lower : String → String) (address address' : String) : Prop :=
  lower (Email.trim address) = lower (Email.trim address')

instance (lower : String → String) (address address' : String) : Decidable (SameMailbox lower address address') :=
  inferInstanceAs (Decidable (_ = _))

/-- Once a suppressing event has been handled, and while the suppression is not
lifted, no job that is taken up later leads to an email to the address. -/
def SuppressedGetNoMail (lower : String → String) (b : Backend) (as : List MailAction) : Prop :=
  ∀ bs a cs event, as = bs ++ a :: cs →
    Handles ⟨run (Mail.step h svc) (.idle b) bs, a, run (Mail.step h svc) (.idle b) (bs ++ [a])⟩ event →
    (∀ c ∈ cs, c ≠ .outside (.emailRemoveSuppression event.email)) →
    ∀ t ∈ trace (Mail.step h svc) (run (Mail.step h svc) (.idle b) (bs ++ [a])) cs, ∀ p payload, Accepts t p payload →
      lower payload.toEmail = lower (Email.trim event.email) →
      ∀ new, t.pre.log = (run (Mail.step h svc) (.idle b) (bs ++ [a])).log ++ new → ¬HasRead p new

end Setup

/-! ## §3. When it holds. -/

/-- The answer by which a delivery gets past its guards. -/
def passes : (q : Command) → Except String (Reply q) → Bool
  | .emailEventExists .., .ok found => !found
  | _, _ => false

/-- The address that an answered statement has suppressed. -/
def written? : (q : Command) → Except String (Reply q) → Option String
  | .emailAddSuppression email .., .ok _ => some email
  | _, _ => none

/-- The recipient that a command looks up. -/
def Command.recipient? : Command → Option String
  | .email (.isSuppressed recipient) => some recipient
  | _ => none

/-- A suppressing event that a guard turns away with `Ok` finds its address suppressed. -/
def GuardsHold (t : Transition Mail MailAction) : Prop :=
  ∀ p ∈ t.act.asker, ∀ l ∈ t.post.procs p, ∀ event ∈ l.question.handled?,
    (∃ x ∈ l.heard, passes x.question x.answer = true) ∨ event.email ∈ t.post.store.email.db.suppressions

/-- No suppression is lifted while the delivery that wrote it is under way. -/
def LiftsLate (t : Transition Mail MailAction) : Prop :=
  ∀ email, t.act = .outside (.emailRemoveSuppression email) → ∀ p l, t.pre.procs p = some l →
    ∀ x ∈ l.heard, written? x.question x.answer ≠ some email

/-- The recipient that `process_job` asks for is suppressed as it is spelled, or not at all. -/
def SpellsAlike (lower : String → String) (t : Transition Mail MailAction) : Prop :=
  ∀ p ∈ t.act.asker, ∀ l ∈ t.pre.procs p, ∀ recipient ∈ l.question.recipient?,
    ∀ address ∈ t.pre.store.email.db.suppressions, SameMailbox lower address recipient →
      recipient ∈ t.pre.store.email.db.suppressions

instance (t : Transition Mail MailAction) : Decidable (GuardsHold t) := by
  unfold GuardsHold
  infer_instance

instance (lower : String → String) (t : Transition Mail MailAction) : Decidable (SpellsAlike lower t) := by
  unfold SpellsAlike
  infer_instance

/-! ## §4. What a process knows. -/

/-- The row read last, with whether its recipient has been found unsuppressed
since; whether the guards have been passed; the address suppressed last. -/
structure Watch where
  row : Option (Email.EmailJob × Bool)
  passed : Bool
  written : Option String

namespace Watch

def next : Watch → (q : Command) → Except String (Reply q) → Watch
  | w, .email (.getJob _), .ok (some job) => { w with row := some (job, false) }
  | ⟨some (job, cleared), passed, written⟩, .email (.isSuppressed email), .ok found =>
      if email = job.recipientEmail then ⟨some (job, !found), passed, written⟩ else ⟨some (job, cleared), passed, written⟩
  | w, .emailEventExists .., .ok found => { w with passed := w.passed || !found }
  | w, .emailAddSuppression email .., .ok _ => { w with written := some email }
  | w, _, _ => w

/-- An email goes to the recipient of a row that has been found unsuppressed;
`Ok` is returned for a suppressing event when it is turned away, or its address
written. -/
def allows : Watch → Command → Prop
  | w, .email (.post payload) => ∃ job, w.row = some (job, true) ∧ payload.toEmail = Email.trim job.recipientEmail
  | w, .respondEvent event result =>
      result = .ok () → suppresses event.event = true → w.passed = false ∨ w.written = some event.email
  | _, _ => True

end Watch

def watchMonitor : Monitor Reply String Watch := ⟨⟨none, false, none⟩, Watch.next, Watch.allows⟩

section Programs

open Monitor

variable {w : Watch} {α : Type}

/-- The commands of the email service that neither read a row, nor ask for a recipient, nor send. -/
def isQuiet : Email.Command → Bool
  | .getJob _ | .isSuppressed _ | .post _ => false
  | _ => true

theorem watch_quiet {q : Email.Command} (hq : isQuiet q = true) (w : Watch) :
    (emailMonitor watchMonitor).allows w q ∧ ∀ r, (emailMonitor watchMonitor).next w q r = w := by
  obtain ⟨_ | ⟨job, cleared⟩, passed, written⟩ := w
  all_goals
    cases q <;> cases hq
    all_goals
      refine ⟨trivial, fun r => ?_⟩
      cases r <;> rfl

theorem quiet_of_background {q : Email.Command} (hq : q.isBackground = true) : isQuiet q = true := by
  cases q <;> first | rfl | cases hq

/-- The commands that any process may ask at any time. -/
def Unwatched (q : Email.Command) : Prop := ∀ w, (emailMonitor watchMonitor).allows w q

theorem unwatched_of_ne_post {q : Email.Command} (hq : ∀ payload, q ≠ .post payload) : Unwatched q := by
  intro w
  cases q with
  | post payload => exact absurd rfl (hq payload)
  | _ => trivial

theorem unwatched_of_background {q : Email.Command} (hq : q.isBackground = true) : Unwatched q :=
  fun w => (watch_quiet (quiet_of_background hq) w).1

theorem unwatched_of_bookkeeping {q : Email.Command} (hq : q.isBookkeeping = true) : Unwatched q :=
  unwatched_of_ne_post fun payload h => by rw [h] at hq; cases hq

theorem quiet_then {p : Email.EmailM α} {β : Type} {f : α → Email.EmailM β} {post : Watch → Except String β → Prop}
    (hp : p.Uses fun q => isQuiet q = true) (hok : ∀ a, (emailMonitor watchMonitor).Obeys post w (f a))
    (herr : ∀ e, post w (.error e)) : (emailMonitor watchMonitor).Obeys post w (p >>= f) :=
  obeys_bind_of_uses hp (fun _ hq => watch_quiet hq _) hok herr

theorem obeys_unwatched {p : Email.EmailM α} (hp : p.Uses Unwatched) :
    (emailMonitor watchMonitor).Obeys (fun _ _ => True) w p :=
  obeys_of_uses_allowed hp fun w _ hq => hq w

/-- Requests to SendGrid go to the recipient that has been cleared. -/
theorem obeys_postRetrying {svc : Email.EmailService} {payload : Email.Payload} {job : Email.EmailJob}
    (hrow : w.row = some (job, true)) (hto : payload.toEmail = Email.trim job.recipientEmail) (n : Nat) :
    (emailMonitor watchMonitor).Obeys (fun _ _ => True) w (svc.postRetrying payload n) := by
  have hallows : (emailMonitor watchMonitor).allows w (.post payload) := ⟨job, hrow, hto⟩
  have hnext : ∀ r, (emailMonitor watchMonitor).next w (.post payload) r = w := by
    intro r
    obtain ⟨_ | row, passed, written⟩ := w <;> rfl
  induction n with
  | zero =>
      refine obeys_mapError_call_bind.mpr ⟨hallows, fun response => ?_, fun e => trivial⟩
      split <;> trivial
  | succ n ih =>
      refine obeys_mapError_call_bind.mpr ⟨hallows, fun response => ?_, fun e => trivial⟩
      rw [hnext]
      split
      · trivial
      · split
        · exact ih
        · trivial

theorem eq_trim_of_sanitizeEmail {x : Email.Crates} {raw address : String} (h : Email.sanitizeEmail x raw = .ok address) :
    address = Email.trim raw := by
  unfold Email.sanitizeEmail at h
  dsimp only at h
  split at h
  · cases h
  · split at h
    · cases h
    · split at h
      · cases h
      · exact (Except.ok.inj h).symm

/-- The request for a job goes to its recipient, without the blanks around it. -/
theorem toEmail_of_payload {svc : Email.EmailService} {recipient templateName : String} {data : Email.Value}
    {payload : Email.Payload} (h : svc.payload recipient templateName data = .ok payload) :
    payload.toEmail = Email.trim recipient := by
  unfold Email.EmailService.payload at h
  cases haddress : Email.sanitizeEmail svc.crates recipient with
  | error e =>
      rw [haddress] at h
      cases h
  | ok address =>
      rw [haddress] at h
      cases hkey : svc.config.sendgridApiKey with
      | none =>
          rw [hkey] at h
          cases h
      | some key =>
          cases hfrom : svc.config.fromEmail with
          | none =>
              rw [hkey, hfrom] at h
              cases h
          | some fromEmail =>
              cases hrender : Email.render svc.crates templateName data with
              | error e =>
                  rw [hkey, hfrom, hrender] at h
                  cases h
              | ok html =>
                  rw [hkey, hfrom, hrender] at h
                  cases h
                  exact eq_trim_of_sanitizeEmail haddress

/-- A cleared job is sent to its recipient only. -/
theorem obeys_sendEmailIdempotent {svc : Email.EmailService} {job : Email.EmailJob} (hrow : w.row = some (job, true))
    (idemKey : Option String) :
    (emailMonitor watchMonitor).Obeys (fun _ _ => True) w
      (svc.sendEmailIdempotent job.recipientEmail job.templateName job.templateData idemKey) := by
  have hquiet : ∀ q : Email.Command, q.isBackground = true → q.writesStrings = false → isQuiet q = true :=
    fun _ hq _ => quiet_of_background hq
  refine quiet_then (svc.checkRateLimit_uses hquiet _ fun _ => rfl) (fun _ => ?_) fun _ => trivial
  refine quiet_then (Email.EmailService.acquire_uses hquiet (fun _ _ => rfl) svc idemKey) (fun acquired => ?_) fun _ => trivial
  cases acquired with
  | false => trivial
  | true =>
      rw [if_pos rfl]
      generalize hpayload : svc.payload job.recipientEmail job.templateName job.templateData = payload
      cases payload with
      | error e => trivial
      | ok payload => exact obeys_postRetrying hrow (toEmail_of_payload hpayload) _

theorem unwatched_status (j : Email.Uuid) (status : String) (e : Option String) :
    Unwatched (.updateJobStatus j status e) :=
  unwatched_of_ne_post fun _ h => by cases h

theorem obeys_markCompleted (j : Email.Uuid) (messageId : Option String) :
    (emailMonitor watchMonitor).Obeys (fun _ _ => True) w (Email.markCompleted j messageId) :=
  obeys_unwatched (Email.markCompleted_uses (fun _ hq _ => unwatched_of_background hq) (fun _ => unwatched_of_bookkeeping) j
    messageId (unwatched_status j _ _) fun _ => unwatched_of_ne_post fun _ h => by cases h)

/-- A job is sent when its recipient has been looked up and is not suppressed. -/
theorem obeys_processJob (svc : Email.EmailService) (j : Email.Uuid) :
    (emailMonitor watchMonitor).Obeys (fun _ _ => True) w (Email.processJob svc j) := by
  refine obeys_call_bind.mpr ⟨trivial, fun row => ?_, fun e => trivial⟩
  cases row with
  | none => trivial
  | some job =>
      show (emailMonitor watchMonitor).Obeys _ (⟨some (job, false), w.passed, w.written⟩ : Watch) _
      refine obeys_call_bind.mpr ⟨trivial, fun suppressed => ?_, fun e => trivial⟩
      rw [show (emailMonitor watchMonitor).next ⟨some (job, false), w.passed, w.written⟩ (.isSuppressed job.recipientEmail)
        (.ok suppressed) = ⟨some (job, !suppressed), w.passed, w.written⟩ from if_pos rfl]
      cases suppressed with
      | true => exact obeys_markCompleted j none
      | false =>
          refine obeys_call_bind.mpr ⟨trivial, fun u => ?_, fun e => trivial⟩
          have hrow : (⟨some (job, true), w.passed, w.written⟩ : Watch).row = some (job, true) := rfl
          refine obeys_bind.mpr ((obeys_sendEmailIdempotent hrow _).mono fun w' r _ => ?_)
          cases r with
          | error e => trivial
          | ok messageId => exact obeys_markCompleted j (some messageId)

theorem obeys_workerTurn (svc : Email.EmailService) (workerId : Email.Uuid) :
    (emailMonitor watchMonitor).Obeys (fun _ _ => True) w (Email.workerTurn svc workerId) := by
  have hunwatched : ∀ q : Email.Command, q.isBackground = true → q.writesStrings = false → Unwatched q :=
    fun _ hq _ => unwatched_of_background hq
  -- what a program leaves behind stands in the way of nothing
  have hthen : ∀ {β γ : Type} {p : Email.EmailM β} {f : β → Email.EmailM γ} {w : Watch},
      (emailMonitor watchMonitor).Obeys (fun _ _ => True) w p →
      (∀ w b, (emailMonitor watchMonitor).Obeys (fun _ _ => True) w (f b)) →
      (emailMonitor watchMonitor).Obeys (fun _ _ => True) w (p >>= f) := by
    intro β γ p f w hp hf
    refine obeys_bind.mpr (hp.mono fun w' r _ => ?_)
    cases r with
    | error e => trivial
    | ok b => exact hf w' b
  refine hthen (obeys_unwatched (Email.updateWorkerHeartbeat_uses hunwatched _ fun _ => ?_).attempt) fun w _ => ?_
  · exact unwatched_of_ne_post fun _ h => by cases h
  refine hthen (obeys_unwatched (Email.processRetries_uses hunwatched).attempt) fun w _ => ?_
  refine hthen (obeys_unwatched (Email.dequeue_uses hunwatched ?_ (fun _ _ => ?_) workerId).attempt) fun w dequeued => ?_
  · exact unwatched_of_ne_post fun _ h => by cases h
  · exact unwatched_of_ne_post fun _ h => by cases h
  rcases dequeued with e | _ | j
  · trivial
  · trivial
  · refine hthen (obeys_attempt.mpr (obeys_processJob svc j)) fun w r => ?_
    cases r with
    | ok u => trivial
    | error e =>
        have hfailed := Email.markFailed_uses hunwatched (fun _ => unwatched_of_bookkeeping) j e (unwatched_status j _ _)
        exact obeys_unwatched (Prog.Uses.bind hfailed.attempt fun _ => Prog.uses_pure ())

theorem obeys_emailBody (svc : Email.EmailService) (pid : Email.Uuid) (task : Email.Task) :
    (emailMonitor watchMonitor).Obeys (fun _ _ => True) w (Email.body svc pid task) := by
  have hunwatched : ∀ q : Email.Command, q.isBackground = true → q.writesStrings = false → Unwatched q :=
    fun _ hq _ => unwatched_of_background hq
  cases task with
  | enqueue jobType recipient templateName templateData priority =>
      have henqueue := Email.enqueue_uses hunwatched (fun _ => unwatched_of_bookkeeping) jobType recipient templateName
        templateData priority
      exact obeys_unwatched (Prog.Uses.bind henqueue fun _ => trivial)
  | requeueDeadLetter j =>
      have hrequeue := Email.requeueDeadLetter_uses hunwatched (fun _ => unwatched_of_bookkeeping) j (unwatched_status j _ _)
      exact obeys_unwatched (Prog.Uses.bind hrequeue fun _ => trivial)
  | workerStartup order staleThresholdSecs =>
      have hrecover := Email.recoverOrphanedJobs_uses hunwatched order staleThresholdSecs
      exact obeys_unwatched (Prog.Uses.bind hrecover.attempt fun _ => trivial)
  | workerTurn => exact obeys_workerTurn svc pid

/-- What has to be known of a suppressing event when its handler returns `Ok`. -/
def Settles (event : SendGridEvent) (w : Watch) (r : Except String Unit) : Prop :=
  r = .ok () → suppresses event.event = true → w.passed = false ∨ w.written = some event.email

/-- Counting an event settles nothing. -/
theorem obeys_count {event : SendGridEvent} (counterType : String)
    (hw : suppresses event.event = true → w.passed = false ∨ w.written = some event.email) :
    watchMonitor.Obeys (Settles event) w (emailIncrementAnalyticsCounter counterType none) := by
  have hnow : ∀ r, watchMonitor.next w (.email .utcNow) r = w := by
    intro r
    obtain ⟨_ | row, passed, written⟩ := w <;> cases r <;> rfl
  have hcount : ∀ column key r, watchMonitor.next w (.emailIncrementAnalyticsCounter column key) r = w := by
    intro column key r
    obtain ⟨_ | row, passed, written⟩ := w <;> cases r <;> rfl
  refine obeys_call_bind.mpr ⟨trivial, fun now => ?_, fun e h => by cases h⟩
  rw [hnow]
  cases columnOf counterType with
  | none => exact fun _ => hw
  | some column =>
      refine ⟨trivial, fun r => ?_⟩
      rw [hcount]
      exact fun _ => hw

theorem obeys_suppress {event : SendGridEvent} {suppressionType : SuppressionType} {reason bounceType : Option String}
    {rest : ApiM Unit}
    (hrest : ∀ w, w.written = some event.email → watchMonitor.Obeys (Settles event) w rest) :
    watchMonitor.Obeys (Settles event) w (do
      emailAddSuppression event.email suppressionType reason bounceType
      rest) := by
  refine obeys_call_bind.mpr ⟨trivial, fun _ => hrest _ ?_, fun e h => by cases h⟩
  obtain ⟨_ | row, passed, written⟩ := w <;> rfl

theorem obeys_handleEvent_watch (event : SendGridEvent) : watchMonitor.Obeys (Settles event) w (handleEvent event) := by
  unfold handleEvent
  split <;> rename_i hevent
  · exact obeys_count _ fun h => absurd h (by rw [hevent]; decide)
  · exact obeys_count _ fun h => absurd h (by rw [hevent]; decide)
  · exact obeys_count _ fun h => absurd h (by rw [hevent]; decide)
  · exact obeys_suppress fun w hw => obeys_count _ fun _ => .inr hw
  · exact obeys_suppress fun w hw => obeys_count _ fun _ => .inr hw
  · exact obeys_suppress fun w hw => obeys_count _ fun _ => .inr hw
  · refine obeys_suppress fun w hw => obeys_bind.mpr (obeys_attempt.mpr ⟨trivial, fun r => ?_⟩)
    have hsame : watchMonitor.next w (.newsletterUnsubscribe event.email) r = w := by
      obtain ⟨_ | row, passed, written⟩ := w <;> cases r <;> rfl
    rw [hsame]
    show watchMonitor.Obeys (Settles event) w (emailIncrementAnalyticsCounter "unsubscribed" none)
    exact obeys_count _ fun _ => .inr hw
  · refine fun _ h => absurd h ?_
    unfold suppresses
    simp_all

theorem obeys_deliver_watch (h : WebhookHandler) (event : SendGridEvent) :
    watchMonitor.Obeys (fun _ _ => True) watchMonitor.start (h.deliver event) := by
  have hquiet : ∀ q, countsNonce q → watchMonitor.allows watchMonitor.start q
      ∧ ∀ r, watchMonitor.next watchMonitor.start q r = watchMonitor.start := by
    intro q hq
    cases q with
    | email q =>
        cases q <;> first | exact absurd hq id | exact ⟨trivial, fun r => by cases r <;> rfl⟩
    | _ => exact absurd hq id
  have hprocess : watchMonitor.Obeys (Settles event) watchMonitor.start (h.processEvent event) := by
    refine obeys_bind_of_uses (uses_seenCount h event) hquiet (fun seen => ?_) fun e h => by cases h
    split
    · exact fun _ _ => .inl rfl
    · refine obeys_bind.mpr (obeys_attempt.mpr ⟨trivial, fun r => ?_⟩)
      rcases r with e | found
      · exact fun _ _ => .inl rfl
      · cases found with
        | true => exact fun _ _ => .inl rfl
        | false =>
            show watchMonitor.Obeys (Settles event) _ (h.handleNew event)
            unfold WebhookHandler.handleNew
            cases h.toValue event with
            | error e => exact fun h => by cases h
            | ok metadata => exact obeys_call_bind.mpr ⟨trivial, fun _ => obeys_handleEvent_watch event, fun e h => by cases h⟩
  refine obeys_bind.mpr (obeys_attempt.mpr (hprocess.mono fun w r hr => ?_))
  exact ⟨hr, fun _ => trivial⟩

theorem obeys_mailBody (h : WebhookHandler) (svc : Email.EmailService) (pid : Email.Uuid) (task : MailTask) :
    watchMonitor.Obeys (fun _ _ => True) watchMonitor.start (mailBody h svc pid task) := by
  cases task with
  | webhook event => exact obeys_deliver_watch h event
  | queue task => exact obeys_lift.mpr (obeys_emailBody svc pid task)

end Programs

/-! ## §5. What is suppressed when an event has been handled. -/

section Runs

open Monitor

variable {h : WebhookHandler} {svc : Email.EmailService} {m : Mail} {a : MailAction} {c : Choice} {b b' : Backend}
  {q : Command} {v : Reply q}

theorem Watch.passed_next (w : Watch) (q : Command) (r : Except String (Reply q)) :
    (w.next q r).passed = (w.passed || passes q r) := by
  obtain ⟨_ | ⟨job, cleared⟩, passed, written⟩ := w
  all_goals
    cases q with
    | email q =>
        cases q with
        | getJob id => rcases r with e | _ | row <;> exact (Bool.or_false _).symm
        | isSuppressed email =>
            cases r with
            | error e => exact (Bool.or_false _).symm
            | ok found =>
                unfold Watch.next
                dsimp only
                first
                  | exact (Bool.or_false _).symm
                  | split <;> exact (Bool.or_false _).symm
        | _ => cases r <;> exact (Bool.or_false _).symm
    | emailEventExists => rcases r with e | _ | _ <;> simp [Watch.next, passes]
    | _ => cases r <;> exact (Bool.or_false _).symm

theorem Watch.written_next {w : Watch} {q : Command} {r : Except String (Reply q)} {email : String}
    (hw : (w.next q r).written = some email) : w.written = some email ∨ written? q r = some email := by
  obtain ⟨_ | ⟨job, cleared⟩, passed, written⟩ := w
  all_goals
    cases q with
    | email q =>
        cases q with
        | getJob id => rcases r with e | _ | row <;> exact .inl hw
        | isSuppressed recipient =>
            cases r with
            | error e => exact .inl hw
            | ok found =>
                unfold Watch.next at hw
                dsimp only at hw
                first
                  | exact .inl hw
                  | split at hw <;> exact .inl hw
        | _ => cases r <;> exact .inl hw
    | emailAddSuppression address => cases r <;> first | exact .inl hw | exact .inr hw
    | _ => cases r <;> exact .inl hw

theorem passed_of_heard {heard : List (Exchange Reply String)}
    (hx : ∃ x ∈ heard, passes x.question x.answer = true) : (Machine.phaseAfter watchMonitor heard).passed = true := by
  induction heard using List.reverseRecOn with
  | nil =>
      obtain ⟨x, hx, -⟩ := hx
      cases hx
  | append_singleton heard y ih =>
      obtain ⟨x, hmem, hx⟩ := hx
      rw [Machine.phaseAfter_concat]
      show (Watch.next _ y.question y.answer).passed = true
      rw [Watch.passed_next, Bool.or_eq_true]
      rcases List.mem_append.mp hmem with hmem | hmem
      · exact .inl (ih ⟨x, hmem, hx⟩)
      · obtain rfl := List.mem_singleton.mp hmem
        exact .inr hx

theorem heard_of_written {heard : List (Exchange Reply String)} {email : String}
    (hw : (Machine.phaseAfter watchMonitor heard).written = some email) :
    ∃ x ∈ heard, written? x.question x.answer = some email := by
  induction heard using List.reverseRecOn with
  | nil => cases hw
  | append_singleton heard y ih =>
      rw [Machine.phaseAfter_concat] at hw
      rcases Watch.written_next hw with hw | hw
      · obtain ⟨x, hmem, hx⟩ := ih hw
        exact ⟨x, List.mem_append_left _ hmem, hx⟩
      · exact ⟨y, List.mem_append_right _ List.mem_cons_self, hw⟩

/-- No command lifts a suppression. -/
theorem suppressions_of_exec (hexec : exec c b q = some (v, b')) {address : String}
    (haddress : address ∈ b.email.db.suppressions) : address ∈ b'.email.db.suppressions := by
  cases q with
  | email q =>
      obtain ⟨⟨r, b₁⟩, hq, hb'⟩ := Option.map_eq_some_iff.mp hexec
      cases hb'
      rw [(Email.recorded_of_exec hq).suppressions]
      exact haddress
  | emailAddSuppression email suppressionType reason bounceType =>
      cases hexec
      unfold Backend.suppress
      split
      · exact haddress
      · exact List.mem_cons_of_mem _ haddress
  | newsletterConfirmByToken token ttl | newsletterUpsertPending email source token =>
      obtain ⟨r, -, hb'⟩ := Option.map_eq_some_iff.mp hexec
      cases hb'
      exact haddress
  | _ =>
      cases hexec
      exact haddress

theorem written_of_exec {email : String} (hexec : exec c b q = some (v, b')) (hw : written? q (.ok v) = some email) :
    email ∈ b'.email.db.suppressions := by
  cases q with
  | emailAddSuppression address suppressionType reason bounceType =>
      obtain rfl := Option.some.inj hw
      cases hexec
      unfold Backend.suppress
      split
      · assumption
      · exact List.mem_cons_self
  | _ => cases hw

/-- What a process that is under way has suppressed is suppressed. -/
def StaysWritten (m : Mail) : Prop :=
  ∀ p l, m.procs p = some l → ∀ x ∈ l.heard, ∀ email, written? x.question x.answer = some email →
    email ∈ m.store.email.db.suppressions

/-- A reply keeps the suppressions, and leaves what it says it has written. -/
theorem suppressions_of_reply {p : Email.Uuid} {r : Except String (Reply q)} (ha : a.asker = some p)
    (hr : Machine.reply server b a q = some (b', r)) :
    (∀ address ∈ b.email.db.suppressions, address ∈ b'.email.db.suppressions)
      ∧ ∀ email, written? q r = some email → email ∈ b'.email.db.suppressions := by
  rcases Machine.reply_cases server ha hr with ⟨c, v, -, rfl, hexec⟩ | ⟨e, -, rfl, rfl⟩ | ⟨c, e, v, -, rfl, hexec⟩
  · exact ⟨fun _ haddress => suppressions_of_exec hexec haddress, fun _ hw => written_of_exec hexec hw⟩
  · exact ⟨fun _ haddress => haddress, fun _ hw => by cases q <;> cases hw⟩
  · exact ⟨fun _ haddress => suppressions_of_exec hexec haddress, fun _ hw => by cases q <;> cases hw⟩

/-- **One step** keeps every suppression but one that is lifted. -/
theorem suppressions_step {address : String} (hmem : address ∈ m.store.email.db.suppressions)
    (hlifted : a ≠ .outside (.emailRemoveSuppression address)) :
    address ∈ (Mail.step h svc m a).store.email.db.suppressions := by
  unfold Mail.step
  rcases m.store_step_cases server (mailBody h svc) mailOutside a with hsame | ⟨q, c, v, -, hexec, -⟩ | ⟨w, rfl, hstore⟩
  · rw [hsame]
    exact hmem
  · exact suppressions_of_exec hexec hmem
  · rw [hstore]
    cases w with
    | tick seconds => exact hmem
    | emailRemoveSuppression email =>
        refine List.mem_filter.mpr ⟨hmem, decide_eq_true fun heq => ?_⟩
        exact hlifted (heq ▸ rfl)

theorem StaysWritten.after (hm : StaysWritten m) (hlifts : LiftsLate ⟨m, a, Mail.step h svc m a⟩) :
    StaysWritten (Mail.step h svc m a) := by
  intro p l' hl' x hx email hw
  rcases Machine.heard_step server (mailBody h svc) mailOutside hl' hx with ⟨l, hl, hx⟩ | ⟨q, s, r, ha, hr, hs, -, rfl⟩
  · refine suppressions_step (hm p l hl x hx email hw) ?_
    rintro rfl
    exact hlifts email rfl p l hl x hx hw
  · have hs : (Mail.step h svc m a).store = s := hs
    rw [hs]
    exact (suppressions_of_reply ha hr).2 email hw

theorem handled?_eq_some {q : Command} {event : SendGridEvent} (hq : q.handled? = some event) :
    q = .respondEvent event (.ok ()) ∧ suppresses event.event = true := by
  unfold Command.handled? at hq
  split at hq
  · split at hq
    · cases hq
      exact ⟨rfl, ‹_›⟩
    · cases hq
  · cases hq

/-- **A suppressing event that has been handled** has its address suppressed. -/
theorem suppressed_of_handles {event : SendGridEvent} (hm : Machine.Monitored watchMonitor (Mail.step h svc m a))
    (hkept : StaysWritten (Mail.step h svc m a)) (hguards : GuardsHold ⟨m, a, Mail.step h svc m a⟩)
    (hhandles : Handles ⟨m, a, Mail.step h svc m a⟩ event) :
    event.email ∈ (Mail.step h svc m a).store.email.db.suppressions := by
  obtain ⟨p, ha, -, hhandled⟩ := hhandles
  obtain ⟨l, hl, hquestion⟩ := Option.bind_eq_some_iff.mp hhandled
  obtain ⟨hrespond, hsuppresses⟩ := handled?_eq_some hquestion
  have hallows := (hm p l hl).1
  have hphase : (Mail.step h svc m a).phase watchMonitor p = Machine.phaseAfter watchMonitor l.heard := by
    unfold Machine.phase
    rw [hl]
  rw [hrespond, hphase] at hallows
  rcases hallows rfl hsuppresses with haway | hwritten
  · refine (hguards p ha l hl event hquestion).resolve_left fun hpassed => ?_
    rw [passed_of_heard hpassed] at haway
    cases haway
  · obtain ⟨x, hx, hw⟩ := heard_of_written hwritten
    exact hkept p l hl x hx event.email hw

/-! ## §6. What is sent afterwards. -/

/-- Since the log was `log₀`: the address is suppressed, and who has read a row
since has not cleared one for the address. -/
structure Silent (lower : String → String) (address : String) (log₀ : List (Email.Uuid × Exchange Reply String))
    (phases : Email.Uuid → Watch) (b : Backend) (log : List (Email.Uuid × Exchange Reply String)) : Prop where
  suppressed : address ∈ b.email.db.suppressions
  uncleared : ∀ new, log = log₀ ++ new → ∀ p, HasRead p new → ∀ job, (phases p).row = some (job, true) →
    ¬SameMailbox lower address job.recipientEmail

/-- A job is cleared by a look-up of its recipient that finds nothing. -/
theorem Watch.row_next {w : Watch} {q : Command} {r : Except String (Reply q)} {job : Email.EmailJob}
    (hw : (w.next q r).row = some (job, true)) :
    (⟨q, r⟩ : Exchange Reply String) = ⟨.email (.isSuppressed job.recipientEmail), .ok false⟩
      ∨ w.row = some (job, true) ∧ readsJob q r = false := by
  obtain ⟨row, passed, written⟩ := w
  cases q with
  | email q =>
      cases q with
      | getJob id =>
          rcases r with e | _ | found
          · cases row <;> exact .inr ⟨hw, rfl⟩
          · cases row <;> exact .inr ⟨hw, rfl⟩
          · cases row <;> cases hw
      | isSuppressed email =>
          rcases row with _ | ⟨job', cleared⟩
          · cases r <;> cases hw
          · cases r with
            | error e => exact .inr ⟨hw, rfl⟩
            | ok found =>
                unfold Watch.next at hw
                dsimp only at hw
                split at hw
                · rename_i hemail
                  cases found with
                  | true => cases hw
                  | false =>
                      cases hw
                      subst hemail
                      exact .inl rfl
                · exact .inr ⟨hw, rfl⟩
      | _ => cases row <;> cases r <;> exact .inr ⟨hw, rfl⟩
  | _ => cases row <;> cases r <;> exact .inr ⟨hw, rfl⟩

theorem not_mem_of_isSuppressed {p : Email.Uuid} {email : String} (ha : a.asker = some p)
    (hr : Machine.reply server b a (.email (.isSuppressed email)) = some (b', .ok false)) :
    email ∉ b.email.db.suppressions := by
  rcases Machine.reply_cases server ha hr with ⟨c, v, -, hv, hexec⟩ | ⟨e, -, he, -⟩ | ⟨c, e, v, -, he, -⟩
  · cases hv
    have hexec : some (b.email.db.suppressions.contains email, b) = some (false, b') := hexec
    have hcontains : b.email.db.suppressions.contains email = false := congrArg Prod.fst (Option.some.inj hexec)
    exact fun hmem => absurd (List.contains_iff_mem.mpr hmem) (by rw [hcontains]; exact Bool.false_ne_true)
  · cases he
  · cases he

theorem hasRead_concat {p p' : Email.Uuid} {new : List (Email.Uuid × Exchange Reply String)}
    {x : Exchange Reply String} (hread : HasRead p (new ++ [(p', x)])) :
    HasRead p new ∨ p' = p ∧ readsJob x.question x.answer = true := by
  obtain ⟨y, hy, hp, hreads⟩ := hread
  rcases List.mem_append.mp hy with hy | hy
  · exact .inl ⟨y, hy, hp, hreads⟩
  · obtain rfl := List.mem_singleton.mp hy
    exact .inr ⟨hp, hreads⟩

/-- A process that is over has cleared nothing. -/
theorem Silent.restart {lower : String → String} {address : String}
    {log₀ log : List (Email.Uuid × Exchange Reply String)} {phases : Email.Uuid → Watch}
    (hs : Silent lower address log₀ phases b log) (p : Email.Uuid) :
    Silent lower address log₀ (Function.update phases p watchMonitor.start) b log := by
  refine ⟨hs.suppressed, fun new hnew p' hread job hrow => ?_⟩
  rw [Function.update_apply] at hrow
  split at hrow
  · cases hrow
  · exact hs.uncleared new hnew p' hread job hrow

/-- **One step** clears no job for the address. -/
theorem Silent.after {lower : String → String} {address : String} {log₀ : List (Email.Uuid × Exchange Reply String)}
    (hm : Machine.Monitored watchMonitor m) (hlog : log₀ <+: m.log)
    (hs : Silent lower address log₀ (m.phase watchMonitor) m.store m.log)
    (hspells : SpellsAlike lower ⟨m, a, Mail.step h svc m a⟩)
    (hlifted : a ≠ .outside (.emailRemoveSuppression address)) :
    Silent lower address log₀ ((Mail.step h svc m a).phase watchMonitor) (Mail.step h svc m a).store
      (Mail.step h svc m a).log := by
  unfold Mail.step
  refine Machine.phases_step (I := Silent lower address log₀) hm hs (fun φ s log p hI => hI.restart p) ?_ ?_
  · intro p q s r ha hq _ hr
    obtain ⟨hkeeps, -⟩ := suppressions_of_reply ha hr
    refine ⟨hkeeps address hs.suppressed, fun new' hnew' p' hread job hrow => ?_⟩
    -- the new part of the log ends in this answer
    obtain ⟨new, hnew⟩ := hlog
    obtain rfl : new ++ [(p, ⟨q, r⟩)] = new' := by
      rw [← hnew, List.append_assoc] at hnew'
      exact List.append_cancel_left hnew'
    rw [Function.update_apply] at hrow
    split at hrow
    · rename_i hpp
      subst hpp
      rcases Watch.row_next hrow with hcleared | ⟨hrow, hreads⟩
      · -- the look-up would have found the recipient
        intro hsame
        obtain ⟨l, hl, hlq⟩ := Option.map_eq_some_iff.mp hq
        cases hcleared
        have hfound := hspells p' ha l hl job.recipientEmail (by rw [hlq]; rfl) address hs.suppressed hsame
        exact absurd hfound (not_mem_of_isSuppressed ha hr)
      · refine hs.uncleared new hnew.symm p' ((hasRead_concat hread).resolve_right fun hx => ?_) job hrow
        rw [hreads] at hx
        cases hx.2
    · rename_i hpp
      refine hs.uncleared new hnew.symm p' ((hasRead_concat hread).resolve_right fun hx => ?_) job hrow
      exact hpp hx.1.symm
  · rintro w rfl
    have hkept : address ∈ (Mail.step h svc m (.outside w)).store.email.db.suppressions :=
      suppressions_step hs.suppressed hlifted
    exact ⟨hkept, hs.uncleared⟩

theorem accepted_of_exec (hexec : exec c b q = some (v, b')) : b'.email.accepted = b.email.accepted
    ∨ ∃ payload, q = .email (.post payload) ∧ b'.email.accepted = b.email.accepted ++ [payload] := by
  cases q with
  | email q =>
      obtain ⟨⟨r, b₁⟩, hq, hb'⟩ := Option.map_eq_some_iff.mp hexec
      cases hb'
      refine (Email.recorded_of_exec hq).accepted.imp_right ?_
      rintro ⟨payload, rfl, hnew⟩
      exact ⟨payload, rfl, hnew⟩
  | emailAddSuppression email suppressionType reason bounceType =>
      cases hexec
      unfold Backend.suppress
      split <;> exact .inl rfl
  | newsletterConfirmByToken token ttl | newsletterUpsertPending email source token =>
      obtain ⟨r, -, hb'⟩ := Option.map_eq_some_iff.mp hexec
      cases hb'
      exact .inl rfl
  | _ =>
      cases hexec
      exact .inl rfl

/-- An email that SendGrid accepts was asked for by a request. -/
theorem performs_of_accepts {p : Email.Uuid} {payload : Email.Payload}
    (haccepts : Accepts ⟨m, a, Mail.step h svc m a⟩ p payload) : m.performs a = some (.email (.post payload)) := by
  obtain ⟨ha, haccepted⟩ := haccepts
  have haccepted : (Mail.step h svc m a).store.email.accepted = m.store.email.accepted ++ [payload] := haccepted
  have hgrown : ∀ b' : Backend, b'.email.accepted = m.store.email.accepted →
      b'.email.accepted ≠ m.store.email.accepted ++ [payload] := by
    intro b' hsame hnew
    have hlength := congrArg List.length (hsame.symm.trans hnew)
    simp at hlength
  rcases m.store_step_cases server (mailBody h svc) mailOutside a with hsame | ⟨q, c, v, hq, hexec, -⟩ | ⟨w, rfl, -⟩
  · exact absurd haccepted (hgrown _ (congrArg (fun b : Backend => b.email.accepted) hsame))
  · rcases accepted_of_exec hexec with hsame | ⟨payload', rfl, hnew⟩
    · exact absurd haccepted (hgrown _ hsame)
    · have hsame := List.append_cancel_left (haccepted.symm.trans hnew)
      rw [(List.cons.inj hsame).1]
      exact hq
  · cases ha

end Runs

/-- **A suppressed address gets no mail** from jobs that are taken up after the
event has been handled, if no guard turns away an event whose address is not
suppressed, no suppression is lifted under the delivery that wrote it, and
recipients are spelled as they are suppressed. -/
theorem suppressed_get_no_mail (lower : String → String) (h : WebhookHandler) (svc : Email.EmailService) (b : Backend)
    (as : List MailAction) (hguards : ∀ t ∈ trace (Mail.step h svc) (.idle b) as, GuardsHold t)
    (hlifts : ∀ t ∈ trace (Mail.step h svc) (.idle b) as, LiftsLate t)
    (hspells : ∀ t ∈ trace (Mail.step h svc) (.idle b) as, SpellsAlike lower t) :
    SuppressedGetNoMail h svc lower b as := by
  rintro bs a cs event rfl hhandles hlifted t ht p payload haccepts hto new hnew hread
  have hrun : run (Mail.step h svc) (.idle b) (bs ++ [a]) = Mail.step h svc (run (Mail.step h svc) (.idle b) bs) a :=
    run_concat ..
  have hmonitored : ∀ as, Machine.Monitored watchMonitor (run (Mail.step h svc) (.idle b) as) :=
    Machine.monitored_run (fun p t => obeys_mailBody h svc p t) b
  -- up to the event, and the event
  have hkept : StaysWritten (run (Mail.step h svc) (.idle b) (bs ++ [a])) := by
    refine run_invariant_of (Mail.step h svc) StaysWritten LiftsLate (fun p l hl => by cases hl)
      (fun m a hm hlifts => hm.after hlifts) (bs ++ [a]) fun t ht => hlifts t ?_
    exact mem_trace_of_isPrefix _ ⟨cs, by simp⟩ ht
  have hhandled : event.email ∈ (run (Mail.step h svc) (.idle b) (bs ++ [a])).store.email.db.suppressions := by
    rw [hrun] at hkept hhandles ⊢
    refine suppressed_of_handles (hrun ▸ hmonitored (bs ++ [a])) hkept ?_ hhandles
    exact hguards _ (mem_trace_append_cons _ _ bs a cs)
  -- from the event on
  obtain ⟨ds, es, hcs, hpre, hpost⟩ := mem_trace (Mail.step h svc) ht
  have hlate : ∀ t ∈ trace (Mail.step h svc) (run (Mail.step h svc) (.idle b) (bs ++ [a])) ds,
      SpellsAlike lower t ∧ t.act ≠ .outside (.emailRemoveSuppression event.email) := by
    intro t' ht'
    refine ⟨hspells t' ?_, hlifted t'.act ?_⟩
    · have hbegin : bs ++ [a] ++ ds <+: bs ++ a :: cs := ⟨t.act :: es, by simp [hcs]⟩
      refine mem_trace_of_isPrefix _ hbegin ?_
      rw [trace_append]
      exact List.mem_append_right _ ht'
    · rw [hcs]
      exact List.mem_append_left _ (act_mem_of_mem_trace _ ht')
  have hsilent := run_invariant_of (Mail.step h svc)
    (fun m => Machine.Monitored watchMonitor m ∧ (run (Mail.step h svc) (.idle b) (bs ++ [a])).log <+: m.log
      ∧ Silent lower event.email (run (Mail.step h svc) (.idle b) (bs ++ [a])).log (m.phase watchMonitor) m.store m.log)
    (fun t => SpellsAlike lower t ∧ t.act ≠ .outside (.emailRemoveSuppression event.email))
    ⟨hmonitored _, List.prefix_rfl, hhandled, fun new hnew p hread => ?_⟩
    (fun m a hm hlate => ⟨hm.1.step (fun p t => obeys_mailBody h svc p t) a,
      hm.2.1.trans (m.log_isPrefix_step server (mailBody h svc) mailOutside a),
      hm.2.2.after hm.1 hm.2.1 hlate.1 hlate.2⟩) ds hlate
  · rw [← hpre] at hsilent
    obtain ⟨hm, -, hs⟩ := hsilent
    have htrans : t = ⟨t.pre, t.act, Mail.step h svc t.pre t.act⟩ := by
      rw [← hpost]
    rw [htrans] at haccepts
    obtain ⟨p', ha, job, hrow, hrecipient⟩ := hm.allows_of_performs (performs_of_accepts haccepts)
    obtain rfl : p = p' := Option.some.inj (haccepts.1.symm.trans ha)
    refine hs.uncleared new hnew p hread job hrow ?_
    unfold SameMailbox
    rw [← hto, hrecipient]
  · -- nothing has been read yet
    have hnil : new = [] := List.append_right_eq_self.mp hnew.symm
    rw [hnil] at hread
    obtain ⟨x, hx, -⟩ := hread
    cases hx

/-! ## §7. A bounce, and a job for the same mailbox. -/

def sampleMailChoice : Choice := ⟨Email.sampleChoice Email.sampleJobId, "token"⟩

/-- The answers to a process. -/
def answers (p : Email.Uuid) (n : Nat) : List MailAction := List.replicate n (.answer p sampleMailChoice)

/-- A delivery of a bounce that is about to be counted. -/
def sampleDelivery (address : String) : List MailAction :=
  .start Email.sampleApiId (.webhook { sampleBounce with email := address }) :: answers Email.sampleApiId 7

/-- The end of the delivery; a job for `user@example.com`, and a worker's turn up to a request to SendGrid. -/
def sampleTurn : List MailAction :=
  answers Email.sampleApiId 1
    ++ .start Email.sampleApiId (.queue (.enqueue .welcomeEmail "user@example.com" "welcome_email" "{}" 1))
      :: answers Email.sampleApiId 4
    ++ .start Email.sampleWorkerId (.queue .workerTurn) :: answers Email.sampleWorkerId 23

/-- Whether an action lifts a suppression. -/
def lifts : MailAction → Bool
  | .outside (.emailRemoveSuppression _) => true
  | _ => false

theorem ne_of_not_lifts {as : List MailAction} (h : as.any lifts = false) {a : MailAction} (ha : a ∈ as) (email : String) :
    a ≠ .outside (.emailRemoveSuppression email) := by
  rintro rfl
  exact absurd rfl (List.any_eq_false.mp h _ ha)

/-- The address is suppressed as the job spells it, and the worker skips the job. -/
theorem suppressed_get_no_mail_alike :
    (SuppressedGetNoMail sampleHandler Email.sampleService String.toLower sampleBackend
        (sampleDelivery "user@example.com" ++ answers Email.sampleApiId 1 ++ sampleTurn))
      ∧ (run (Mail.step sampleHandler Email.sampleService) (.idle sampleBackend)
        (sampleDelivery "user@example.com" ++ answers Email.sampleApiId 1 ++ sampleTurn)).store.email.accepted = [] := by
  have hnone : (sampleDelivery "user@example.com" ++ answers Email.sampleApiId 1 ++ sampleTurn).any lifts = false := by
    decide +kernel
  refine ⟨suppressed_get_no_mail _ _ _ _ _ (by decide +kernel) (fun t ht email hlift => ?_) (by decide +kernel),
    by decide +kernel⟩
  exact absurd hlift (ne_of_not_lifts hnone (act_mem_of_mem_trace _ ht) email)

theorem log_isPrefix_run (h : WebhookHandler) (svc : Email.EmailService) (m : Mail) (as : List MailAction) :
    m.log <+: (run (Mail.step h svc) m as).log :=
  run_invariant_of (Mail.step h svc) (fun m' : Mail => m.log <+: m'.log) (fun _ => True) List.prefix_rfl
    (fun m' a hm' _ => hm'.trans (m'.log_isPrefix_step server (mailBody h svc) mailOutside a)) as fun _ _ => trivial

/-- Whether this part of the log hands the worker a row. -/
def workerHasRead (log : List (Email.Uuid × Exchange Reply String)) : Bool :=
  log.any fun x => decide (x.1 = Email.sampleWorkerId) && readsJob x.2.question x.2.answer

theorem hasRead_of_workerHasRead {log : List (Email.Uuid × Exchange Reply String)} (h : workerHasRead log = true) :
    HasRead Email.sampleWorkerId log := by
  obtain ⟨x, hx, hreads⟩ := List.any_eq_true.mp h
  obtain ⟨hp, hreads⟩ := Bool.and_eq_true_iff.mp hreads
  exact ⟨x, hx, of_decide_eq_true hp, hreads⟩

/-- What breaks the law: an email to the address, from a row that was read after the event. -/
theorem not_suppressedGetNoMail {h : WebhookHandler} {svc : Email.EmailService} {lower : String → String} {b : Backend}
    {bs cs : List MailAction} {a a' : MailAction} {event : SendGridEvent} {handling handled asked : Mail}
    (hhandling : handling = run (Mail.step h svc) (.idle b) bs)
    (hhandled : handled = run (Mail.step h svc) (.idle b) (bs ++ [a])) (hasked : asked = run (Mail.step h svc) handled cs)
    (hhandles : Handles ⟨handling, a, handled⟩ event) (hlifted : (cs ++ [a']).any lifts = false)
    {p : Email.Uuid} {payload : Email.Payload} (haccepts : Accepts ⟨asked, a', Mail.step h svc asked a'⟩ p payload)
    (hsame : lower payload.toEmail = lower (Email.trim event.email))
    (hread : ∀ new, asked.log = handled.log ++ new → HasRead p new) :
    ¬SuppressedGetNoMail h svc lower b (bs ++ a :: (cs ++ [a'])) := by
  subst hhandling hhandled hasked
  intro hlaw
  obtain ⟨new, hnew⟩ := log_isPrefix_run h svc (run (Mail.step h svc) (.idle b) (bs ++ [a])) cs
  exact hlaw bs a (cs ++ [a']) event rfl hhandles (fun c hc => ne_of_not_lifts hlifted hc _) _
    (mem_trace_append_cons _ _ cs a' []) p payload haccepts hsame new hnew.symm (hread new hnew.symm)

/-- The delivery for `User@example.com` is about to be answered. -/
def sampleHandling : Mail :=
  run (Mail.step sampleHandler Email.sampleService) (.idle sampleBackend) (sampleDelivery "User@example.com")

def sampleAnswer (p : Email.Uuid) : MailAction := .answer p sampleMailChoice

def sampleHandled : Mail :=
  run (Mail.step sampleHandler Email.sampleService) (.idle sampleBackend)
    (sampleDelivery "User@example.com" ++ [sampleAnswer Email.sampleApiId])

/-- The worker has asked SendGrid. -/
def sampleAsked : Mail := run (Mail.step sampleHandler Email.sampleService) sampleHandled sampleTurn

theorem sampleHandled_handles :
    Handles ⟨sampleHandling, sampleAnswer Email.sampleApiId, sampleHandled⟩ { sampleBounce with email := "User@example.com" } :=
  ⟨Email.sampleApiId, rfl, by decide +kernel, by decide +kernel⟩

theorem accepts_first {m m' : Mail} {a : MailAction} {p : Email.Uuid} {payload : Email.Payload} (ha : a.asker = some p)
    (hnone : m.store.email.accepted = []) (hone : m'.store.email.accepted = [payload]) : Accepts ⟨m, a, m'⟩ p payload := by
  refine ⟨ha, ?_⟩
  rw [hnone, hone, List.nil_append]

theorem sampleAsked_accepts :
    ∃ payload : Email.Payload, payload.toEmail = "user@example.com"
      ∧ Accepts ⟨sampleAsked, sampleAnswer Email.sampleWorkerId,
          Mail.step sampleHandler Email.sampleService sampleAsked (sampleAnswer Email.sampleWorkerId)⟩
        Email.sampleWorkerId payload := by
  have hnone : sampleAsked.store.email.accepted = [] := by decide +kernel
  have hone : (Mail.step sampleHandler Email.sampleService sampleAsked
      (sampleAnswer Email.sampleWorkerId)).store.email.accepted.map (·.toEmail) = ["user@example.com"] := by
    decide +kernel
  obtain ⟨payload, hpayload, hto⟩ := List.map_eq_singleton_iff.mp hone
  exact ⟨payload, hto, accepts_first rfl hnone hpayload⟩

/-- The row is read after the event has been handled. -/
theorem sampleAsked_hasRead {new : List (Email.Uuid × Exchange Reply String)}
    (hnew : sampleAsked.log = sampleHandled.log ++ new) : HasRead Email.sampleWorkerId new := by
  have hfirst : workerHasRead sampleHandled.log = false := by decide +kernel
  have hlast : workerHasRead sampleAsked.log = true := by decide +kernel
  refine hasRead_of_workerHasRead ?_
  unfold workerHasRead at *
  rwa [hnew, List.any_append, hfirst, Bool.false_or] at hlast

/-- The two spellings are compared letter by letter. -/
theorem toLower_trim_sample : String.toLower "user@example.com" = String.toLower (Email.trim "User@example.com") := by
  unfold String.toLower Email.trim
  rw [← String.toList_inj, String.toList_map, String.toList_map, String.toList_ofList]
  decide +kernel

/-- The address is suppressed as the event spells it, and the job is sent. -/
theorem sampleTurn_mails_suppressed :
    ¬SuppressedGetNoMail sampleHandler Email.sampleService String.toLower sampleBackend
      (sampleDelivery "User@example.com" ++ sampleAnswer Email.sampleApiId
        :: (sampleTurn ++ [sampleAnswer Email.sampleWorkerId])) := by
  obtain ⟨payload, hto, haccepts⟩ := sampleAsked_accepts
  have hsame : String.toLower payload.toEmail = String.toLower (Email.trim "User@example.com") := by
    rw [hto]
    exact toLower_trim_sample
  exact not_suppressedGetNoMail rfl rfl rfl sampleHandled_handles (by decide +kernel) haccepts hsame
    fun new hnew => sampleAsked_hasRead hnew

end PredictIQ.Api
