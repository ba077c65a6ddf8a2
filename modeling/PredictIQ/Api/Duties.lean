/-
  PredictIQ.Api.Duties: what the newsletter handlers and the email workers have
  taken upon themselves.

  A handler that has stored a token owes it a job, and whoever has created a
  job or taken one from the queue holds it until it is enqueued or its email is
  sent.  `dutyMonitor` follows this; `obeys_newsletterBody` says that every
  program is free at its end, unless a call of its has failed.
-/
import PredictIQ.Api.Newsletter
import PredictIQ.Email.SingleSend
import PredictIQ.Foundation.Triple

namespace PredictIQ.Api

open Foundation

/-! ## §1. What a process has taken upon itself. -/

inductive Duty where
  | free
  /-- The token is stored, and there is no job for it yet. -/
  | token (email token : String)
  /-- The job is neither in the queue nor looked at. -/
  | holding (id : Email.Uuid)
  | reading (id : Email.Uuid) (job : Email.EmailJob)
  /-- The key of the job has been taken for its email. -/
  | sending (id : Email.Uuid) (job : Email.EmailJob)
  /-- A call has failed, or the job cannot be made into an email. -/
  | troubled

namespace Duty

variable (h : NewsletterHandler) (svc : Email.EmailService)

def next : Duty → (q : Command) → Except String (Reply q) → Duty
  | _, _, .error _ => .troubled
  | .troubled, _, _ => .troubled
  | d, .email .breakerAllow, .ok closed => if closed then d else .troubled
  | .free, .newsletterUpsertPending email _ stored, .ok _ => .token email stored
  | .token _ _, .email (.createJob ..), .ok id => .holding id
  | .holding id, .email (.zadd .queue job _), .ok _ => if job = id then .free else .holding id
  | .free, .email (.zpopmin .queue), .ok (some (id, _)) => .holding id
  | .holding id, .email (.getJob job), .ok row =>
      if job = id then
        match row with
        | none => .free
        | some job => if (svc.payloadOf job).isOk then .reading id job else .troubled
      else .holding id
  | .reading id job, .email (.isSuppressed _), .ok suppressed => if suppressed then .troubled else .reading id job
  | .reading id job, .email (.incrWithTtl ..), .ok count =>
      if count ≤ svc.config.emailPerRecipientHourlyLimit then .reading id job else .troubled
  | .reading id job, .email (.setNxEx ..), .ok acquired => if acquired then .sending id job else .free
  | .reading _ _, .email (.post _), .ok response => if response.isSuccess then .free else .troubled
  | .sending _ _, .email (.post _), .ok response => if response.isSuccess then .free else .troubled
  | d, _, _ => d

/-- The job may be posted: its key is taken, or there is no cache to take it in. -/
def MayPost (d : Duty) (id : Email.Uuid) (job : Email.EmailJob) : Prop :=
  d = .sending id job ∨ svc.cache = none ∧ d = .reading id job

/-- A token is stored by who is free, and gets the job with its link; jobs are
taken from the queue by who is free; the keys written are those of the jobs. -/
def allows : Duty → Command → Prop
  | .troubled, _ => True
  | d, .newsletterUpsertPending .. => d = .free
  | d, .email (.createJob _ recipient templateName templateData _) =>
      ∃ email token, d = .token email token ∧ recipient = email ∧ templateName = confirmationTemplate
        ∧ templateData = h.templateData email token
  | d, .email (.zpopmin key) => key = .queue ∧ d = .free
  | _, .email (.zrem ..) => False
  | d, .email (.setNxEx key _) => ∃ id job, d = .reading id job ∧ key = svc.redisKeyOf job
  | _, .email (.setEx key ..) => ∀ idem, key ≠ Email.idempotencyRedisKey idem
  | _, .email (.incrWithTtl key _) => ∀ idem, key ≠ Email.idempotencyRedisKey idem
  | d, .email (.post payload) => ∃ id job, d.MayPost svc id job ∧ svc.payloadOf job = .ok payload
  | _, _ => True

end Duty

def dutyMonitor (h : NewsletterHandler) (svc : Email.EmailService) : Monitor Reply String Duty :=
  ⟨.free, Duty.next svc, Duty.allows h svc⟩

/-- The process is free, or a call has failed. -/
def Done (d : Duty) : Prop := d = .troubled ∨ d = .free

/-! ## §2. What the programs take upon themselves. -/

section Programs

open Monitor

variable {h : NewsletterHandler} {svc : Email.EmailService} {d : Duty} {α : Type}

theorem next_error (svc : Email.EmailService) (d : Duty) (q : Command) (e : String) :
    d.next svc q (.error e) = .troubled := by
  cases d <;> rfl

theorem absorbing_troubled : (dutyMonitor h svc).Absorbing .troubled := by
  refine fun q => ⟨trivial, fun r => ?_⟩
  cases r <;> rfl

theorem absorbing_email : (emailMonitor (dutyMonitor h svc)).Absorbing .troubled :=
  fun q => (absorbing_troubled : (dutyMonitor h svc).Absorbing .troubled) (.email q)

theorem email_next_error (d : Duty) (q : Email.Command) (e : String) :
    (emailMonitor (dutyMonitor h svc)).next d q (.error e) = .troubled :=
  next_error svc d (.email q) e

/-- One command of the email service. -/
theorem leads_ask {q : Email.Command} {A : Duty → Prop} {B : Duty → Email.Reply q → Prop}
    (hallows : ∀ φ, A φ → (emailMonitor (dutyMonitor h svc)).allows φ q)
    (hgood : ∀ φ v, A φ → (emailMonitor (dutyMonitor h svc)).next φ q (.ok v) = .troubled
      ∨ B ((emailMonitor (dutyMonitor h svc)).next φ q (.ok v)) v) :
    (emailMonitor (dutyMonitor h svc)).Leads .troubled A (Email.request q) B :=
  leads_call hallows hgood fun φ e _ => email_next_error φ q e

/-- The command is allowed, and its answer changes nothing. -/
def Still (h : NewsletterHandler) (svc : Email.EmailService) (d : Duty) (q : Email.Command) : Prop :=
  (emailMonitor (dutyMonitor h svc)).allows d q ∧ ∀ v, (emailMonitor (dutyMonitor h svc)).next d q (.ok v) = .troubled
    ∨ (emailMonitor (dutyMonitor h svc)).next d q (.ok v) = d

theorem leads_still {q : Email.Command} (hq : Still h svc d q) :
    (emailMonitor (dutyMonitor h svc)).Leads .troubled (· = d) (Email.request q) fun d' _ => d' = d := by
  refine leads_ask (fun φ hφ => hφ ▸ hq.1) fun φ v hφ => ?_
  subst hφ
  exact hq.2 v

/-- A program of such commands ends where it began, or a call has failed. -/
theorem triple_done {p : Email.EmailM α} (hp : p.Uses (Still h svc .free)) :
    (emailMonitor (dutyMonitor h svc)).Triple Done p (fun d _ => Done d) Done := by
  refine triple_of_keeps hp fun q φ hq hφ => ?_
  rcases hφ with rfl | rfl
  · exact ⟨(absorbing_email q).1, fun r => .inl ((absorbing_email q).2 r)⟩
  · refine ⟨hq.1, fun r => ?_⟩
    cases r with
    | ok v => exact hq.2 v
    | error e => exact .inl (email_next_error _ _ e)

/-- The commands that look things up. -/
theorem still_of_lookup {q : Email.Command} (hq : q.isBackground = true) (hwrites : q.writesStrings = false) (d : Duty) :
    Still h svc d q := by
  cases q <;> cases hq <;> cases hwrites
  case breakerAllow =>
      refine ⟨by cases d <;> trivial, fun closed => ?_⟩
      cases closed
      · exact .inl (by cases d <;> rfl)
      · exact .inr (by cases d <;> rfl)
  all_goals exact ⟨by cases d <;> trivial, fun v => .inr (by cases d <;> rfl)⟩

theorem still_of_marking {q : Email.Command} (hq : q.isMarking = true) : Still h svc .free q := by
  cases q with
  | zadd key job score => cases key <;> exact ⟨trivial, fun v => .inr rfl⟩
  | zremProcessing | getJob | updateJobAttempts | createDeadLetterJob => exact ⟨trivial, fun v => .inr rfl⟩
  | _ => cases hq

/-- What follows the circuit breaker runs when it is closed. -/
theorem leads_closed {B : Duty → α → Prop} {p : Email.EmailM α} {otherwise : Email.EmailM α}
    (hp : (emailMonitor (dutyMonitor h svc)).Leads .troubled (· = d) p B) :
    (emailMonitor (dutyMonitor h svc)).Leads .troubled (· = d)
      (Email.request .breakerAllow >>= fun closed => if closed = true then p else otherwise) B := by
  refine leads_bind absorbing_email (B := fun d' closed => d' = d ∧ closed = true)
    (leads_ask (fun φ hφ => (still_of_lookup rfl rfl φ).1) fun φ closed hφ => ?_) fun closed => ?_
  · subst hφ
    cases closed
    · exact .inl (by cases φ <;> rfl)
    · exact .inr ⟨by cases φ <;> rfl, rfl⟩
  · refine triple_of_fact (fun φ hφ => hφ.2) fun hclosed => ?_
    rw [if_pos hclosed]
    exact hp.strengthen fun φ hφ => hφ.1

theorem leads_withContext {A : Duty → Prop} {B : Duty → α → Prop} {p : Email.EmailM α} {msg : String}
    (hp : (emailMonitor (dutyMonitor h svc)).Leads .troubled A p B) :
    (emailMonitor (dutyMonitor h svc)).Leads .troubled A (Email.withContext p msg) B :=
  triple_mapError hp

theorem leads_getConnection :
    (emailMonitor (dutyMonitor h svc)).Leads .troubled (· = d) Email.getConnection fun d' _ => d' = d :=
  leads_closed (leads_withContext (leads_still (still_of_lookup rfl rfl d)))

theorem leads_retrying {A : Duty → Prop} {B : Duty → α → Prop} {p : Email.EmailM α}
    (hp : (emailMonitor (dutyMonitor h svc)).Leads .troubled A p B) (n : Nat) :
    (emailMonitor (dutyMonitor h svc)).Leads .troubled A (Email.retrying p n) B := by
  induction n with
  | zero => exact hp
  | succ n ih => exact leads_attempt_bind absorbing_email hp fun a => leads_pure fun φ hφ => hφ

theorem leads_cacheExec {B : Duty → α → Prop} {p : Email.EmailM α}
    (hp : (emailMonitor (dutyMonitor h svc)).Leads .troubled (· = d) p B) (retryAttempts : Nat) :
    (emailMonitor (dutyMonitor h svc)).Leads .troubled (· = d) (Email.cacheExec retryAttempts p) B := by
  refine leads_closed (leads_retrying ?_ retryAttempts)
  exact leads_bind absorbing_email (triple_mapError (leads_still (still_of_lookup rfl rfl d))) fun _ => hp

/-- **An enqueue** creates the job of the token and puts it into the queue. -/
theorem leads_enqueue (jobType : Email.EmailJobType) (email token : String) :
    (emailMonitor (dutyMonitor h svc)).Leads .troubled (· = .token email token)
      (Email.enqueue jobType email confirmationTemplate (h.templateData email token) 0) fun d _ => d = .free := by
  refine leads_bind absorbing_email (B := fun d id => d = .holding id) (leads_ask ?_ ?_) fun id => ?_
  · rintro φ rfl
    exact ⟨email, token, rfl, rfl, rfl, rfl⟩
  · rintro φ id rfl
    exact .inr rfl
  · dsimp only
    rw [if_neg (by decide)]
    refine leads_bind absorbing_email (leads_still (still_of_lookup rfl rfl _)) fun score => ?_
    refine leads_bind absorbing_email leads_getConnection fun _ => ?_
    refine leads_bind absorbing_email (leads_withContext (leads_ask ?_ ?_)) fun _ => leads_pure fun φ hφ => hφ
    · rintro φ rfl
      trivial
    · rintro φ v rfl
      exact .inr (if_pos rfl)

/-- What a process has in hand that has looked into the queue. -/
def dutyOf : Option Email.Uuid → Duty
  | none => .free
  | some id => .holding id

theorem leads_dequeue (workerId : Email.Uuid) :
    (emailMonitor (dutyMonitor h svc)).Leads .troubled (· = .free) (Email.dequeue workerId) fun d r => d = dutyOf r := by
  refine leads_bind absorbing_email leads_getConnection fun _ => ?_
  refine leads_bind absorbing_email (B := fun d popped => d = dutyOf (popped.map Prod.fst))
    (leads_withContext (leads_ask ?_ ?_)) fun popped => ?_
  · rintro φ rfl
    exact ⟨rfl, rfl⟩
  · rintro φ (_ | popped) rfl <;> exact .inr rfl
  · cases popped with
    | none => exact leads_pure fun φ hφ => hφ
    | some popped =>
        refine leads_bind absorbing_email (leads_still (still_of_lookup rfl rfl _)) fun now => ?_
        refine leads_bind absorbing_email (leads_withContext (leads_still ?_)) fun _ => leads_pure fun φ hφ => hφ
        exact ⟨trivial, fun v => .inr rfl⟩

section Sending

variable {id : Email.Uuid} {job : Email.EmailJob}

theorem leads_checkRateLimit (recipient : String) :
    (emailMonitor (dutyMonitor h svc)).Leads .troubled (· = .reading id job) (svc.checkRateLimit recipient)
      fun d _ => d = .reading id job := by
  unfold Email.EmailService.checkRateLimit
  split
  · exact leads_pure fun φ hφ => hφ
  · refine leads_bind absorbing_email (leads_still (still_of_lookup rfl rfl _)) fun now => ?_
    dsimp only
    refine leads_bind absorbing_email
      (B := fun d (count : Int) => d = .reading id job ∧ count ≤ svc.config.emailPerRecipientHourlyLimit) ?_
      fun count => ?_
    · refine leads_withContext (leads_cacheExec (leads_ask ?_ ?_) _)
      · rintro φ rfl
        show ∀ idem, _ ≠ Email.idempotencyRedisKey idem
        rw [String.append_assoc, String.append_assoc]
        exact Email.rateKey_ne _
      · rintro φ count rfl
        show (if count ≤ svc.config.emailPerRecipientHourlyLimit then Duty.reading id job else .troubled) = _ ∨ _
        by_cases hcount : count ≤ svc.config.emailPerRecipientHourlyLimit
        · exact .inr ⟨if_pos hcount, hcount⟩
        · exact .inl (if_neg hcount)
    · refine triple_of_fact (fun φ hφ => hφ.2) fun hcount => ?_
      rw [if_neg (not_lt.mpr hcount)]
      exact leads_pure fun φ hφ => hφ.1

/-- The key of the job is taken, or found taken. -/
theorem leads_acquire :
    (emailMonitor (dutyMonitor h svc)).Leads .troubled (· = .reading id job)
      (svc.acquire (some (svc.idempotencyKeyOf job)))
      fun d acquired => if acquired = true then d.MayPost svc id job else d = .free := by
  unfold Email.EmailService.acquire
  cases hcache : svc.cache with
  | none => exact leads_pure fun φ hφ => .inr ⟨hcache, hφ⟩
  | some retryAttempts =>
      refine leads_bind absorbing_email (leads_withContext leads_getConnection) fun _ => ?_
      refine leads_withContext (leads_ask ?_ ?_)
      · rintro φ rfl
        exact ⟨id, job, rfl, rfl⟩
      · rintro φ (_ | _) rfl
        · exact .inr rfl
        · exact .inr (.inl rfl)

/-- **The email is posted** until it is accepted. -/
theorem leads_postRetrying {payload : Email.Payload} (hpayload : svc.payloadOf job = .ok payload) (n : Nat) :
    (emailMonitor (dutyMonitor h svc)).Leads .troubled (·.MayPost svc id job) (svc.postRetrying payload n)
      fun d _ => d = .free := by
  have hpost : (emailMonitor (dutyMonitor h svc)).Leads .troubled (·.MayPost svc id job)
      (Email.withContext (Email.request (.post payload)) "Failed to send email via SendGrid")
      fun d response => d = .free ∧ response.isSuccess = true := by
    refine leads_withContext (leads_ask (fun φ hφ => ?_) fun φ response hφ => ?_)
    · rcases hφ with rfl | ⟨hcache, rfl⟩
      · exact ⟨id, job, .inl rfl, hpayload⟩
      · exact ⟨id, job, .inr ⟨hcache, rfl⟩, hpayload⟩
    · have hnext : (emailMonitor (dutyMonitor h svc)).next φ (.post payload) (.ok response)
          = if response.isSuccess then .free else .troubled := by
        rcases hφ with rfl | ⟨-, rfl⟩ <;> rfl
      rw [hnext]
      cases hsuccess : response.isSuccess
      · exact .inl rfl
      · exact .inr ⟨rfl, rfl⟩
  have hreturn : ∀ (response : Email.Response) (otherwise : Email.EmailM String),
      (emailMonitor (dutyMonitor h svc)).Leads .troubled (fun d => d = .free ∧ response.isSuccess = true)
        (if response.isSuccess = true then pure (response.messageId.getD "unknown") else otherwise)
        fun d _ => d = .free := by
    intro response otherwise
    refine triple_of_fact (fun φ hφ => hφ.2) fun hsuccess => ?_
    rw [if_pos hsuccess]
    exact leads_pure fun φ hφ => hφ.1
  cases n with
  | zero => exact leads_bind absorbing_email hpost fun response => hreturn response _
  | succ n => exact leads_bind absorbing_email hpost fun response => hreturn response _

theorem leads_sendEmailIdempotent (hjob : (svc.payloadOf job).isOk = true) :
    (emailMonitor (dutyMonitor h svc)).Leads .troubled (· = .reading id job)
      (svc.sendEmailIdempotent job.recipientEmail job.templateName job.templateData (some (svc.idempotencyKeyOf job)))
      fun d _ => d = .free := by
  unfold Email.EmailService.sendEmailIdempotent
  refine leads_bind absorbing_email (leads_checkRateLimit _) fun _ => ?_
  refine leads_bind absorbing_email leads_acquire fun acquired => ?_
  cases acquired with
  | false => exact leads_pure fun φ hφ => hφ
  | true =>
      rw [if_pos rfl]
      cases hpayload : svc.payloadOf job with
      | error e =>
          rw [hpayload] at hjob
          cases hjob
      | ok payload =>
          unfold Email.EmailService.payloadOf at hpayload
          rw [hpayload]
          exact leads_postRetrying hpayload _

end Sending

/-- The commands of the books, the status of a job and its events change nothing for who is free. -/
theorem triple_markCompleted (j : Email.Uuid) (messageId : Option String) :
    (emailMonitor (dutyMonitor h svc)).Triple Done (Email.markCompleted j messageId) (fun d _ => Done d) Done :=
  triple_done (Email.markCompleted_marks (fun _ hq hwrites => still_of_lookup hq hwrites _) (fun _ => still_of_marking)
    j messageId ⟨trivial, fun _ => .inr rfl⟩ fun _ => ⟨trivial, fun _ => .inr rfl⟩)

theorem triple_markFailed (j : Email.Uuid) (error : String) :
    (emailMonitor (dutyMonitor h svc)).Triple Done (Email.markFailed j error) (fun d _ => Done d) Done :=
  triple_done (Email.markFailed_marks (fun _ hq hwrites => still_of_lookup hq hwrites _) (fun _ => still_of_marking)
    j error ⟨trivial, fun _ => .inr rfl⟩)

/-- What follows a lead. -/
theorem triple_after {β : Type} {A : Duty → Prop} {B : Duty → α → Prop} {p : Email.EmailM α}
    {f : α → Email.EmailM β}
    (hp : (emailMonitor (dutyMonitor h svc)).Leads .troubled A p B)
    (hf : ∀ a, (emailMonitor (dutyMonitor h svc)).Triple (B · a) (f a) (fun d _ => Done d) Done) :
    (emailMonitor (dutyMonitor h svc)).Triple A (p >>= f) (fun d _ => Done d) Done :=
  triple_bind (Triple.conseq hp (fun _ hφ => hφ) (fun _ _ hφ => hφ) fun _ hφ => Or.inl hφ) fun a =>
    triple_or (triple_absorbing absorbing_email (fun _ => .inl rfl) (.inl rfl)) (hf a)

/-- What a process has in hand that has looked for the row of its job. -/
def readDuty (id : Email.Uuid) : Option Email.EmailJob → Duty
  | none => .free
  | some job => .reading id job

/-- **A job that is taken from the queue** is sent, or a call fails. -/
theorem triple_processJob (j : Email.Uuid) :
    (emailMonitor (dutyMonitor h svc)).Triple (· = .holding j) (Email.processJob svc j) (fun d _ => Done d) Done := by
  refine triple_after (B := fun d row => d = readDuty j row ∧ ∀ job ∈ row, (svc.payloadOf job).isOk = true)
    (leads_ask ?_ ?_) fun row => ?_
  · rintro φ rfl
    trivial
  · rintro φ row rfl
    cases row with
    | none => exact .inr ⟨if_pos rfl, fun job hjob => by cases hjob⟩
    | some job =>
        have hnext : (emailMonitor (dutyMonitor h svc)).next (.holding j) (.getJob j) (.ok (some job))
            = if (svc.payloadOf job).isOk = true then .reading j job else .troubled := if_pos rfl
        rw [hnext]
        by_cases hjob : (svc.payloadOf job).isOk = true
        · refine .inr ⟨if_pos hjob, fun job' hjob' => ?_⟩
          obtain rfl := Option.some.inj hjob'
          exact hjob
        · exact .inl (if_neg hjob)
  · cases row with
    | none => exact triple_fail fun φ hφ => .inr hφ.1
    | some job =>
        refine triple_of_fact (fun φ hφ => hφ.2 job rfl) fun hjob => ?_
        refine (triple_after (A := (· = .reading j job)) (B := fun d suppressed => d = .reading j job ∧ suppressed = false)
          (leads_ask ?_ ?_) fun suppressed => ?_).strengthen fun φ hφ => hφ.1
        · rintro φ rfl
          trivial
        · rintro φ (_ | _) rfl
          · exact .inr ⟨rfl, rfl⟩
          · exact .inl rfl
        · refine triple_of_fact (fun φ hφ => hφ.2) fun hsuppressed => ?_
          rw [hsuppressed, if_neg Bool.false_ne_true]
          have hstatus : Still h svc (.reading j job) (.updateJobStatus j Email.EmailJobStatus.processing.asStr none) :=
            ⟨trivial, fun _ => .inr rfl⟩
          refine (triple_after (leads_still hstatus) fun _ => ?_).strengthen fun φ hφ => hφ.1
          exact triple_after (leads_sendEmailIdempotent hjob) fun messageId =>
            (triple_markCompleted j (some messageId)).strengthen fun φ hφ => .inr hφ

/-- A result that is not looked at. -/
theorem triple_attempted {β : Type} {p : Email.EmailM α} {f : Except String α → Email.EmailM β}
    (hp : (emailMonitor (dutyMonitor h svc)).Triple Done p (fun d _ => Done d) Done)
    (hf : ∀ r, (emailMonitor (dutyMonitor h svc)).Triple Done (f r) (fun d _ => Done d) Done) :
    (emailMonitor (dutyMonitor h svc)).Triple Done (p.attempt >>= f) (fun d _ => Done d) Done :=
  triple_attempt_bind hp (fun a => hf (.ok a)) fun e => hf (.error e)

theorem triple_pure_done {a : α} :
    (emailMonitor (dutyMonitor h svc)).Triple Done (pure a : Email.EmailM α) (fun d _ => Done d) Done :=
  triple_pure fun _ hφ => hφ

/-- **A worker is free again after its turn**, or a call has failed. -/
theorem triple_workerTurn (workerId : Email.Uuid) :
    (emailMonitor (dutyMonitor h svc)).Triple Done (Email.workerTurn svc workerId) (fun d _ => Done d) Done := by
  have hbeat : ∀ value, Still h svc .free (.setEx (Email.heartbeatKey workerId.text) value 60) := fun value =>
    ⟨Email.heartbeatKey_ne _, fun _ => .inr rfl⟩
  have hlookup : ∀ q : Email.Command, q.isBackground = true → q.writesStrings = false → Still h svc .free q :=
    fun _ hq hwrites => still_of_lookup hq hwrites _
  have hdequeue : (emailMonitor (dutyMonitor h svc)).Triple Done (Email.dequeue workerId)
      (fun d r => d = .troubled ∨ d = dutyOf r) Done :=
    triple_or (triple_absorbing absorbing_email (fun _ => .inl rfl) (.inl rfl))
      (Triple.conseq (leads_dequeue workerId) (fun _ hφ => hφ) (fun _ _ hφ => hφ) fun _ hφ => Or.inl hφ)
  refine triple_attempted (triple_done (Email.updateWorkerHeartbeat_uses hlookup workerId hbeat)) fun _ => ?_
  refine triple_attempted (triple_done (Email.processRetries_uses hlookup)) fun _ => ?_
  refine triple_attempt_bind hdequeue (fun taken => ?_) fun e => triple_pure_done
  cases taken with
  | none => exact triple_pure_done
  | some id =>
      have hjob : (emailMonitor (dutyMonitor h svc)).Triple (fun d => d = .troubled ∨ d = .holding id)
          (Email.processJob svc id) (fun d _ => Done d) Done :=
        triple_or (triple_absorbing absorbing_email (fun _ => .inl rfl) (.inl rfl)) (triple_processJob id)
      refine triple_attempt_bind hjob (fun _ => triple_pure_done) fun e => ?_
      exact triple_attempted (triple_markFailed id e) fun _ => triple_pure_done

theorem triple_workerStartup (order : Email.HashOrder) (staleThresholdSecs : Nat) :
    (emailMonitor (dutyMonitor h svc)).Triple Done (Email.workerStartup order staleThresholdSecs) (fun d _ => Done d) Done :=
  triple_attempted (triple_done (Email.recoverOrphanedJobs_uses (fun _ hq hwrites => still_of_lookup hq hwrites _) order
    staleThresholdSecs)) fun _ => triple_pure_done

/-- A program of the email service keeps its triple on this server. -/
theorem triple_lift {A E : Duty → Prop} {B : Duty → α → Prop} {p : Email.EmailM α}
    (hp : (emailMonitor (dutyMonitor h svc)).Triple A p B E) : (dutyMonitor h svc).Triple A (lift p) B E :=
  fun φ hφ => obeys_lift.mpr (hp φ hφ)

/-- One command of a handler. -/
theorem leads_request {q : Command} {A : Duty → Prop} {B : Duty → Reply q → Prop}
    (hallows : ∀ φ, A φ → (dutyMonitor h svc).allows φ q)
    (hgood : ∀ φ v, A φ → (dutyMonitor h svc).next φ q (.ok v) = .troubled
      ∨ B ((dutyMonitor h svc).next φ q (.ok v)) v) :
    (dutyMonitor h svc).Leads .troubled A (request q) B :=
  leads_call hallows hgood fun φ e _ => next_error svc φ q e

/-- **A subscription** gets a token and the job with its link. -/
theorem leads_requestConfirmation (email source : String) :
    (dutyMonitor h svc).Leads .troubled (· = .free) (h.requestConfirmation email source) fun d _ => d = .free := by
  refine leads_bind absorbing_troubled (B := fun d _ => d = .free) (leads_request ?_ ?_) fun token => ?_
  · rintro φ rfl
    trivial
  · rintro φ token rfl
    exact .inr rfl
  · refine leads_bind absorbing_troubled (B := fun d _ => d = .token email token) (leads_request ?_ ?_) fun _ => ?_
    · rintro φ rfl
      rfl
    · rintro φ v rfl
      exact .inr rfl
    · exact leads_bind absorbing_troubled (triple_lift (leads_enqueue _ email token)) fun id => leads_pure fun φ hφ => hφ

theorem leads_newsletterSubscribe (email : String) (source : Option String) :
    (dutyMonitor h svc).Leads .troubled (· = .free) (h.newsletterSubscribe email source) fun d _ => d = .free := by
  unfold NewsletterHandler.newsletterSubscribe
  split
  · exact leads_pure fun φ hφ => hφ
  · split
    · exact leads_pure fun φ hφ => hφ
    · refine leads_bind absorbing_troubled (B := fun d _ => d = .free) (leads_request ?_ ?_) fun existing => ?_
      · rintro φ rfl
        trivial
      · rintro φ existing rfl
        exact .inr rfl
      · dsimp only
        split
        · exact leads_pure fun φ hφ => hφ
        · exact leads_bind absorbing_troubled (leads_requestConfirmation _ _) fun _ => leads_pure fun φ hφ => hφ

theorem leads_newsletterConfirm {token : String} {p : ApiM NewsletterResponse} (hp : h.newsletterConfirm token = p) :
    (dutyMonitor h svc).Leads .troubled (· = .free) p fun d _ => d = .free := by
  subst hp
  unfold NewsletterHandler.newsletterConfirm
  split
  · exact leads_pure fun φ hφ => hφ
  · refine leads_bind absorbing_troubled (B := fun d _ => d = .free) (leads_request ?_ ?_) fun updated => ?_
    · rintro φ rfl
      trivial
    · rintro φ updated rfl
      exact .inr rfl
    · split <;> exact leads_pure fun φ hφ => hφ

theorem leads_newsletterUnsubscribe (token : String) :
    (dutyMonitor h svc).Leads .troubled (· = .free) (h.newsletterUnsubscribe token) fun d _ => d = .free := by
  unfold NewsletterHandler.newsletterUnsubscribe
  split
  · exact leads_pure fun φ hφ => hφ
  · split
    · exact leads_pure fun φ hφ => hφ
    · refine leads_bind absorbing_troubled (B := fun d _ => d = .free) (leads_request ?_ ?_) fun _ =>
        leads_pure fun φ hφ => hφ
      · rintro φ rfl
        trivial
      · rintro φ v rfl
        exact .inr rfl

/-- A handler whose response is not looked at. -/
theorem triple_handler {p : ApiM NewsletterResponse}
    (hp : (dutyMonitor h svc).Leads .troubled (· = .free) p (fun d _ => d = .free)) :
    (dutyMonitor h svc).Triple (· = .free) (p >>= fun _ => (pure () : ApiM Unit)) (fun d _ => Done d) Done :=
  triple_bind (Triple.conseq hp (fun _ hφ => hφ) (fun _ _ hφ => hφ) fun _ hφ => Or.inl hφ) fun _ =>
    triple_pure fun _ hφ => hφ

theorem triple_newsletterBody (pid : Email.Uuid) (task : NewsletterTask) :
    (dutyMonitor h svc).Triple (· = .free) (newsletterBody h svc pid task) (fun d _ => Done d) Done := by
  cases task with
  | subscribe email source => exact triple_handler (leads_newsletterSubscribe email source)
  | confirm token =>
      simp only [newsletterBody]
      -- the trimmed token is not to be computed
      generalize hp : h.newsletterConfirm token = p
      exact triple_handler (leads_newsletterConfirm hp)
  | unsubscribe token => exact triple_handler (leads_newsletterUnsubscribe token)
  | workerStartup order staleThresholdSecs =>
      exact (triple_lift (triple_workerStartup order staleThresholdSecs)).strengthen fun _ hφ => .inr hφ
  | workerTurn => exact (triple_lift (triple_workerTurn pid)).strengthen fun _ hφ => .inr hφ

/-- **Every program is free again at its end**, or a call has failed. -/
theorem obeys_newsletterBody (h : NewsletterHandler) (svc : Email.EmailService) (pid : Email.Uuid) (task : NewsletterTask) :
    (dutyMonitor h svc).Obeys (fun d _ => Done d) (dutyMonitor h svc).start (newsletterBody h svc pid task) := by
  refine (triple_newsletterBody pid task .free rfl).mono fun d r hr => ?_
  cases r <;> exact hr

end Programs

end PredictIQ.Api
