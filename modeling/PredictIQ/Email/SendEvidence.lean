/-
  PredictIQ.Email.SendEvidence: what a process knows when it completes a job.

  A worker reads the row of its job, asks whether the recipient is suppressed,
  and sends.  `evidenceMonitor` keeps the row and what speaks for completing
  the job: a suppressed recipient, a request for its email that SendGrid
  accepted, or an idempotency key that was taken already.  `body_knows` says
  that no program completes a job without one of the three, and that none
  records a sent event without one of the last two.
-/
import PredictIQ.Email.Queue

namespace PredictIQ.Email

open Foundation

/-! ## §1. The dossier of a job. -/

/-- What speaks for completing a job. -/
inductive Clearance where
  | none | suppressed | mailed
  deriving DecidableEq, Repr

/-- The row of the job a process works on, and what speaks for completing it. -/
structure Dossier where
  job : Option (Uuid × EmailJob)
  clearance : Clearance

namespace Dossier

/-- What an answer adds.  A key that is taken is read the way the service reads
it: the email has been sent. -/
def next (svc : EmailService) : Dossier → (q : Command) → Except String (Reply q) → Dossier
  | d, .getJob id, .ok (some job) =>
      if d.job.map Prod.fst = some id then d else ⟨some (id, job), .none⟩
  | ⟨some (id, job), clearance⟩, .isSuppressed email, .ok suppressed =>
      if suppressed = true ∧ email = job.recipientEmail then ⟨some (id, job), .suppressed⟩
      else ⟨some (id, job), clearance⟩
  | ⟨some (id, job), clearance⟩, .setNxEx key _, .ok acquired =>
      if acquired = false ∧ key = idempotencyRedisKey (svc.idempotencyKeyOf job) then
        ⟨some (id, job), .mailed⟩
      else ⟨some (id, job), clearance⟩
  | ⟨some (id, job), clearance⟩, .post p, .ok response =>
      if response.isSuccess = true ∧ svc.payloadOf job = .ok p then ⟨some (id, job), .mailed⟩
      else ⟨some (id, job), clearance⟩
  | d, _, _ => d

/-- A job is completed on its own dossier, and only when something speaks for it;
a sent event needs an email. -/
def allows : Dossier → Command → Prop
  | d, .updateJobStatus id status _ => status = EmailJobStatus.completed.asStr →
      (∃ job, d.job = some (id, job)) ∧ d.clearance ≠ .none
  | d, .createEvent event => event.eventType = "sent" →
      ∃ id job, event.emailJobId = some id ∧ d.job = some (id, job) ∧ d.clearance = .mailed
  | _, _ => True

end Dossier

def evidenceMonitor (svc : EmailService) : Monitor Reply String Dossier :=
  ⟨⟨none, .none⟩, Dossier.next svc, Dossier.allows⟩

/-- The commands that say something about a job or settle it. -/
def Command.bearsEvidence : Command → Bool
  | .getJob _ | .isSuppressed _ | .setNxEx .. | .post _ | .updateJobStatus .. | .createEvent _ => true
  | _ => false

variable {svc : EmailService}

/-- The other commands neither need nor change a dossier. -/
theorem dossier_quiet {q : Command} (hq : q.bearsEvidence = false) (d : Dossier) :
    (evidenceMonitor svc).allows d q ∧ ∀ r, (evidenceMonitor svc).next d q r = d := by
  obtain ⟨_ | ⟨id, job⟩, clearance⟩ := d
  all_goals
    cases q <;> cases hq
    all_goals
      refine ⟨trivial, fun r => ?_⟩
      cases r <;> rfl

theorem bearsNone_of_background {q : Command} (hq : q.isBackground = true) :
    q.bearsEvidence = false := by
  cases q <;> first | rfl | cases hq

/-! ## §2. What each program knows. -/

section Programs

open Monitor

variable {α : Type} {d : Dossier} {j : Uuid} {job : EmailJob}

theorem background_then {p : EmailM α} {β : Type} {f : α → EmailM β}
    {post : Dossier → Except String β → Prop} (hp : p.Uses fun q => q.bearsEvidence = false)
    (hok : ∀ a, (evidenceMonitor svc).Obeys post d (f a)) (herr : ∀ e, post d (.error e)) :
    (evidenceMonitor svc).Obeys post d (p >>= f) :=
  obeys_bind_of_uses hp (fun _ hq => dossier_quiet hq _) hok herr

/-- Reading the row of the same job again changes nothing. -/
theorem next_getJob (h : d.job = some (j, job)) (r : Except String (Option EmailJob)) :
    (evidenceMonitor svc).next d (.getJob j) r = d := by
  rcases r with e | _ | row
  · obtain ⟨_ | ⟨id, job⟩, clearance⟩ := d <;> rfl
  · obtain ⟨_ | ⟨id, job⟩, clearance⟩ := d <;> rfl
  · exact if_pos (by rw [h]; rfl)

theorem next_updateJobStatus (d : Dossier) (id : Uuid) (status : String) (e : Option String)
    (r : Except String Unit) :
    (evidenceMonitor svc).next d (.updateJobStatus id status e) r = d := by
  obtain ⟨_ | ⟨id, job⟩, clearance⟩ := d <;> cases r <;> rfl

theorem recipientForEvent_obeys (h : d.job = some (j, job)) :
    (evidenceMonitor svc).Obeys (fun d' _ => d' = d) d (recipientForEvent j) := by
  refine obeys_bind.mpr (obeys_attempt.mpr ⟨trivial, fun r => ?_⟩)
  rw [next_getJob h]
  rcases r with e | _ | row <;> exact rfl

/-- A job is completed on its dossier; with a message there must be an email. -/
theorem markCompleted_knows (h : d.job = some (j, job)) {messageId : Option String}
    (hclear : d.clearance ≠ .none) (hmailed : messageId ≠ none → d.clearance = .mailed) :
    (evidenceMonitor svc).Obeys (fun _ _ => True) d (markCompleted j messageId) := by
  refine obeys_call_bind.mpr ⟨fun _ => ⟨⟨job, h⟩, hclear⟩, fun u => ?_, fun e => trivial⟩
  rw [next_updateJobStatus]
  refine background_then (removeFromProcessing_uses (fun _ hq _ => bearsNone_of_background hq) j
    fun _ => rfl) (fun _ => ?_) fun e => trivial
  cases messageId with
  | none => trivial
  | some msgId =>
      refine obeys_bind.mpr ((recipientForEvent_obeys h).mono ?_)
      rintro _ (e | recipient) rfl
      · trivial
      · exact ⟨fun _ => ⟨j, job, rfl, h, hmailed (Option.some_ne_none msgId)⟩, fun _ => trivial⟩

/-- A request that is answered with success is an email of the job. -/
theorem postRetrying_knows {p : Payload} (hp : svc.payloadOf job = .ok p) (n : Nat) :
    (evidenceMonitor svc).Obeys (fun d r => ∀ id, r = .ok id → d = ⟨some (j, job), .mailed⟩)
      ⟨some (j, job), .none⟩ (svc.postRetrying p n) := by
  have hnext : ∀ response : Response, (evidenceMonitor svc).next ⟨some (j, job), .none⟩ (.post p)
      (.ok response) = if response.isSuccess = true then ⟨some (j, job), .mailed⟩
        else ⟨some (j, job), .none⟩ := by
    intro response
    simp [evidenceMonitor, Dossier.next, hp]
  induction n with
  | zero =>
      refine obeys_mapError_call_bind.mpr ⟨trivial, fun response => ?_, fun e id h => by cases h⟩
      rw [hnext]
      cases response.isSuccess with
      | true => exact fun _ _ => rfl
      | false => exact fun id h => by cases h
  | succ n ih =>
      refine obeys_mapError_call_bind.mpr ⟨trivial, fun response => ?_, fun e id h => by cases h⟩
      rw [hnext]
      cases response.isSuccess with
      | true => exact fun _ _ => rfl
      | false =>
          cases EmailService.shouldRetry response.status with
          | true => exact ih
          | false => exact fun id h => by cases h

theorem next_acquired (acquired : Bool) (seconds : Nat) :
    (evidenceMonitor svc).next ⟨some (j, job), .none⟩
        (.setNxEx (idempotencyRedisKey (svc.idempotencyKeyOf job)) seconds) (.ok acquired)
      = ⟨some (j, job), if acquired then .none else .mailed⟩ := by
  cases acquired <;> simp [evidenceMonitor, Dossier.next]

/-- The key is free and nothing is known yet, or it is taken. -/
theorem acquire_knows :
    (evidenceMonitor svc).Obeys
      (fun d r => (r = .ok true → d = ⟨some (j, job), .none⟩)
        ∧ (r = .ok false → d = ⟨some (j, job), .mailed⟩))
      ⟨some (j, job), .none⟩ (svc.acquire (some (svc.idempotencyKeyOf job))) := by
  unfold EmailService.acquire
  cases svc.cache with
  | none =>
      show _ ∧ _
      exact ⟨fun _ => rfl, fun h => absurd h (by simp)⟩
  | some retryAttempts =>
      refine background_then ((getConnection_uses fun _ hq _ => bearsNone_of_background hq).mapError _)
        (fun _ => ?_) fun e => by simp
      refine obeys_mapError.mpr ⟨trivial, ?_⟩
      rintro (e | _ | _)
      · exact ⟨nofun, nofun⟩
      · exact ⟨nofun, fun _ => next_acquired false _⟩
      · exact ⟨fun _ => next_acquired true _, nofun⟩

/-- A send that returns leaves an email behind, or a key that was taken. -/
theorem sendEmailIdempotent_knows :
    (evidenceMonitor svc).Obeys (fun d r => ∀ id, r = .ok id → d = ⟨some (j, job), .mailed⟩)
      ⟨some (j, job), .none⟩
      (svc.sendEmailIdempotent job.recipientEmail job.templateName job.templateData
        (some (svc.idempotencyKeyOf job))) := by
  refine background_then (svc.checkRateLimit_uses (fun _ hq _ => bearsNone_of_background hq) _ fun _ => rfl)
    (fun _ => ?_) fun e => nofun
  refine obeys_bind.mpr (acquire_knows.mono ?_)
  rintro d (e | acquired) ⟨htrue, hfalse⟩
  · exact nofun
  · cases acquired with
    | false =>
        obtain rfl := hfalse rfl
        exact fun id _ => rfl
    | true =>
        obtain rfl := htrue rfl
        rw [andThen_ok, if_pos rfl]
        -- the request is one value from here on, whatever it is made of
        generalize hpayload : svc.payload job.recipientEmail job.templateName job.templateData = p
        cases p with
        | error e => exact nofun
        | ok p => exact postRetrying_knows hpayload _

theorem processJob_knows (j : Uuid) :
    (evidenceMonitor svc).Obeys (fun _ _ => True) (evidenceMonitor svc).start (processJob svc j) := by
  refine obeys_call_bind.mpr ⟨trivial, fun row => ?_, fun e => trivial⟩
  cases row with
  | none => trivial
  | some job =>
      -- the row is read: the dossier is that of the job
      show (evidenceMonitor svc).Obeys _ (⟨some (j, job), .none⟩ : Dossier) _
      refine obeys_call_bind.mpr ⟨trivial, fun suppressed => ?_, fun e => trivial⟩
      cases suppressed with
      | true =>
          rw [show (evidenceMonitor svc).next ⟨some (j, job), .none⟩ (.isSuppressed job.recipientEmail)
            (.ok true) = ⟨some (j, job), .suppressed⟩ from if_pos ⟨rfl, rfl⟩]
          exact markCompleted_knows rfl Clearance.noConfusion fun h => absurd rfl h
      | false =>
          refine obeys_call_bind.mpr ⟨fun h => absurd h (by decide), fun u => ?_, fun e => trivial⟩
          refine obeys_bind.mpr (sendEmailIdempotent_knows.mono ?_)
          rintro d (e | messageId) hmailed
          · trivial
          · obtain rfl := hmailed messageId rfl
            exact andThen_ok.mpr (markCompleted_knows rfl Clearance.noConfusion fun _ => rfl)

/-- The commands that need no dossier. -/
def Unconditional (svc : EmailService) (q : Command) : Prop :=
  ∀ d, (evidenceMonitor svc).allows d q

theorem unconditional_of_background {q : Command} (hq : q.isBackground = true) :
    Unconditional svc q :=
  fun d => (dossier_quiet (bearsNone_of_background hq) d).1

theorem unconditional_status (id : Uuid) {status : String} (e : Option String)
    (h : status ≠ EmailJobStatus.completed.asStr) :
    Unconditional svc (.updateJobStatus id status e) :=
  fun _ hcompleted => absurd hcompleted h

theorem unconditional_of_bookkeeping {q : Command} (hq : q.isBookkeeping = true) :
    Unconditional svc q := by
  intro d
  cases q <;> trivial

theorem workerTurn_knows (svc : EmailService) (workerId : Uuid) :
    (evidenceMonitor svc).Obeys (fun _ _ => True) (evidenceMonitor svc).start
      (workerTurn svc workerId) := by
  refine background_then (updateWorkerHeartbeat_uses (fun _ hq _ => bearsNone_of_background hq) _ fun _ => rfl).attempt
    (fun _ => ?_) fun e => trivial
  refine background_then (processRetries_uses fun _ hq _ => bearsNone_of_background hq).attempt
    (fun _ => ?_) fun e => trivial
  refine background_then
    (dequeue_uses (fun _ hq _ => bearsNone_of_background hq) rfl (fun _ _ => rfl) workerId).attempt
    (fun dequeued => ?_) fun e => trivial
  rcases dequeued with e | _ | j
  · trivial
  · trivial
  · refine obeys_bind.mpr (obeys_attempt.mpr ((processJob_knows j).mono ?_))
    rintro d (e | u) -
    · -- a failed job is put back, which no dossier stands in the way of
      have hfailed := markFailed_uses (S := Unconditional svc) (fun _ hq _ => unconditional_of_background hq)
        (fun _ => unconditional_of_bookkeeping) j e (unconditional_status j _ (by decide))
      exact obeys_of_uses_allowed (Prog.Uses.bind hfailed.attempt fun _ => Prog.uses_pure ()) fun φ q hq => hq φ
    · trivial

/-- **No program completes a job that nothing speaks for**, and none records a
sent event without an email or a key that was taken. -/
theorem body_knows (svc : EmailService) (pid : Uuid) (task : Task) :
    (evidenceMonitor svc).Obeys (fun _ _ => True) (evidenceMonitor svc).start (body svc pid task) := by
  have hallowed : ∀ {p : EmailM Unit}, p.Uses (Unconditional svc) →
      (evidenceMonitor svc).Obeys (fun _ _ => True) (evidenceMonitor svc).start p :=
    fun hp => obeys_of_uses_allowed hp fun φ q hq => hq φ
  cases task with
  | enqueue jobType recipient templateName templateData priority =>
      have henqueue := enqueue_uses (S := Unconditional svc) (fun _ hq _ => unconditional_of_background hq)
        (fun _ => unconditional_of_bookkeeping) jobType recipient templateName templateData priority
      exact hallowed (Prog.Uses.bind henqueue fun _ => trivial)
  | requeueDeadLetter j =>
      have hrequeue := requeueDeadLetter_uses (S := Unconditional svc) (fun _ hq _ => unconditional_of_background hq)
        (fun _ => unconditional_of_bookkeeping) j (unconditional_status j _ (by decide))
      exact hallowed (Prog.Uses.bind hrequeue fun _ => trivial)
  | workerStartup order staleThresholdSecs =>
      have hrecover := recoverOrphanedJobs_uses (S := Unconditional svc)
        (fun _ hq _ => unconditional_of_background hq) order staleThresholdSecs
      exact hallowed (Prog.Uses.bind hrecover.attempt fun _ => trivial)
  | workerTurn => exact workerTurn_knows svc pid

end Programs

end PredictIQ.Email
