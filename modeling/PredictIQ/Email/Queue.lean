/-
  PredictIQ.Email.Queue: the email queue (`email/queue.rs`).

  Each function is the sequence of commands it issues.  Scores and timestamps
  are whole seconds, as `timestamp() as f64` makes them.  Logging, metrics and
  sleeps issue no command of the queue and are left out.
-/
import PredictIQ.Email.Service

namespace PredictIQ.Email

open Foundation
open Prog (call fail)

/-! ## §1. Into the queue and out of it. -/

/-- Enqueue a new email job. -/
def enqueue (jobType : EmailJobType) (recipient templateName : String) (templateData : Value)
    (priority : Int) : EmailM Uuid := do
  let jobId ← request (.createJob jobType.asStr recipient templateName templateData priority)
  -- a higher priority is a lower score, and is processed first
  let score ← if priority > 0 then pure (-priority) else request .utcNow
  getConnection
  withContext (request (.zadd .queue jobId score)) "Failed to add job to queue"
  return jobId

/-- Move the job of lowest score to the processing set. -/
def dequeue (workerId : Uuid) : EmailM (Option Uuid) := do
  getConnection
  match ← withContext (request (.zpopmin .queue)) "Failed to dequeue job" with
  | some (jobId, _) => do
      let processingStarted ← request .utcNow
      withContext (request (.zaddProcessing (.owned workerId jobId) processingStarted))
        "Failed to mark job as processing"
      return some jobId
  | none => return none

/-- Drop the first member of the processing set that ends in the job's id. -/
def removeFromProcessing (jobId : Uuid) : EmailM Unit := do
  getConnection
  let members ← withContext (request .zrangeProcessing) "Failed to list processing jobs"
  match members.find? (·.endsWith (":" ++ jobId.text)) with
  | some member =>
      withContext (request (.zremProcessing member)) "Failed to remove from processing set"
  | none => pure ()

/-- The recipient of a sent event: empty when the row cannot be read. -/
def recipientForEvent (jobId : Uuid) : EmailM String := do
  match ← (request (.getJob jobId)).attempt with
  | .ok (some job) => return job.recipientEmail
  | .ok none => return ""
  | .error _ => return ""

/-- Mark a job as completed, and record a sent event when there is a message. -/
def markCompleted (jobId : Uuid) (messageId : Option String) : EmailM Unit := do
  request (.updateJobStatus jobId EmailJobStatus.completed.asStr none)
  removeFromProcessing jobId
  match messageId with
  | none => pure ()
  | some msgId =>
      let recipient ← recipientForEvent jobId
      request (.createEvent ⟨some jobId, some msgId, "sent", recipient, "\x7b\x7d"⟩)

/-- `MAX_BACKOFF_EXPONENT`. -/
def maxBackoffExponent : Int := 20

def computeBackoffSeconds (newAttempts : Int) : Nat :=
  2 ^ (max 0 (min newAttempts maxBackoffExponent)).toNat * 60

/-- Mark a job as failed: a retry while attempts remain, else the dead-letter set. -/
def markFailed (jobId : Uuid) (error : String) : EmailM Unit := do
  match ← request (.getJob jobId) with
  | none => pure ()
  | some job =>
      let newAttempts := job.attempts + 1
      if newAttempts < job.maxAttempts then do
        let now ← request .utcNow
        let retryAt := now + computeBackoffSeconds newAttempts
        request (.updateJobAttempts jobId newAttempts (some error))
        getConnection
        withContext (request (.zadd .retry jobId retryAt)) "Failed to schedule retry"
      else do
        request (.updateJobStatus jobId EmailJobStatus.failed.asStr (some error))
        getConnection
        let failedAt ← request .utcNow
        withContext (request (.zadd .deadLetter jobId failedAt))
          "Failed to add job to dead-letter set"
        let payload : DlqPayload :=
          ⟨job.jobType, job.recipientEmail, job.templateName, job.templateData⟩
        -- the Redis copy stands when the database's cannot be written
        let _ ← (request (.createDeadLetterJob jobId payload error newAttempts)).attempt
      removeFromProcessing jobId

/-! ## §2. Back into the queue. -/

/-- Move the retries that are due to the main queue. -/
def processRetries : EmailM Nat := do
  getConnection
  let now ← request .utcNow
  let jobs ← withContext (request (.zrangebyscore .retry now)) "Failed to get retry jobs"
  if jobs.length = 0 then return 0
  withContext (request (.moveRetries now jobs)) "Failed to batch move retry jobs"

/-- `DEAD_LETTER_REQUEUE_DELAY_SECS`. -/
def deadLetterRequeueDelaySecs : Int := 60

/-- Move a job from the dead-letter set back to the main queue. -/
def requeueDeadLetter (jobId : Uuid) : EmailM Bool := do
  getConnection
  let removed ← withContext (request (.zrem .deadLetter jobId))
    "Failed to remove job from dead-letter set"
  if removed = 0 then return false
  request (.updateJobAttempts jobId 0 none)
  request (.updateJobStatus jobId EmailJobStatus.pending.asStr none)
  let now ← request .utcNow
  let eligibleAt := now + deadLetterRequeueDelaySecs
  withContext (request (.zadd .queue jobId eligibleAt)) "Failed to re-enqueue dead-letter job"
  let _ ← (request (.deleteDeadLetterJob jobId)).attempt
  return true

/-- `email:worker:heartbeat:{worker_id}`. -/
def heartbeatKey (workerId : String) : String := "email:worker:heartbeat:" ++ workerId

/-- `entry.split_once(':')`, with `"unknown"` for the old format: ids hold no colon. -/
def splitEntry : Member → String × Uuid
  | .owned worker job => (worker.text, job)
  | .bare job => ("unknown", job)

/-- `worker_jobs`: the jobs of the stale entries, by worker. -/
def groupByWorker (entries : List Member) : List (String × List Uuid) :=
  (entries.map splitEntry).foldl (fun groups e =>
    if groups.any (·.1 == e.1) then
      groups.map fun g => if g.1 == e.1 then (g.1, g.2 ++ [e.2]) else g
    else groups ++ [(e.1, [e.2])]) []

/-- The order in which a `HashMap` is walked, which is left open. -/
structure HashOrder where
  walk : List (String × List Uuid) → List (String × List Uuid)
  perm : ∀ groups, (walk groups).Perm groups

/-- The jobs of the workers that have no heartbeat since the cutoff. -/
def jobsOfDeadWorkers (staleCutoff : Int) : List (String × List Uuid) → EmailM (List Uuid)
  | [] => return []
  | (workerId, jobIds) :: rest => do
      let lastHeartbeat ← withContext (request (.get (heartbeatKey workerId)))
        "Failed to get worker heartbeat"
      let workerIsDead : Bool := match lastHeartbeat with
        | some hb => decide (hb < staleCutoff)
        | none => true
      let others ← jobsOfDeadWorkers staleCutoff rest
      return if workerIsDead then jobIds ++ others else others

/-- Re-queue the jobs that dead workers left in the processing set. -/
def recoverOrphanedJobs (order : HashOrder) (staleThresholdSecs : Nat) : EmailM Nat := do
  getConnection
  let now ← request .utcNow
  let staleCutoff := now - staleThresholdSecs
  let staleEntries ← withContext (request (.zrangebyscoreProcessing staleCutoff))
    "Failed to scan processing set for stale jobs"
  if staleEntries.length = 0 then return 0
  let jobsToRecover ← jobsOfDeadWorkers staleCutoff (order.walk (groupByWorker staleEntries))
  if jobsToRecover.isEmpty then return 0
  withContext (request (.recoverJobs now jobsToRecover)) "Failed to batch recover orphaned jobs"

/-! ## §3. The worker. -/

def updateWorkerHeartbeat (workerId : Uuid) : EmailM Unit := do
  getConnection
  let now ← request .utcNow
  withContext (request (.setEx (heartbeatKey workerId.text) now 60))
    "Failed to update worker heartbeat"

def processJob (svc : EmailService) (jobId : Uuid) : EmailM Unit := do
  match ← request (.getJob jobId) with
  | none => fail "Job not found"
  | some job =>
      if ← request (.isSuppressed job.recipientEmail) then
        markCompleted jobId none
      else do
        request (.updateJobStatus jobId EmailJobStatus.processing.asStr none)
        let idem := idempotencyKey svc.crates job.recipientEmail job.templateName
          svc.idempotencySecret job.createdAt
        let messageId ← svc.sendEmailIdempotent job.recipientEmail job.templateName
          job.templateData (some idem)
        -- a deduplicated send counts as success
        markCompleted jobId (some messageId)

/-- What a worker does before its loop. -/
def workerStartup (order : HashOrder) (staleThresholdSecs : Nat) : EmailM Unit := do
  let _ ← (recoverOrphanedJobs order staleThresholdSecs).attempt

/-- One turn of the worker's loop. -/
def workerTurn (svc : EmailService) (workerId : Uuid) : EmailM Unit := do
  let _ ← (updateWorkerHeartbeat workerId).attempt
  let _ ← processRetries.attempt
  match ← (dequeue workerId).attempt with
  | .ok (some jobId) =>
      match ← (processJob svc jobId).attempt with
      | .ok _ => pure ()
      | .error e => do
          let _ ← (markFailed jobId e).attempt
  | .ok none => pure ()
  | .error _ => pure ()

/-! ## §4. The system. -/

/-- What a process is started on: an API request, or a worker's start or turn. -/
inductive Task where
  | enqueue (jobType : EmailJobType) (recipient templateName : String) (templateData : Value)
      (priority : Int)
  | requeueDeadLetter (jobId : Uuid)
  | workerStartup (order : HashOrder) (staleThresholdSecs : Nat)
  | workerTurn

/-- The program of a task; a worker's process is its id. -/
def body (svc : EmailService) (pid : Uuid) : Task → EmailM Unit
  | .enqueue jobType recipient templateName templateData priority => do
      let _ ← enqueue jobType recipient templateName templateData priority
  | .requeueDeadLetter jobId => do
      let _ ← requeueDeadLetter jobId
  | .workerStartup order staleThresholdSecs => workerStartup order staleThresholdSecs
  | .workerTurn => workerTurn svc pid

/-- Workers and API processes over one backend. -/
abbrev System : Type := Machine Uuid Reply String Backend

abbrev Action : Type := Act Uuid Task String Choice Outside

def System.step (svc : EmailService) : System → Action → System :=
  Machine.step server (body svc) outside

/-- The command that a process is waiting on. -/
def System.asks (m : System) (p : Uuid) : Option Command := (m.procs p).map (·.question)

/-! ## §5. What the background programs ask. -/

section Uses

variable {S : Command → Prop} (hS : ∀ q, q.isBackground = true → q.writesStrings = false → S q)

include hS

theorem processRetries_uses : processRetries.Uses S := by
  refine Prog.Uses.bind (getConnection_uses hS) fun _ => ?_
  refine Prog.Uses.bind (Prog.uses_call.mpr (hS _ rfl rfl)) fun now => ?_
  refine Prog.Uses.bind (Prog.Uses.mapError (Prog.uses_call.mpr (hS _ rfl rfl)) _) fun jobs => ?_
  split
  · exact Prog.uses_pure _
  · exact Prog.Uses.mapError (Prog.uses_call.mpr (hS _ rfl rfl)) _

theorem jobsOfDeadWorkers_uses (staleCutoff : Int) (groups : List (String × List Uuid)) :
    (jobsOfDeadWorkers staleCutoff groups).Uses S := by
  induction groups with
  | nil => exact Prog.uses_pure _
  | cons g rest ih =>
      refine Prog.Uses.bind (Prog.Uses.mapError (Prog.uses_call.mpr (hS _ rfl rfl)) _) fun hb => ?_
      exact Prog.Uses.bind ih fun others => Prog.uses_pure _

theorem recoverOrphanedJobs_uses (order : HashOrder) (staleThresholdSecs : Nat) :
    (recoverOrphanedJobs order staleThresholdSecs).Uses S := by
  refine Prog.Uses.bind (getConnection_uses hS) fun _ => ?_
  refine Prog.Uses.bind (Prog.uses_call.mpr (hS _ rfl rfl)) fun now => ?_
  refine Prog.Uses.bind (Prog.Uses.mapError (Prog.uses_call.mpr (hS _ rfl rfl)) _) fun entries => ?_
  split
  · exact Prog.uses_pure _
  · refine Prog.Uses.bind (jobsOfDeadWorkers_uses hS _ _) fun jobs => ?_
    split
    · exact Prog.uses_pure _
    · exact Prog.Uses.mapError (Prog.uses_call.mpr (hS _ rfl rfl)) _

theorem updateWorkerHeartbeat_uses (workerId : Uuid)
    (hbeat : ∀ value, S (.setEx (heartbeatKey workerId.text) value 60)) :
    (updateWorkerHeartbeat workerId).Uses S := by
  refine Prog.Uses.bind (getConnection_uses hS) fun _ => ?_
  refine Prog.Uses.bind (Prog.uses_call.mpr (hS _ rfl rfl)) fun now => ?_
  exact Prog.Uses.mapError (Prog.uses_call.mpr (hbeat now)) _

/-- What is cleared is an entry of the job, whichever worker's comes first. -/
theorem removeFromProcessing_uses (jobId : Uuid)
    (hrem : ∀ worker, S (.zremProcessing (.owned worker jobId))) :
    (removeFromProcessing jobId).Uses S := by
  refine Prog.Uses.bind (getConnection_uses hS) fun _ => ?_
  refine Prog.Uses.bind (Prog.Uses.mapError (Prog.uses_call.mpr (hS _ rfl rfl)) _) fun members => ?_
  split
  · rename_i member hfind
    obtain ⟨worker, rfl⟩ := Member.owned_of_find hfind
    exact Prog.Uses.mapError (Prog.uses_call.mpr (hrem worker)) _
  · exact Prog.uses_pure _

omit hS in
theorem recipientForEvent_uses (hget : ∀ id, S (.getJob id)) (jobId : Uuid) :
    (recipientForEvent jobId).Uses S := by
  refine Prog.Uses.bind (Prog.Uses.attempt (Prog.uses_call.mpr (hget _))) fun row => ?_
  rcases row with e | _ | row <;> exact Prog.uses_pure _

end Uses

/-! ## §6. What the programs ask that keep the books of a job. -/

/-- The commands that move a job, or read and write what is stored of it, but
neither settle it nor send anything. -/
def Command.isBookkeeping : Command → Bool
  | .zadd .. | .zpopmin _ | .zrem .. | .zaddProcessing .. | .zremProcessing _ | .createJob .. | .getJob _
  | .updateJobAttempts .. | .createDeadLetterJob .. | .deleteDeadLetterJob _ => true
  | _ => false

/-- The commands by which a job is marked as completed or failed, its status apart. -/
def Command.isMarking : Command → Bool
  | .zadd .retry .. | .zadd .deadLetter .. | .zremProcessing _ | .getJob _ | .updateJobAttempts ..
  | .createDeadLetterJob .. => true
  | _ => false

theorem Command.isBookkeeping_of_isMarking {q : Command} (hq : q.isMarking = true) : q.isBookkeeping = true := by
  cases q <;> first | rfl | cases hq

section Books

variable {S : Command → Prop} (hS : ∀ q, q.isBackground = true → q.writesStrings = false → S q)

include hS

section Marks

variable (hmark : ∀ q, q.isMarking = true → S q)

include hmark

theorem markFailed_marks (j : Uuid) (error : String)
    (hstatus : S (.updateJobStatus j EmailJobStatus.failed.asStr (some error))) : (markFailed j error).Uses S := by
  have hremove := removeFromProcessing_uses hS j fun _ => hmark _ rfl
  refine Prog.Uses.bind (Prog.uses_call.mpr (hmark _ rfl)) fun row => ?_
  cases row with
  | none => exact Prog.uses_pure _
  | some job =>
      dsimp only
      split
      · refine Prog.Uses.bind (Prog.uses_call.mpr (hS _ rfl rfl)) fun now => ?_
        refine Prog.Uses.bind (Prog.uses_call.mpr (hmark _ rfl)) fun _ => ?_
        refine Prog.Uses.bind (getConnection_uses hS) fun _ => ?_
        exact Prog.Uses.bind (Prog.Uses.mapError (Prog.uses_call.mpr (hmark _ rfl)) _) fun _ => hremove
      · refine Prog.Uses.bind (Prog.uses_call.mpr hstatus) fun _ => ?_
        refine Prog.Uses.bind (getConnection_uses hS) fun _ => ?_
        refine Prog.Uses.bind (Prog.uses_call.mpr (hS _ rfl rfl)) fun failedAt => ?_
        refine Prog.Uses.bind (Prog.Uses.mapError (Prog.uses_call.mpr (hmark _ rfl)) _) fun _ => ?_
        exact Prog.Uses.bind (Prog.Uses.attempt (Prog.uses_call.mpr (hmark _ rfl))) fun _ => hremove

theorem markCompleted_marks (j : Uuid) (messageId : Option String)
    (hstatus : S (.updateJobStatus j EmailJobStatus.completed.asStr none))
    (hevent : ∀ event, S (.createEvent event)) : (markCompleted j messageId).Uses S := by
  refine Prog.Uses.bind (Prog.uses_call.mpr hstatus) fun _ => ?_
  refine Prog.Uses.bind (removeFromProcessing_uses hS j fun _ => hmark _ rfl) fun _ => ?_
  cases messageId with
  | none => exact Prog.uses_pure _
  | some msgId =>
      refine Prog.Uses.bind (recipientForEvent_uses (fun _ => hmark _ rfl) j) fun recipient => ?_
      exact Prog.uses_call.mpr (hevent _)

end Marks

theorem dequeue_uses (hpop : S (.zpopmin .queue)) (hput : ∀ member score, S (.zaddProcessing member score))
    (workerId : Uuid) : (dequeue workerId).Uses S := by
  refine Prog.Uses.bind (getConnection_uses hS) fun _ => ?_
  refine Prog.Uses.bind (Prog.Uses.mapError (Prog.uses_call.mpr hpop) _) fun popped => ?_
  rcases popped with _ | ⟨id, score⟩
  · exact Prog.uses_pure _
  · refine Prog.Uses.bind (Prog.uses_call.mpr (hS _ rfl rfl)) fun now => ?_
    exact Prog.Uses.bind (Prog.Uses.mapError (Prog.uses_call.mpr (hput _ _)) _) fun _ => Prog.uses_pure _

variable (hbook : ∀ q, q.isBookkeeping = true → S q)

include hbook

theorem enqueue_uses (jobType : EmailJobType) (recipient templateName : String)
    (templateData : Value) (priority : Int) :
    (enqueue jobType recipient templateName templateData priority).Uses S := by
  refine Prog.Uses.bind (Prog.uses_call.mpr (hbook _ rfl)) fun id => ?_
  have hput : ∀ score : Int, (do
      getConnection
      withContext (request (.zadd .queue id score)) "Failed to add job to queue"
      return id : EmailM Uuid).Uses S := by
    intro score
    refine Prog.Uses.bind (getConnection_uses hS) fun _ => ?_
    exact Prog.Uses.bind (Prog.Uses.mapError (Prog.uses_call.mpr (hbook _ rfl)) _) fun _ => Prog.uses_pure _
  dsimp only
  split
  · exact hput (-priority)
  · exact Prog.Uses.bind (Prog.uses_call.mpr (hS _ rfl rfl)) hput

theorem requeueDeadLetter_uses (j : Uuid) (hstatus : S (.updateJobStatus j EmailJobStatus.pending.asStr none)) :
    (requeueDeadLetter j).Uses S := by
  refine Prog.Uses.bind (getConnection_uses hS) fun _ => ?_
  refine Prog.Uses.bind (Prog.Uses.mapError (Prog.uses_call.mpr (hbook _ rfl)) _) fun removed => ?_
  split
  · exact Prog.uses_pure _
  · refine Prog.Uses.bind (Prog.uses_call.mpr (hbook _ rfl)) fun _ => ?_
    refine Prog.Uses.bind (Prog.uses_call.mpr hstatus) fun _ => ?_
    refine Prog.Uses.bind (Prog.uses_call.mpr (hS _ rfl rfl)) fun now => ?_
    refine Prog.Uses.bind (Prog.Uses.mapError (Prog.uses_call.mpr (hbook _ rfl)) _) fun _ => ?_
    exact Prog.Uses.bind (Prog.Uses.attempt (Prog.uses_call.mpr (hbook _ rfl))) fun _ => Prog.uses_pure _

theorem markFailed_uses (j : Uuid) (error : String)
    (hstatus : S (.updateJobStatus j EmailJobStatus.failed.asStr (some error))) : (markFailed j error).Uses S :=
  markFailed_marks hS (fun q hq => hbook q (Command.isBookkeeping_of_isMarking hq)) j error hstatus

theorem markCompleted_uses (j : Uuid) (messageId : Option String)
    (hstatus : S (.updateJobStatus j EmailJobStatus.completed.asStr none))
    (hevent : ∀ event, S (.createEvent event)) : (markCompleted j messageId).Uses S :=
  markCompleted_marks hS (fun q hq => hbook q (Command.isBookkeeping_of_isMarking hq)) j messageId hstatus hevent

end Books

/-! ## §7. A small deployment. -/

def sampleCrates : Crates where
  hmacSha256Hex _ message := message
  validateEmail address := address.toList.contains '@'
  handlebars templateName data := .ok (templateName ++ ": " ++ data)
  getStr _ _ := none
  statusText status := toString status

def sampleService : EmailService where
  crates := sampleCrates
  config := ⟨some "key", some "from@example.com", 10⟩
  cache := some 3
  idempotencyTtl := 86400
  idempotencySecret := "secret"

def sampleJobId : Uuid := ⟨"11111111-1111-4111-8111-111111111111", by decide +kernel⟩

def sampleApiId : Uuid := ⟨"33333333-3333-4333-8333-333333333333", by decide +kernel⟩

def sampleWorkerId : Uuid := ⟨"22222222-2222-4222-8222-222222222222", by decide +kernel⟩

/-- SendGrid accepts, and a new row gets the given id. -/
def sampleChoice (id : Uuid) : Choice := ⟨id, ⟨202, some "message-1"⟩, true⟩

/-- An API request that enqueues a job for `user@example.com`, to its end. -/
def sampleEnqueue (id : Uuid) (data : Value) : List Action :=
  .start sampleApiId (.enqueue .welcomeEmail "user@example.com" "welcome_email" data 1)
    :: List.replicate 4 (.answer sampleApiId (sampleChoice id))

/-- SendGrid is down. -/
def sampleOutage : Choice := ⟨sampleJobId, ⟨500, none⟩, true⟩

/-- An enqueue to its end, a worker's turn while SendGrid is down, and its retry
two minutes later, while SendGrid is still down. -/
def sampleRetry : List Action :=
  sampleEnqueue sampleJobId "data"
    ++ .start sampleWorkerId .workerTurn
      :: List.replicate 36 (.answer sampleWorkerId sampleOutage)
    ++ .outside (.tick 120) :: .start sampleWorkerId .workerTurn
      :: List.replicate 31 (.answer sampleWorkerId sampleOutage)

end PredictIQ.Email
