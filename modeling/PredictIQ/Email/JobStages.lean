/-
  PredictIQ.Email.JobStages: what each program does with the job it takes.

  A process of the queue has no job, holds one, or has put it down.
  `custodyMonitor` reads the stage off the answers the process has had, and
  `body_obeys` says that every program takes a job only when it has none and
  rewrites the status of its own job only.
-/
import PredictIQ.Email.Queue
import PredictIQ.Foundation.Custody

namespace PredictIQ.Email

open Foundation

/-! ## §1. Who holds a job. -/

/-- The commands that take a job, put it down or settle it. -/
def Command.movesJob : Command → Bool
  | .createJob .. | .zadd .. | .zpopmin _ | .zrem .. | .updateJobStatus .. => true
  | _ => false

/-- How an answer moves a process between holding a job and having put it down.
A process takes a job with its row, by `ZPOPMIN` or by `ZREM`; it puts the job
down by a `ZADD` to one of the job sets, or by completing its row. -/
def nextStage : Stage Uuid → (q : Command) → Except String (Reply q) → Stage Uuid
  | .free, .createJob .., .ok id => .holding id
  | .free, .zpopmin _, .ok (some (id, _)) => .holding id
  | .free, .zrem _ id, .ok removed => if removed = 0 then .free else .holding id
  | .holding j, .zadd _ id _, .ok _ => if id = j then .placed j else .holding j
  | .holding j, .updateJobStatus id status _, .ok _ =>
      if id = j ∧ status = EmailJobStatus.completed.asStr then .placed j else .holding j
  | .placed j, .updateJobStatus id status _, r =>
      if id = j then
        match r with
        | .ok _ => if status = EmailJobStatus.completed.asStr then .placed j else .holding j
        | .error _ => .holding j
      else .placed j
  | stage, _, _ => stage

/-- A process takes a job only when it has none, and rewrites the status of its
own job only. -/
def stageAllows : Stage Uuid → Command → Prop
  | stage, .createJob .. => stage = .free
  | stage, .zpopmin _ => stage = .free
  | stage, .zrem .. => stage = .free
  | stage, .updateJobStatus id _ _ => stage = .holding id ∨ stage = .placed id
  | _, _ => True

def custodyMonitor : Monitor Reply String (Stage Uuid) := ⟨.free, nextStage, stageAllows⟩

/-- The other commands neither need nor change a stage. -/
theorem stage_quiet {q : Command} (hq : q.movesJob = false) (stage : Stage Uuid) :
    custodyMonitor.allows stage q ∧ ∀ r, custodyMonitor.next stage q r = stage := by
  cases q <;> cases hq
  all_goals
    refine ⟨by cases stage <;> trivial, fun r => ?_⟩
    cases stage <;> cases r <;> rfl

theorem quiet_of_background {q : Command} (hq : q.isBackground = true) : q.movesJob = false := by
  cases q <;> first | rfl | cases hq

/-! ## §2. What each program does with its job. -/

section Programs

open Monitor

variable {post : Stage Uuid → Except String Unit → Prop}

/-- The process still has the job. -/
def Has (j : Uuid) (stage : Stage Uuid) : Prop := stage = .holding j ∨ stage = .placed j

variable {stage : Stage Uuid} {j : Uuid}

theorem next_completed (h : Has j stage) (e : Option String) (u : Unit) :
    custodyMonitor.next stage (.updateJobStatus j EmailJobStatus.completed.asStr e) (.ok u)
      = .placed j := by
  rcases h with rfl | rfl <;> simp [custodyMonitor, nextStage]

theorem has_next_status (h : Has j stage) (status : String) (e : Option String)
    (r : Except String Unit) : Has j (custodyMonitor.next stage (.updateJobStatus j status e) r) := by
  rcases h with rfl | rfl <;> cases r <;> simp [custodyMonitor, nextStage, Has] <;> tauto

theorem next_zadd (h : Has j stage) (key : JobSet) (score : Int) (u : Unit) :
    custodyMonitor.next stage (.zadd key j score) (.ok u) = .placed j := by
  rcases h with rfl | rfl <;> simp [custodyMonitor, nextStage]

theorem getConnection_then {α : Type} {post : Stage Uuid → Except String α → Prop}
    {f : Unit → EmailM α}
    (hok : ∀ u, custodyMonitor.Obeys post stage (f u)) (herr : ∀ e, post stage (.error e)) :
    custodyMonitor.Obeys post stage (getConnection >>= f) :=
  obeys_bind_of_uses (getConnection_uses fun _ hq _ => quiet_of_background hq)
    (fun _ hq => stage_quiet hq _) hok herr

theorem removeFromProcessing_then {f : Unit → EmailM Unit}
    {post : Stage Uuid → Except String Unit → Prop}
    (hok : ∀ u, custodyMonitor.Obeys post stage (f u)) (herr : ∀ e, post stage (.error e)) :
    custodyMonitor.Obeys post stage (removeFromProcessing j >>= f) :=
  obeys_bind_of_uses (removeFromProcessing_uses (fun _ hq _ => quiet_of_background hq) j fun _ => rfl)
    (fun _ hq => stage_quiet hq _) hok herr

theorem markCompleted_obeys (h : Has j stage) (messageId : Option String) :
    custodyMonitor.Obeys (fun stage _ => Has j stage) stage (markCompleted j messageId) := by
  refine obeys_call_bind.mpr ⟨h, fun u => ?_, fun e => has_next_status h _ _ _⟩
  rw [next_completed h]
  refine removeFromProcessing_then (fun _ => ?_) fun e => .inr rfl
  -- the job is put down, and what is left is the event
  cases messageId with
  | none => exact .inr rfl
  | some msgId =>
      exact obeys_bind_of_uses (S := fun q => q.movesJob = false)
        (recipientForEvent_uses (fun _ => rfl) j) (fun _ hq => stage_quiet hq _)
        (fun recipient => ⟨(stage_quiet rfl _).1, fun r => .inr ((stage_quiet rfl _).2 r)⟩)
        fun _ => .inr rfl

/-- A program that ends by clearing the processing set. -/
theorem removeFromProcessing_ends (j : Uuid) :
    custodyMonitor.Obeys (fun _ _ => True) stage (removeFromProcessing j) :=
  obeys_of_uses (removeFromProcessing_uses (fun _ hq _ => quiet_of_background hq) j fun _ => rfl)
    (fun _ hq => stage_quiet hq _) fun _ => trivial

theorem markFailed_obeys (h : Has j stage) (error : String) :
    custodyMonitor.Obeys (fun _ _ => True) stage (markFailed j error) := by
  refine obeys_call_bind.mpr ⟨(stage_quiet rfl _).1, fun job => ?_, fun e => trivial⟩
  rw [(stage_quiet rfl stage).2]
  cases job with
  | none => trivial
  | some job =>
      dsimp only
      split
      · -- a retry: the job is put down by the `ZADD` to `email:retry`
        refine obeys_call_bind.mpr ⟨(stage_quiet rfl _).1, fun now => ?_, fun e => trivial⟩
        rw [(stage_quiet rfl stage).2]
        refine obeys_call_bind.mpr ⟨(stage_quiet rfl _).1, fun _ => ?_, fun e => trivial⟩
        rw [(stage_quiet rfl stage).2]
        refine getConnection_then (fun _ => ?_) fun e => trivial
        refine obeys_mapError_call_bind.mpr ⟨trivial, fun _ => ?_, fun e => trivial⟩
        rw [next_zadd h]
        exact removeFromProcessing_ends j
      · -- out of attempts: by the `ZADD` to `email:dead_letter`
        refine obeys_call_bind.mpr ⟨h, fun u => ?_, fun e => trivial⟩
        have hhas := has_next_status h EmailJobStatus.failed.asStr (some error) (.ok u)
        generalize custodyMonitor.next stage _ (.ok u) = stage at hhas ⊢
        refine getConnection_then (fun _ => ?_) fun e => trivial
        refine obeys_call_bind.mpr ⟨(stage_quiet rfl _).1, fun failedAt => ?_, fun e => trivial⟩
        rw [(stage_quiet rfl stage).2]
        refine obeys_mapError_call_bind.mpr ⟨trivial, fun _ => ?_, fun e => trivial⟩
        rw [next_zadd hhas]
        refine obeys_bind_of_uses (S := fun q => q.movesJob = false)
          (Prog.Uses.attempt (Prog.uses_call.mpr rfl)) (fun _ hq => stage_quiet hq _) (fun _ => ?_)
          fun e => trivial
        exact removeFromProcessing_ends j

theorem enqueue_obeys (jobType : EmailJobType) (recipient templateName : String)
    (templateData : Value) (priority : Int) :
    custodyMonitor.Obeys (fun _ _ => True) .free
      (enqueue jobType recipient templateName templateData priority) := by
  refine obeys_call_bind.mpr ⟨rfl, fun id => ?_, fun e => trivial⟩
  -- whichever way the score was come by, the job goes to `email:queue` next
  have hput : ∀ score : Int, custodyMonitor.Obeys (fun _ _ => True) (.holding id) (do
      getConnection
      withContext (request (.zadd .queue id score)) "Failed to add job to queue"
      return id) := by
    intro score
    refine getConnection_then (fun _ => ?_) fun e => trivial
    exact obeys_mapError_call_bind.mpr ⟨trivial, fun _ => trivial, fun e => trivial⟩
  dsimp only
  split
  · exact hput (-priority)
  · exact obeys_call_bind.mpr ⟨trivial, fun now => hput now, fun e => trivial⟩

/-- A dequeue that returns a job leaves the process holding it. -/
theorem dequeue_obeys (workerId : Uuid) :
    custodyMonitor.Obeys (fun stage r => ∀ j, r = .ok (some j) → stage = .holding j) .free
      (dequeue workerId) := by
  refine getConnection_then (fun _ => ?_) fun e => by simp
  refine obeys_mapError_call_bind.mpr ⟨rfl, fun popped => ?_, fun e => by simp⟩
  rcases popped with _ | ⟨j, score⟩
  · simp
  · refine obeys_call_bind.mpr ⟨trivial, fun now => ?_, fun e => by simp⟩
    refine obeys_mapError_call_bind.mpr ⟨trivial, fun _ => ?_, fun e => by simp⟩
    rintro j' h
    cases h
    rfl

theorem requeueDeadLetter_obeys (j : Uuid) :
    custodyMonitor.Obeys (fun _ _ => True) .free (requeueDeadLetter j) := by
  refine getConnection_then (fun _ => ?_) fun e => trivial
  refine obeys_mapError_call_bind.mpr ⟨rfl, fun removed => ?_, fun e => trivial⟩
  by_cases hremoved : removed = 0
  · rw [if_pos hremoved]
    trivial
  · rw [if_neg hremoved]
    have hnext : custodyMonitor.next .free (.zrem .deadLetter j) (.ok removed) = .holding j :=
      if_neg hremoved
    rw [hnext]
    refine obeys_call_bind.mpr ⟨trivial, fun _ => ?_, fun e => trivial⟩
    refine obeys_call_bind.mpr ⟨.inl rfl, fun u => ?_, fun e => trivial⟩
    have hhas := has_next_status (.inl rfl) EmailJobStatus.pending.asStr none (.ok u) (j := j)
    refine obeys_call_bind.mpr ⟨(stage_quiet rfl _).1, fun now => ?_, fun e => trivial⟩
    refine obeys_mapError_call_bind.mpr ⟨trivial, fun _ => ?_, fun e => trivial⟩
    exact obeys_bind_of_uses (S := fun q => q.movesJob = false)
      (Prog.Uses.attempt (Prog.uses_call.mpr rfl)) (fun _ hq => stage_quiet hq _)
      (fun _ => trivial) fun e => trivial

theorem processJob_obeys (svc : EmailService) (j : Uuid) :
    custodyMonitor.Obeys (fun stage _ => Has j stage) (.holding j) (processJob svc j) := by
  refine obeys_call_bind.mpr ⟨trivial, fun row => ?_, fun e => .inl rfl⟩
  cases row with
  | none => exact .inl rfl
  | some job =>
      refine obeys_call_bind.mpr ⟨trivial, fun suppressed => ?_, fun e => .inl rfl⟩
      split
      · exact markCompleted_obeys (.inl rfl) none
      · refine obeys_call_bind.mpr ⟨.inl rfl, fun u => ?_, fun e => has_next_status (.inl rfl) _ _ _⟩
        have hhas := has_next_status (.inl rfl) EmailJobStatus.processing.asStr none (.ok u) (j := j)
        refine obeys_bind_of_uses ?_ (fun _ hq => stage_quiet hq _)
          (fun messageId => markCompleted_obeys hhas (some messageId)) fun e => hhas
        exact svc.sendEmailIdempotent_uses (fun _ hq _ => quiet_of_background hq) (fun _ => rfl) (fun _ _ => rfl)
          (fun _ => rfl) _ _ _ _

theorem workerTurn_obeys (svc : EmailService) (workerId : Uuid) :
    custodyMonitor.Obeys (fun _ _ => True) .free (workerTurn svc workerId) := by
  refine obeys_bind_of_uses (updateWorkerHeartbeat_uses (fun _ hq _ => quiet_of_background hq) _ fun _ => rfl).attempt
    (fun _ hq => stage_quiet hq _) (fun _ => ?_) fun e => trivial
  refine obeys_bind_of_uses (processRetries_uses fun _ hq _ => quiet_of_background hq).attempt
    (fun _ hq => stage_quiet hq _) (fun _ => ?_) fun e => trivial
  refine obeys_bind.mpr (obeys_attempt.mpr ((dequeue_obeys workerId).mono ?_))
  rintro stage (e | _ | j) hdequeued
  · trivial
  · trivial
  · obtain rfl := hdequeued j rfl
    refine obeys_bind.mpr (obeys_attempt.mpr ((processJob_obeys svc j).mono ?_))
    rintro stage (e | u) hhas
    · refine obeys_bind.mpr (obeys_attempt.mpr ((markFailed_obeys hhas e).mono ?_))
      exact fun _ _ _ => trivial
    · trivial

/-- **Every program keeps to the discipline of its stages.** -/
theorem body_obeys (svc : EmailService) (pid : Uuid) (task : Task) :
    custodyMonitor.Obeys (fun _ _ => True) custodyMonitor.start (body svc pid task) := by
  cases task with
  | enqueue jobType recipient templateName templateData priority =>
      refine obeys_bind.mpr ((enqueue_obeys ..).mono ?_)
      rintro stage (e | id) _ <;> trivial
  | requeueDeadLetter j =>
      refine obeys_bind.mpr ((requeueDeadLetter_obeys j).mono ?_)
      rintro stage (e | b) _ <;> trivial
  | workerStartup order staleThresholdSecs =>
      exact obeys_bind_of_uses
        (recoverOrphanedJobs_uses (fun _ hq _ => quiet_of_background hq) order staleThresholdSecs).attempt
        (fun _ hq => stage_quiet hq _) (fun _ => trivial) fun e => trivial
  | workerTurn => exact workerTurn_obeys svc pid

end Programs

end PredictIQ.Email
