/-
  PredictIQ.Email.QueueOrder: the order in which jobs leave the queue.

  The score of a queued job stands for its priority, where it was enqueued with
  a positive one, and for a second from which on it may be taken otherwise;
  `dequeue` takes the lowest score.  What is said here is about the operations
  of the queue one by one, started by anyone with any arguments and interleaved
  command by command.
-/
import PredictIQ.Email.SingleSend
import PredictIQ.Email.OrphanRecovery
import PredictIQ.Foundation.TaskHistory

namespace PredictIQ.QueueOrder

open Foundation
open Email hiding System Action Task body

/-! ## §1. The operations. -/

inductive Operation where
  | enqueue (jobType : EmailJobType) (recipient templateName : String) (templateData : Value) (priority : Int)
  | dequeue (workerId : Uuid)
  | markCompleted (jobId : Uuid) (messageId : Option String)
  | markFailed (jobId : Uuid) (error : String)
  | processRetries
  | requeueDeadLetter (jobId : Uuid)
  | recoverOrphanedJobs (order : HashOrder) (staleThresholdSecs : Nat)
  | updateWorkerHeartbeat (workerId : Uuid)

def body : Operation → EmailM Unit
  | .enqueue jobType recipient templateName templateData priority => do
      let _ ← Email.enqueue jobType recipient templateName templateData priority
  | .dequeue workerId => do
      let _ ← Email.dequeue workerId
  | .markCompleted jobId messageId => Email.markCompleted jobId messageId
  | .markFailed jobId error => Email.markFailed jobId error
  | .processRetries => do
      let _ ← Email.processRetries
  | .requeueDeadLetter jobId => do
      let _ ← Email.requeueDeadLetter jobId
  | .recoverOrphanedJobs order staleThresholdSecs => do
      let _ ← Email.recoverOrphanedJobs order staleThresholdSecs
  | .updateWorkerHeartbeat workerId => Email.updateWorkerHeartbeat workerId

/-- Any processes on one backend. -/
abbrev System : Type := Machine Uuid Reply String Backend

abbrev Action : Type := Act Uuid Operation String Choice Outside

def System.step : System → Action → System := Machine.step server (fun _ => body) outside

/-- The commands that a run has carried out. -/
def carriedOut (b : Backend) (as : List Action) : List Command :=
  (trace System.step (Machine.idle b) as).filterMap fun t => t.pre.performs t.act

/-! ## §2. A dequeue in turn. -/

/-- The action takes job `j` out of the queue. -/
def Takes (m : System) (a : Action) (j : Uuid) : Prop :=
  m.performs a = some (.zpopmin .queue) ∧ (m.store.redis.jobs .queue).zrange.head? = some j

/-- The score that a command gives a single job in the queue: `requeue_dead_letter`
gives a time to come. -/
def schedules : Command → List (Int × Uuid)
  | .zadd .queue job score => [(score, job)]
  | _ => []

/-- The command gives the job a retry time. -/
def setsRetry (j : Uuid) : Command → Bool
  | .zadd .retry id _ => id == j
  | _ => false

/-- After the commands `past`, job `j` may leave the queue. -/
structure InTurn (past : List Command) (b : Backend) (j : Uuid) : Prop where
  cooled : ∀ q ∈ past, ∀ x ∈ schedules q, x.2 = j → x.1 ≤ b.now
  retried : ∀ s, LastWhere (setsRetry j) past (.zadd .retry j s) → s ≤ b.now
  /-- No job that is queued and due has a greater priority. -/
  first : ∀ row ∈ b.db.jobs.lookup j, ∀ e ∈ (b.redis.jobs .queue).entries, (ofLex e).1 ≤ b.now →
    ∀ other ∈ b.db.jobs.lookup (ofLex e).2, other.priority ≤ max row.priority 0

/-! ## §3. Where it can go wrong. -/

/-- What a command puts into the queue. -/
def puts : Command → List (Int × Uuid)
  | .zadd .queue job score => [(score, job)]
  | .moveRetries now jobs => jobs.map fun j => (now, j)
  | .recoverJobs now jobs => jobs.map fun j => (now, j)
  | _ => []

/-- A job may be put into the queue: it has no later retry time, it is not
queued for a later time that is given up, and it is not one with a positive
priority that is given a time. -/
structure Fits (b : Backend) (x : Int × Uuid) : Prop where
  retry : ∀ e ∈ (b.redis.jobs .retry).entries, (ofLex e).2 = x.2 → (ofLex e).1 ≤ b.now
  cooling : ∀ e ∈ (b.redis.jobs .queue).entries, (ofLex e).2 = x.2 → b.now < (ofLex e).1 → (ofLex e).1 ≤ x.1
  priority : 0 ≤ x.1 → ∃ row ∈ b.db.jobs.lookup x.2, row.priority ≤ 0

instance (b : Backend) (x : Int × Uuid) : Decidable (Fits b x) :=
  decidable_of_iff
    ((∀ e ∈ (b.redis.jobs .retry).entries, (ofLex e).2 = x.2 → (ofLex e).1 ≤ b.now)
      ∧ (∀ e ∈ (b.redis.jobs .queue).entries, (ofLex e).2 = x.2 → b.now < (ofLex e).1 → (ofLex e).1 ≤ x.1)
      ∧ (0 ≤ x.1 → ∃ row ∈ b.db.jobs.lookup x.2, row.priority ≤ 0))
    ⟨fun h => ⟨h.1, h.2.1, h.2.2⟩, fun h => ⟨h.retry, h.cooling, h.priority⟩⟩

/-- The retry times that a command gives. -/
def retryTimes : Command → List (Int × Uuid)
  | .zadd .retry job score => [(score, job)]
  | _ => []

def takesFromQueue : Command → Bool
  | .zpopmin .queue => true
  | _ => false

/-- A command keeps the order: where it takes a job, some job is due; a job that
it gives a later retry time is not queued; and what it puts into the queue fits. -/
structure Orderly (b : Backend) (q : Command) : Prop where
  takes : takesFromQueue q = true →
    (b.redis.jobs .queue).entries = [] ∨ ∃ e ∈ (b.redis.jobs .queue).entries, (ofLex e).1 ≤ b.now
  retries : ∀ x ∈ retryTimes q, b.now < x.1 → x.2 ∉ b.redis.jobs .queue
  puts : ∀ x ∈ puts q, Fits b x

instance (b : Backend) (q : Command) : Decidable (Orderly b q) :=
  decidable_of_iff
    ((takesFromQueue q = true →
        (b.redis.jobs .queue).entries = [] ∨ ∃ e ∈ (b.redis.jobs .queue).entries, (ofLex e).1 ≤ b.now)
      ∧ (∀ x ∈ retryTimes q, b.now < x.1 → x.2 ∉ b.redis.jobs .queue) ∧ ∀ x ∈ puts q, Fits b x)
    ⟨fun h => ⟨h.1, h.2.1, h.2.2⟩, fun h => ⟨h.takes, h.retries, h.puts⟩⟩

/-! ## §4. What the operations ask. -/

/-- What a process has heard: the clock, and the job it has created with its priority. -/
structure Heard where
  clock : Int
  created : Option (Uuid × Int)

def Heard.next : Heard → (q : Command) → Except String (Reply q) → Heard
  | φ, .utcNow, .ok now => { φ with clock := now }
  | φ, .createJob _ _ _ _ priority, .ok id => { φ with created := some (id, priority) }
  | φ, _, _ => φ

/-- A process puts its own job into the queue with the score of a positive
priority, and any job with a time. -/
def Heard.allows (φ : Heard) : Command → Prop
  | .zadd .queue job score =>
      (∃ priority, φ.created = some (job, priority) ∧ 0 < priority ∧ score = -priority) ∨ φ.clock ≤ score
  | .moveRetries now _ => φ.clock ≤ now
  | .recoverJobs now _ => φ.clock ≤ now
  | .zpopmin key => key = .queue
  | .zrem key _ => key = .deadLetter
  | _ => True

def orderMonitor : Monitor Reply String Heard := ⟨⟨0, none⟩, Heard.next, Heard.allows⟩

section Programs

open Monitor

variable {φ : Heard}

theorem getConnection_then {α : Type} {post : Heard → Except String α → Prop} {f : Unit → EmailM α}
    (hok : ∀ u, orderMonitor.Obeys post φ (f u)) (herr : ∀ e, post φ (.error e)) :
    orderMonitor.Obeys post φ (getConnection >>= f) := by
  rw [obeys_bind]
  unfold getConnection
  refine obeys_call_bind.mpr ⟨trivial, fun closed => ?_, herr⟩
  split
  · refine obeys_mapError.mpr (obeys_call.mpr ⟨trivial, ?_⟩)
    rintro (e | u)
    · exact herr _
    · exact hok u
  · exact herr _

theorem removeFromProcessing_obeys (j : Uuid) :
    orderMonitor.Obeys (fun _ _ => True) φ (removeFromProcessing j) := by
  refine getConnection_then (fun _ => ?_) fun e => trivial
  refine obeys_mapError_call_bind.mpr ⟨trivial, fun members => ?_, fun e => trivial⟩
  split
  · exact obeys_mapError.mpr (obeys_call.mpr ⟨trivial, fun _ => trivial⟩)
  · trivial

theorem markFailed_obeys (j : Uuid) (error : String) :
    orderMonitor.Obeys (fun _ _ => True) φ (Email.markFailed j error) := by
  refine obeys_call_bind.mpr ⟨trivial, fun row => ?_, fun e => trivial⟩
  cases row with
  | none => trivial
  | some job =>
      dsimp only
      split
      · refine obeys_call_bind.mpr ⟨trivial, fun now => ?_, fun e => trivial⟩
        refine obeys_call_bind.mpr ⟨trivial, fun _ => ?_, fun e => trivial⟩
        refine getConnection_then (fun _ => ?_) fun e => trivial
        refine obeys_mapError_call_bind.mpr ⟨trivial, fun _ => ?_, fun e => trivial⟩
        exact removeFromProcessing_obeys j
      · refine obeys_call_bind.mpr ⟨trivial, fun _ => ?_, fun e => trivial⟩
        refine getConnection_then (fun _ => ?_) fun e => trivial
        refine obeys_call_bind.mpr ⟨trivial, fun failedAt => ?_, fun e => trivial⟩
        refine obeys_mapError_call_bind.mpr ⟨trivial, fun _ => ?_, fun e => trivial⟩
        refine obeys_bind.mpr (obeys_attempt.mpr (obeys_call.mpr ⟨trivial, fun _ => ?_⟩))
        exact removeFromProcessing_obeys j

theorem markCompleted_obeys (j : Uuid) (messageId : Option String) :
    orderMonitor.Obeys (fun _ _ => True) φ (Email.markCompleted j messageId) := by
  refine obeys_call_bind.mpr ⟨trivial, fun _ => ?_, fun e => trivial⟩
  refine obeys_bind.mpr ((removeFromProcessing_obeys j).mono ?_)
  rintro φ (e | _) -
  · trivial
  cases messageId with
  | none => trivial
  | some msgId =>
      refine obeys_bind.mpr (obeys_bind.mpr (obeys_attempt.mpr (obeys_call.mpr ⟨trivial, fun row => ?_⟩)))
      rcases row with e | _ | row <;> exact obeys_call.mpr ⟨trivial, fun _ => trivial⟩

theorem dequeue_obeys (workerId : Uuid) : orderMonitor.Obeys (fun _ _ => True) φ (Email.dequeue workerId) := by
  refine getConnection_then (fun _ => ?_) fun e => trivial
  refine obeys_mapError_call_bind.mpr ⟨rfl, fun popped => ?_, fun e => trivial⟩
  rcases popped with _ | ⟨j, score⟩
  · trivial
  · refine obeys_call_bind.mpr ⟨trivial, fun now => ?_, fun e => trivial⟩
    exact obeys_mapError_call_bind.mpr ⟨trivial, fun _ => trivial, fun e => trivial⟩

/-- **`enqueue`** scores its own job by a positive priority, or by the clock. -/
theorem enqueue_obeys (jobType : EmailJobType) (recipient templateName : String) (templateData : Value)
    (priority : Int) : orderMonitor.Obeys (fun _ _ => True) φ
      (Email.enqueue jobType recipient templateName templateData priority) := by
  refine obeys_call_bind.mpr ⟨trivial, fun id => ?_, fun e => trivial⟩
  have hput : ∀ (φ : Heard) (score : Int), φ.allows (.zadd .queue id score) →
      orderMonitor.Obeys (fun _ _ => True) φ (do
        getConnection
        withContext (request (.zadd .queue id score)) "Failed to add job to queue"
        return id) := by
    intro φ score hallows
    refine getConnection_then (fun _ => ?_) fun e => trivial
    exact obeys_mapError_call_bind.mpr ⟨hallows, fun _ => trivial, fun e => trivial⟩
  dsimp only
  split
  · exact hput _ (-priority) (.inl ⟨priority, rfl, ‹_›, rfl⟩)
  · refine obeys_call_bind.mpr ⟨trivial, fun now => ?_, fun e => trivial⟩
    exact hput _ now (.inr le_rfl)

theorem processRetries_obeys : orderMonitor.Obeys (fun _ _ => True) φ Email.processRetries := by
  refine getConnection_then (fun _ => ?_) fun e => trivial
  refine obeys_call_bind.mpr ⟨trivial, fun now => ?_, fun e => trivial⟩
  refine obeys_mapError_call_bind.mpr ⟨trivial, fun jobs => ?_, fun e => trivial⟩
  split
  · trivial
  · exact obeys_mapError.mpr (obeys_call.mpr ⟨le_refl now, fun _ => trivial⟩)

theorem requeueDeadLetter_obeys (j : Uuid) :
    orderMonitor.Obeys (fun _ _ => True) φ (Email.requeueDeadLetter j) := by
  refine getConnection_then (fun _ => ?_) fun e => trivial
  refine obeys_mapError_call_bind.mpr ⟨rfl, fun removed => ?_, fun e => trivial⟩
  split
  · trivial
  · refine obeys_call_bind.mpr ⟨trivial, fun _ => ?_, fun e => trivial⟩
    refine obeys_call_bind.mpr ⟨trivial, fun _ => ?_, fun e => trivial⟩
    refine obeys_call_bind.mpr ⟨trivial, fun now => ?_, fun e => trivial⟩
    -- the cooling-off only adds to the clock
    have hlater : (now : Int) ≤ now + deadLetterRequeueDelaySecs := Int.le_add_of_nonneg_right (by decide)
    refine obeys_mapError_call_bind.mpr ⟨.inr hlater, fun _ => ?_, fun e => trivial⟩
    exact obeys_bind.mpr (obeys_attempt.mpr (obeys_call.mpr ⟨trivial, fun _ => trivial⟩))

theorem jobsOfDeadWorkers_then {α : Type} {post : Heard → Except String α → Prop} {f : List Uuid → EmailM α}
    (staleCutoff : Int) (groups : List (String × List Uuid)) (hok : ∀ jobs, orderMonitor.Obeys post φ (f jobs))
    (herr : ∀ e, post φ (.error e)) : orderMonitor.Obeys post φ (jobsOfDeadWorkers staleCutoff groups >>= f) := by
  rw [obeys_bind]
  have hall : orderMonitor.Obeys (fun φ' _ => φ' = φ) φ (jobsOfDeadWorkers staleCutoff groups) := by
    induction groups with
    | nil => rfl
    | cons g groups ih =>
        refine obeys_mapError_call_bind.mpr ⟨trivial, fun hb => ?_, fun e => rfl⟩
        refine obeys_bind.mpr (ih.mono ?_)
        rintro _ (e | others) rfl <;> rfl
  refine hall.mono ?_
  rintro _ (e | jobs) rfl
  · exact herr e
  · exact hok jobs

theorem recoverOrphanedJobs_obeys (order : HashOrder) (staleThresholdSecs : Nat) :
    orderMonitor.Obeys (fun _ _ => True) φ (Email.recoverOrphanedJobs order staleThresholdSecs) := by
  refine getConnection_then (fun _ => ?_) fun e => trivial
  refine obeys_call_bind.mpr ⟨trivial, fun now => ?_, fun e => trivial⟩
  refine obeys_mapError_call_bind.mpr ⟨trivial, fun entries => ?_, fun e => trivial⟩
  split
  · trivial
  · refine jobsOfDeadWorkers_then _ _ (fun jobs => ?_) fun e => trivial
    split
    · trivial
    · exact obeys_mapError.mpr (obeys_call.mpr ⟨le_refl now, fun _ => trivial⟩)

theorem updateWorkerHeartbeat_obeys (workerId : Uuid) :
    orderMonitor.Obeys (fun _ _ => True) φ (Email.updateWorkerHeartbeat workerId) := by
  refine getConnection_then (fun _ => ?_) fun e => trivial
  refine obeys_call_bind.mpr ⟨trivial, fun now => ?_, fun e => trivial⟩
  exact obeys_mapError.mpr (obeys_call.mpr ⟨trivial, fun _ => trivial⟩)

/-- **Every operation** asks only what its process may. -/
theorem body_obeys (op : Operation) : orderMonitor.Obeys (fun _ _ => True) orderMonitor.start (body op) := by
  have hignored : ∀ {α : Type} {p : EmailM α}, orderMonitor.Obeys (fun _ _ => True) orderMonitor.start p →
      orderMonitor.Obeys (fun _ _ => True) orderMonitor.start (do let _ ← p) := by
    intro α p hp
    refine obeys_bind.mpr (hp.mono ?_)
    rintro φ (e | a) - <;> trivial
  cases op with
  | enqueue => exact hignored (enqueue_obeys ..)
  | dequeue => exact hignored (dequeue_obeys _)
  | markCompleted => exact markCompleted_obeys ..
  | markFailed => exact markFailed_obeys ..
  | processRetries => exact hignored processRetries_obeys
  | requeueDeadLetter => exact hignored (requeueDeadLetter_obeys _)
  | recoverOrphanedJobs => exact hignored (recoverOrphanedJobs_obeys ..)
  | updateWorkerHeartbeat => exact updateWorkerHeartbeat_obeys _

end Programs

/-! ## §5. What a command does to the queue and to the retries. -/

section Sets

variable {c : Choice} {b b' : Backend} {q : Command} {e : Int ×ₗ Uuid} {φ : Heard}

/-- The other sets stay as they are. -/
theorem jobs_zpopmin {r : Redis} {key other : JobSet} (hkey : other ≠ key) :
    (r.zpopmin key).2.jobs other = r.jobs other := by
  unfold Redis.zpopmin
  split
  · rw [Redis.jobs_modify, if_neg hkey]
  · rfl

theorem jobs_zrem {r : Redis} {key other : JobSet} {j : Uuid} (hkey : other ≠ key) :
    (r.zrem key j).2.jobs other = r.jobs other := by
  unfold Redis.zrem
  split
  · rw [Redis.jobs_modify, if_neg hkey]
  · rfl

theorem mem_queue_moveRetry {now : Int} (r : Redis) (j : Uuid) : e ∈ ((r.moveRetry now j).jobs .queue).entries ↔
    e = toLex (now, j) ∨ e ∈ (r.jobs .queue).entries ∧ (ofLex e).2 ≠ j := by
  rw [Redis.moveRetry, Redis.jobs_modify, if_neg (by decide), Redis.jobs_modify, if_pos rfl]
  exact SortedSet.mem_entries_zadd

theorem mem_retry_moveRetries {now : Int} {jobs : List Uuid} {r : Redis} (he : e ∈ (r.jobs .retry).entries)
    (hj : (ofLex e).2 ∉ jobs) : e ∈ ((jobs.foldl (Redis.moveRetry now) r).jobs .retry).entries := by
  induction jobs generalizing r with
  | nil => exact he
  | cons j jobs ih =>
      rw [List.mem_cons, not_or] at hj
      refine ih ?_ hj.2
      rw [Redis.moveRetry, Redis.jobs_modify, if_pos rfl, Redis.jobs_modify, if_neg (by decide)]
      exact SortedSet.mem_entries_zrem.mpr ⟨he, hj.1⟩

theorem jobs_recoverJobs {now : Int} {jobs : List Uuid} {r : Redis} {key : JobSet} (hkey : key ≠ .queue) :
    (jobs.foldl (Redis.recoverJob now) r).jobs key = r.jobs key := by
  induction jobs generalizing r with
  | nil => rfl
  | cons j jobs ih =>
      rw [List.foldl_cons, ih, Redis.recoverJob, Redis.jobs_modify, if_neg hkey]

theorem mem_puts_map {now : Int} {jobs : List Uuid} : ofLex e ∈ jobs.map (fun j => (now, j)) ↔
    (ofLex e).2 ∈ jobs ∧ (ofLex e).1 = now := by
  rw [List.mem_map]
  constructor
  · rintro ⟨j, hj, he⟩
    rw [← he]
    exact ⟨hj, rfl⟩
  · rintro ⟨hj, rfl⟩
    exact ⟨_, hj, rfl⟩

/-- What a command leaves in the queue it has put there, or it was there; what
was there it takes out by a pop, or to put the job there anew. -/
structure QueueMoves (b : Backend) (q : Command) (b' : Backend) : Prop where
  origin : ∀ e ∈ (b'.redis.jobs .queue).entries, ofLex e ∈ puts q ∨ e ∈ (b.redis.jobs .queue).entries
  placed : ∀ x ∈ puts q, toLex x ∈ (b'.redis.jobs .queue).entries
  kept : ∀ e ∈ (b.redis.jobs .queue).entries, e ∈ (b'.redis.jobs .queue).entries
    ∨ (∃ s, (s, (ofLex e).2) ∈ puts q)
    ∨ takesFromQueue q = true ∧ (b.redis.jobs .queue).entries.head? = some e

theorem QueueMoves.of_same (hqueue : b'.redis.jobs .queue = b.redis.jobs .queue) (hputs : puts q = []) :
    QueueMoves b q b' := by
  refine ⟨fun e he => .inr (hqueue ▸ he), fun x hx => ?_, fun e he => .inl (hqueue.symm ▸ he)⟩
  rw [hputs] at hx
  cases hx

theorem QueueMoves.of_script {now : Int} {jobs : List Uuid} (hputs : puts q = jobs.map fun j => (now, j))
    (hqueue : ∀ e, e ∈ (b'.redis.jobs .queue).entries ↔
      (ofLex e).2 ∈ jobs ∧ (ofLex e).1 = now ∨ e ∈ (b.redis.jobs .queue).entries ∧ (ofLex e).2 ∉ jobs) :
    QueueMoves b q b' := by
  refine ⟨fun e he => ?_, fun x hx => ?_, fun e he => ?_⟩
  · rw [hputs]
    exact ((hqueue e).mp he).imp mem_puts_map.mpr And.left
  · rw [hputs] at hx
    exact (hqueue _).mpr (.inl (mem_puts_map.mp hx))
  · by_cases hj : (ofLex e).2 ∈ jobs
    · exact .inr (.inl ⟨now, by rw [hputs]; exact List.mem_map_of_mem hj⟩)
    · exact .inl ((hqueue e).mpr (.inr ⟨he, hj⟩))

theorem QueueMoves.of_pop {v : Option (Uuid × Int)} (hexec : exec c b (.zpopmin .queue) = some (v, b')) :
    QueueMoves b (.zpopmin .queue) b' := by
  have hb' : b'.redis = (b.redis.zpopmin .queue).2 := by
    cases hexec
    rfl
  unfold Redis.zpopmin at hb'
  cases hpop : (b.redis.jobs .queue).zpopmin with
  | none =>
      rw [hpop] at hb'
      exact .of_same (congrArg (·.jobs .queue) hb') rfl
  | some popped =>
      obtain ⟨first, rest⟩ := popped
      rw [hpop] at hb'
      have hentries := SortedSet.entries_of_zpopmin hpop
      have hrest : b'.redis.jobs .queue = rest := by
        rw [hb']
        exact (Redis.jobs_modify b.redis .queue .queue fun _ => rest).trans (if_pos rfl)
      refine ⟨fun e he => .inr ?_, fun x hx => absurd hx List.not_mem_nil, fun e he => ?_⟩
      · rw [hentries]
        exact List.mem_cons_of_mem _ (hrest ▸ he)
      · rcases List.mem_cons.mp (hentries ▸ he) with rfl | he
        · exact .inr (.inr ⟨rfl, by rw [hentries]; rfl⟩)
        · exact .inl (hrest.symm ▸ he)

/-- **One command.** -/
theorem queueMoves_of_exec {v : Reply q} (h : exec c b q = some (v, b')) (hq : φ.allows q) : QueueMoves b q b' := by
  cases q with
  | zadd key job score =>
      cases h
      by_cases hkey : key = .queue
      · subst hkey
        have hentries : ∀ e, e ∈ ((b.redis.modify .queue (·.zadd score job)).jobs .queue).entries ↔
            e = toLex (score, job) ∨ e ∈ (b.redis.jobs .queue).entries ∧ (ofLex e).2 ≠ job := by
          intro e
          rw [Redis.jobs_modify, if_pos rfl]
          exact SortedSet.mem_entries_zadd
        refine QueueMoves.of_script (show _ = [job].map _ from rfl) fun e => (hentries e).trans ?_
        rw [List.mem_singleton]
        exact or_congr_left ((Prod.ext_iff (x := ofLex e)).trans and_comm)
      · refine .of_same ?_ ?_
        · exact (Redis.jobs_modify b.redis key .queue (·.zadd score job)).trans (if_neg (Ne.symm hkey))
        · cases key <;> first | rfl | exact absurd rfl hkey
  | zpopmin key =>
      obtain rfl : key = .queue := hq
      exact .of_pop h
  | zrem key id =>
      obtain rfl : key = .deadLetter := hq
      cases h
      exact .of_same (jobs_zrem (by decide)) rfl
  | moveRetries now jobs =>
      cases h
      exact .of_script rfl fun e => mem_queue_foldl mem_queue_moveRetry
  | recoverJobs now jobs =>
      cases h
      exact .of_script rfl fun e => mem_queue_recoverJobs
  | zaddProcessing member score =>
      cases h
      exact .of_same rfl rfl
  | zremProcessing member =>
      cases h
      exact .of_same rfl rfl
  | _ => exact .of_same (congrFun (sets_of_exec h rfl).1 .queue) rfl

/-- A retry stays until its job is put into the queue or given another retry time. -/
theorem retry_of_exec {v : Reply q} (h : exec c b q = some (v, b')) (hq : φ.allows q)
    (he : e ∈ (b.redis.jobs .retry).entries) : e ∈ (b'.redis.jobs .retry).entries
      ∨ (∃ s, (s, (ofLex e).2) ∈ puts q) ∨ ∃ s, (s, (ofLex e).2) ∈ retryTimes q := by
  cases q with
  | zadd key job score =>
      cases h
      have hjobs := Redis.jobs_modify b.redis key .retry (·.zadd score job)
      by_cases hkey : key = .retry
      · subst hkey
        rw [if_pos rfl] at hjobs
        -- the job's own entry is replaced, by a retry time of this command
        by_cases hj : (ofLex e).2 = job
        · exact .inr (.inr ⟨score, by rw [hj]; exact List.mem_cons_self⟩)
        · refine .inl ?_
          rw [hjobs]
          exact SortedSet.mem_entries_zadd.mpr (.inr ⟨he, hj⟩)
      · rw [if_neg (Ne.symm hkey)] at hjobs
        exact .inl (hjobs.symm ▸ he)
  | zpopmin key =>
      obtain rfl : key = .queue := hq
      cases h
      have hretry : (b.redis.zpopmin .queue).2.jobs .retry = b.redis.jobs .retry := jobs_zpopmin (by decide)
      exact .inl (hretry.symm ▸ he)
  | zrem key id =>
      obtain rfl : key = .deadLetter := hq
      cases h
      have hretry : (b.redis.zrem .deadLetter id).2.jobs .retry = b.redis.jobs .retry := jobs_zrem (by decide)
      exact .inl (hretry.symm ▸ he)
  | moveRetries now jobs =>
      cases h
      -- the script moves its jobs to the queue and leaves the others
      by_cases hj : (ofLex e).2 ∈ jobs
      · exact .inr (.inl ⟨now, List.mem_map_of_mem hj⟩)
      · exact .inl (mem_retry_moveRetries he hj)
  | recoverJobs now jobs =>
      cases h
      have hretry : (jobs.foldl (Redis.recoverJob now) b.redis).jobs .retry = b.redis.jobs .retry :=
        jobs_recoverJobs (by decide)
      exact .inl (hretry.symm ▸ he)
  | zaddProcessing member score =>
      cases h
      exact .inl he
  | zremProcessing member =>
      cases h
      exact .inl he
  | _ =>
      refine .inl ?_
      rwa [(sets_of_exec h rfl).1]

/-- A job that is given a retry time has it. -/
theorem retry_placed {v : Reply q} (h : exec c b q = some (v, b')) {x : Int × Uuid} (hx : x ∈ retryTimes q) :
    toLex x ∈ (b'.redis.jobs .retry).entries := by
  cases q with
  | zadd key job score =>
      cases key with
      | retry =>
          cases h
          cases List.mem_singleton.mp hx
          have hjobs := Redis.jobs_modify b.redis .retry .retry (·.zadd score job)
          rw [if_pos rfl] at hjobs
          rw [hjobs]
          exact SortedSet.mem_entries_zadd.mpr (.inl rfl)
      | queue => cases hx
      | deadLetter => cases hx
  | _ => cases hx

/-- A row keeps its priority. -/
theorem priority_of_exec {v : Reply q} (h : exec c b q = some (v, b')) {j : Uuid} {row : EmailJob}
    (hrow : b.db.jobs.lookup j = some row) : ∃ row', b'.db.jobs.lookup j = some row' ∧ row'.priority = row.priority := by
  have hupdate : ∀ id f, (∀ row, (f row).priority = row.priority) →
      ∃ row', (b.db.updateJob id f).jobs.lookup j = some row' ∧ row'.priority = row.priority := by
    intro id f hf
    rw [lookup_updateJob]
    split
    · subst j
      exact ⟨f row, by rw [hrow]; rfl, hf row⟩
    · exact ⟨row, hrow, rfl⟩
  cases q with
  | createJob jobType recipient templateName templateData priority =>
      obtain ⟨-, hfresh, _, rfl, rfl⟩ := createJob_of_exec h
      have hjid : j ≠ v := by
        rintro rfl
        exact absurd (hfresh.symm.trans hrow) (by simp)
      exact ⟨row, (Store.lookup_insert_eq ..).trans ((if_neg hjid).trans hrow), rfl⟩
  | updateJobStatus id status e =>
      cases h
      exact hupdate id _ fun _ => rfl
  | updateJobAttempts id attempts e =>
      cases h
      exact hupdate id _ fun _ => rfl
  | _ => exact ⟨row, by rw [rows_of_exec h rfl]; exact hrow, rfl⟩

end Sets

/-! ## §6. The invariant. -/

/-- The scores of the queue: a positive priority, or a time. -/
def Scored (b : Backend) (e : Int ×ₗ Uuid) : Prop :=
  ∃ row ∈ b.db.jobs.lookup (ofLex e).2,
    0 < row.priority ∧ (ofLex e).1 = -row.priority ∨ row.priority ≤ 0 ∧ 0 ≤ (ofLex e).1

/-- What the past says of the queue and the retries. -/
structure Ordered (past : List Command) (b : Backend) : Prop where
  scored : ∀ e ∈ (b.redis.jobs .queue).entries, Scored b e
  cooling : ∀ q ∈ past, ∀ x ∈ schedules q,
    x.1 ≤ b.now ∨ ∃ s, x.1 ≤ s ∧ toLex (s, x.2) ∈ (b.redis.jobs .queue).entries
  waiting : ∀ s j, LastWhere (setsRetry j) past (.zadd .retry j s) →
    s ≤ b.now ∨ toLex (s, j) ∈ (b.redis.jobs .retry).entries ∧ j ∉ b.redis.jobs .queue

/-- What the processes have heard is so. -/
structure Informed (φ : Uuid → Heard) (b : Backend) : Prop where
  now : 0 ≤ b.now
  clock : ∀ p, 0 ≤ (φ p).clock
  created : ∀ p j priority, (φ p).created = some (j, priority) →
    ∃ row ∈ b.db.jobs.lookup j, row.priority = priority

section Invariant

variable {past : List Command} {b b' : Backend} {c : Choice} {q : Command} {v : Reply q} {φ : Heard} {j : Uuid}

theorem puts_of_schedules {x : Int × Uuid} (hx : x ∈ schedules q) : x ∈ puts q := by
  cases q with
  | zadd key job score => cases key <;> exact hx
  | _ => cases hx

theorem setsRetry_iff : setsRetry j q = true ↔ ∃ s, (s, j) ∈ retryTimes q := by
  cases q with
  | zadd key job score =>
      cases key with
      | retry =>
          refine beq_iff_eq.trans ⟨fun hj => ⟨score, hj ▸ List.mem_cons_self⟩, fun hset => ?_⟩
          obtain ⟨s, hs⟩ := hset
          cases List.mem_singleton.mp hs
          rfl
      | queue => simp [setsRetry, retryTimes]
      | deadLetter => simp [setsRetry, retryTimes]
  | _ => simp [setsRetry, retryTimes]

/-- **What is put into the queue** has the score of a positive priority, or a time. -/
theorem scored_of_puts (hq : φ.allows q) (hclock : 0 ≤ φ.clock)
    (hcreated : ∀ j priority, φ.created = some (j, priority) → ∃ row ∈ b.db.jobs.lookup j, row.priority = priority)
    {x : Int × Uuid} (hx : x ∈ puts q) (hfits : Fits b x) : Scored b (toLex x) := by
  have htime : 0 ≤ x.1 → Scored b (toLex x) := by
    intro hscore
    obtain ⟨row, hrow, hpriority⟩ := hfits.priority hscore
    exact ⟨row, hrow, .inr ⟨hpriority, hscore⟩⟩
  have hscript : ∀ (now : Int) (jobs : List Uuid), φ.clock ≤ now → x ∈ jobs.map (fun j => (now, j)) → Scored b (toLex x) := by
    intro now jobs hnow hx
    obtain ⟨j, -, rfl⟩ := List.mem_map.mp hx
    exact htime (hclock.trans hnow)
  -- a direct ZADD has the job's priority or a time as its score, a script the time
  cases q with
  | zadd key job score =>
      cases key with
      | queue =>
          cases List.mem_singleton.mp hx
          rcases hq with ⟨priority, hown, hpos, rfl⟩ | hlater
          · obtain ⟨row, hrow, rfl⟩ := hcreated job priority hown
            exact ⟨row, hrow, .inl ⟨hpos, rfl⟩⟩
          · exact htime (hclock.trans hlater)
      | retry => cases hx
      | deadLetter => cases hx
  | moveRetries now jobs => exact hscript now jobs hq hx
  | recoverJobs now jobs => exact hscript now jobs hq hx
  | _ => cases hx

theorem Scored.of_exec {e : Int ×ₗ Uuid} (h : Scored b e) (hexec : exec c b q = some (v, b')) : Scored b' e := by
  obtain ⟨row, hrow, hscore⟩ := h
  obtain ⟨row', hrow', hpriority⟩ := priority_of_exec hexec hrow
  exact ⟨row', hrow', hpriority ▸ hscore⟩

/-- The lowest entry is due when some entry is. -/
theorem due_of_head {e : Int ×ₗ Uuid} (horderly : Orderly b q) (htakes : takesFromQueue q = true)
    (hhead : (b.redis.jobs .queue).entries.head? = some e) : (ofLex e).1 ≤ b.now := by
  rcases horderly.takes htakes with hempty | ⟨e', he', hdue⟩
  · rw [hempty] at hhead
    cases hhead
  · exact (SortedSet.score_le_of_head hhead he').trans hdue

/-- **One command** that is allowed and keeps the order keeps the invariant. -/
theorem Ordered.exec (h : Ordered past b) (hq : φ.allows q) (hclock : 0 ≤ φ.clock)
    (hcreated : ∀ j priority, φ.created = some (j, priority) → ∃ row ∈ b.db.jobs.lookup j, row.priority = priority)
    (horderly : Orderly b q) (hexec : Email.exec c b q = some (v, b')) : Ordered (past ++ [q]) b' := by
  have hnow := now_of_exec hexec
  have hmoves := queueMoves_of_exec hexec hq
  constructor
  · intro e he
    rcases hmoves.origin e he with hput | hold
    · exact (scored_of_puts hq hclock hcreated hput (horderly.puts _ hput)).of_exec hexec
    · exact (h.scored e hold).of_exec hexec
  · intro q' hpast x hx
    rw [hnow]
    rcases List.mem_append.mp hpast with hpast | hnew
    · rcases h.cooling q' hpast x hx with hdue | ⟨s, hle, hmem⟩
      · exact .inl hdue
      rcases hmoves.kept _ hmem with hmem | ⟨s', hput⟩ | ⟨htakes, hhead⟩
      · exact .inr ⟨s, hle, hmem⟩
      · -- the job is put into the queue anew, for no earlier time
        by_cases hlater : b.now < s
        · exact .inr ⟨s', hle.trans ((horderly.puts _ hput).cooling _ hmem rfl hlater), hmoves.placed _ hput⟩
        · exact .inl (by omega)
      · exact .inl (hle.trans (due_of_head horderly htakes hhead))
    · cases List.mem_singleton.mp hnew
      exact .inr ⟨x.1, le_refl x.1, hmoves.placed x (puts_of_schedules hx)⟩
  · intro s j hlast
    rw [hnow]
    by_cases hdue : s ≤ b.now
    · exact .inl hdue
    refine .inr ?_
    -- a job with a later retry time is not put into the queue
    have hqueued : j ∈ b'.redis.jobs .queue → (∃ s, (s, j) ∈ puts q) ∨ j ∈ b.redis.jobs .queue := by
      intro hj
      obtain ⟨e, he, rfl⟩ := List.mem_map.mp hj
      exact (hmoves.origin e he).imp (fun hput => ⟨_, hput⟩) List.mem_map_of_mem
    rcases lastWhere_concat_iff.mp hlast with ⟨-, rfl⟩ | ⟨hother, hlast⟩
    · refine ⟨retry_placed hexec List.mem_cons_self, fun hj => ?_⟩
      rcases hqueued hj with ⟨_, hput⟩ | hj
      · cases hput
      · exact horderly.retries (s, j) List.mem_cons_self (by omega) hj
    · obtain ⟨hmem, hnot⟩ := (h.waiting s j hlast).resolve_left hdue
      have hput : ¬∃ s, (s, j) ∈ puts q := fun ⟨s₂, hput⟩ => hdue ((horderly.puts _ hput).retry _ hmem rfl)
      refine ⟨?_, fun hj => (hqueued hj).elim hput hnot⟩
      rcases retry_of_exec hexec hq hmem with hmem | hput' | hset
      · exact hmem
      · exact absurd hput' hput
      · have htrue : setsRetry j q = true := setsRetry_iff.mpr hset
        rw [htrue] at hother
        cases hother

/-- A command that gives no score changes nothing that is said of the past. -/
theorem Ordered.quiet (h : Ordered past b) (hq : ∀ key job score, q ≠ .zadd key job score) :
    Ordered (past ++ [q]) b := by
  refine ⟨h.scored, fun q' hpast x hx => ?_, fun s j hlast => ?_⟩
  · rcases List.mem_append.mp hpast with hpast | hnew
    · exact h.cooling q' hpast x hx
    · cases List.mem_singleton.mp hnew
      cases q with
      | zadd key job score => exact absurd rfl (hq key job score)
      | _ => cases hx
  · rcases lastWhere_concat_iff.mp hlast with ⟨-, rfl⟩ | ⟨-, hlast⟩
    · exact absurd rfl (hq _ _ _)
    · exact h.waiting s j hlast

theorem Ordered.outside (h : Ordered past b) (w : Outside) : Ordered past (outside w b) := by
  cases w with
  | tick seconds =>
      have hlater : ∀ s : Int, s ≤ b.now → s ≤ b.now + seconds := fun s hs => by omega
      exact ⟨h.scored, fun q hq x hx => (h.cooling q hq x hx).imp_left (hlater _),
        fun s j hlast => (h.waiting s j hlast).imp_left (hlater s)⟩
  | suppress email => exact ⟨h.scored, h.cooling, h.waiting⟩

theorem Informed.update {φ : Uuid → Heard} (h : Informed φ b) (p : Uuid) {x : Heard} (hclock : 0 ≤ x.clock)
    (hcreated : ∀ j priority, x.created = some (j, priority) → ∃ row ∈ b.db.jobs.lookup j, row.priority = priority) :
    Informed (Function.update φ p x) b := by
  refine ⟨h.now, fun p' => ?_, fun p' j priority => ?_⟩
  · rw [Function.update_apply]
    split
    · exact hclock
    · exact h.clock p'
  · rw [Function.update_apply]
    split
    · exact hcreated j priority
    · exact h.created p' j priority

theorem Informed.exec {φ : Uuid → Heard} (h : Informed φ b) (hexec : Email.exec c b q = some (v, b')) :
    Informed φ b' := by
  refine ⟨now_of_exec hexec ▸ h.now, h.clock, fun p j priority hcreated => ?_⟩
  obtain ⟨row, hrow, rfl⟩ := h.created p j priority hcreated
  exact priority_of_exec hexec hrow

/-- **An answer** informs its process. -/
theorem Informed.answer {φ : Uuid → Heard} (h : Informed φ b) (p : Uuid)
    (hexec : Email.exec c b q = some (v, b')) : Informed (Function.update φ p ((φ p).next q (.ok v))) b' := by
  have hold := (h.exec hexec).update p (h.clock p) ((h.exec hexec).created p)
  cases q with
  | utcNow =>
      cases hexec
      exact h.update p h.now (h.created p)
  | createJob jobType recipient templateName templateData priority =>
      refine (h.exec hexec).update p (h.clock p) fun j priority' hcreated => ?_
      cases hcreated
      exact ⟨_, row_of_createJob hexec, rfl⟩
  | _ => exact hold

end Invariant

/-! ## §7. Runs. -/

section Runs

variable {b : Backend} {past : List Command} {m : System} {as : List Action} {a : Action} {j : Uuid}

theorem informed_step (hm : Machine.Monitored orderMonitor m) (h : Informed (m.phase orderMonitor) m.store)
    (a : Action) : Informed ((System.step m a).phase orderMonitor) (System.step m a).store := by
  refine Machine.phases_step (I := fun φ b _ => Informed φ b) hm h ?_ ?_ ?_
  · intro φ s log p hφ
    exact hφ.update p (le_refl 0) fun j priority hcreated => by cases hcreated
  · intro p q s r ha hp hallows hr
    have hsame : ∀ e : String, (m.phase orderMonitor p).next q (.error e) = m.phase orderMonitor p := by
      intro e
      cases q <;> rfl
    rcases reply_cases hr with ⟨_, c, v, -, rfl, hexec⟩ | ⟨e, rfl, rfl⟩ | ⟨_, c, e, v, -, rfl, hexec⟩
    · exact h.answer p hexec
    · show Informed (Function.update _ p ((m.phase orderMonitor p).next q (.error e))) _
      rw [hsame, Function.update_eq_self]
      exact h
    · show Informed (Function.update _ p ((m.phase orderMonitor p).next q (.error e))) _
      rw [hsame, Function.update_eq_self]
      exact h.exec hexec
  · intro w _
    cases w with
    | tick seconds =>
        have hnow : 0 ≤ m.store.now + seconds := by
          have := h.now
          omega
        exact ⟨hnow, h.clock, h.created⟩
    | suppress email => exact ⟨h.now, h.clock, h.created⟩

/-- **One step** whose command keeps the order keeps the invariant. -/
theorem Ordered.step (h : Ordered past m.store) (hm : Machine.Monitored orderMonitor m)
    (hinformed : Informed (m.phase orderMonitor) m.store) (horderly : ∀ q ∈ m.performs a, Orderly m.store q) :
    Ordered (past ++ (m.performs a).toList) (System.step m a).store := by
  have hexec : ∀ q c v, m.performs a = some q → Email.exec c m.store q = some (v, (System.step m a).store) →
      Ordered (past ++ [q]) (System.step m a).store := by
    intro q c v hq hexec
    obtain ⟨p, -, hallows⟩ := hm.allows_of_performs hq
    exact h.exec hallows (hinformed.clock p) (hinformed.created p) (horderly q hq) hexec
  cases hperforms : m.performs a with
  | none =>
      rw [Option.toList_none, List.append_nil]
      rcases m.store_step_cases server (fun _ => body) Email.outside a with hsame | ⟨q, c, v, hq, -⟩ | ⟨w, -, hstore⟩
      · rwa [show (System.step m a).store = m.store from hsame]
      · cases hperforms.symm.trans hq
      · rw [show (System.step m a).store = Email.outside w m.store from hstore]
        exact h.outside w
  | some q =>
      rw [Option.toList_some]
      by_cases hzadd : ∃ key job score, q = .zadd key job score
      · obtain ⟨key, job, score, rfl⟩ := hzadd
        obtain ⟨c, v, hstore⟩ := Machine.store_of_performs server (fun _ => body) Email.outside hperforms rfl fun _ => rfl
        exact hexec _ c v hperforms hstore
      · rcases m.store_step_cases server (fun _ => body) Email.outside a with
          hsame | ⟨q', c, v, hq, hstore, -⟩ | ⟨w, rfl, -⟩
        · rw [show (System.step m a).store = m.store from hsame]
          exact h.quiet fun key job score hq => hzadd ⟨key, job, score, hq⟩
        · cases hperforms.symm.trans hq
          exact hexec q c v hperforms hstore
        · cases hperforms

/-- The next job is in turn. -/
theorem Ordered.inTurn (h : Ordered past m.store) (horderly : ∀ q ∈ m.performs a, Orderly m.store q)
    (htakes : Takes m a j) : InTurn past m.store j := by
  obtain ⟨hperforms, hhead⟩ := htakes
  obtain ⟨e, hfirst, rfl⟩ := Option.map_eq_some_iff.mp (List.head?_map ▸ hhead)
  have hmem := List.mem_of_head? hfirst
  have hdue := due_of_head (horderly _ hperforms) rfl hfirst
  refine ⟨fun q hq x hx hj => ?_, fun s hlast => ?_, fun row hrow e' he' _ other hother => ?_⟩
  · rcases h.cooling q hq x hx with hdue' | ⟨s, hle, hqueued⟩
    · exact hdue'
    · cases SortedSet.eq_of_mem_entries hqueued hmem hj
      exact hle.trans hdue
  · exact (h.waiting s _ hlast).resolve_right fun hwaiting => hwaiting.2 (List.mem_map_of_mem hmem)
  · have hle := SortedSet.score_le_of_head hfirst he'
    obtain ⟨row', hrow', hscore⟩ := h.scored e hmem
    obtain ⟨other', hother', hscore'⟩ := h.scored e' he'
    cases hrow.symm.trans hrow'
    cases hother.symm.trans hother'
    -- the scores order the positive priorities, and these before the times
    omega

theorem carriedOut_concat (b : Backend) (as : List Action) (a : Action) :
    carriedOut b (as ++ [a]) = carriedOut b as ++ ((run System.step (Machine.idle b) as).performs a).toList := by
  unfold carriedOut
  rw [trace_concat, List.filterMap_append, List.filterMap_cons]
  cases (run System.step (Machine.idle b) as).performs a <;> rfl

theorem monitored_run (b : Backend) (as : List Action) :
    Machine.Monitored orderMonitor (run System.step (Machine.idle b) as) :=
  Machine.monitored_run (fun _ op => body_obeys op) b as

theorem informed_run (hnow : 0 ≤ b.now) (as : List Action) :
    Informed ((run System.step (Machine.idle b) as).phase orderMonitor) (run System.step (Machine.idle b) as).store := by
  induction as using List.reverseRecOn with
  | nil => exact ⟨hnow, fun p => le_refl 0, fun p j priority hcreated => by cases hcreated⟩
  | append_singleton as a ih =>
      rw [run_concat]
      exact informed_step (monitored_run b as) ih a

/-- In every run whose commands keep the order the invariant holds. -/
theorem ordered_run (hnow : 0 ≤ b.now) (hqueue : (b.redis.jobs .queue).entries = [])
    (horderly : ∀ t ∈ trace System.step (Machine.idle b) as, ∀ q ∈ t.pre.performs t.act, Orderly t.pre.store q) :
    Ordered (carriedOut b as) (run System.step (Machine.idle b) as).store := by
  induction as using List.reverseRecOn with
  | nil =>
      refine ⟨fun e he => ?_, fun q hq => absurd hq List.not_mem_nil, fun s j hlast => ?_⟩
      · rw [show ((run System.step (Machine.idle b) []).store.redis.jobs .queue).entries = [] from hqueue] at he
        cases he
      · obtain ⟨-, before, after, hpast, -⟩ := hlast
        cases before <;> cases hpast
  | append_singleton as a ih =>
      rw [trace_concat] at horderly
      rw [carriedOut_concat, run_concat]
      exact (ih fun t ht => horderly t (List.mem_append_left _ ht)).step (monitored_run b as) (informed_run hnow as)
        (horderly _ (List.mem_append_right _ List.mem_cons_self))

/-- **Jobs leave the queue in turn** in every run whose commands keep the order. -/
theorem dequeued_in_turn (hnow : 0 ≤ b.now) (hqueue : (b.redis.jobs .queue).entries = [])
    (horderly : ∀ t ∈ trace System.step (Machine.idle b) as, ∀ q ∈ t.pre.performs t.act, Orderly t.pre.store q)
    {bs : List Action} (hbegins : bs ++ [a] <+: as) (htakes : Takes (run System.step (Machine.idle b) bs) a j) :
    InTurn (carriedOut b bs) (run System.step (Machine.idle b) bs).store j := by
  have hsteps : ∀ t ∈ trace System.step (Machine.idle b) (bs ++ [a]), ∀ q ∈ t.pre.performs t.act,
      Orderly t.pre.store q := fun t ht => horderly t (mem_trace_of_isPrefix _ hbegins ht)
  rw [trace_concat] at hsteps
  have hordered := ordered_run hnow hqueue fun t ht => hsteps t (List.mem_append_left _ ht)
  exact hordered.inTurn (hsteps _ (List.mem_append_right _ List.mem_cons_self)) htakes

theorem takes_of_check
    (h : ((m.performs a).any takesFromQueue && (m.store.redis.jobs .queue).zrange.head? == some j) = true) :
    Takes m a j := by
  obtain ⟨hany, hhead⟩ := (Bool.and_eq_true ..).mp h
  refine ⟨?_, beq_iff_eq.mp hhead⟩
  obtain ⟨q, hq, htakes⟩ := (Option.any_eq_true ..).mp hany
  cases q with
  | zpopmin key => cases key <;> first | exact hq | cases htakes
  | _ => cases htakes

/-- One process runs an operation, in at most `n` commands; a new row gets the given id. -/
def sampleCall (id : Uuid) (op : Operation) (n : Nat) : List Action :=
  .start sampleApiId op :: List.replicate n (.answer sampleApiId (sampleChoice id))

def sampleEnqueued (id : Uuid) (priority : Int) : List Action :=
  sampleCall id (.enqueue .welcomeEmail "user@example.com" "welcome_email" "data" priority) 5

/-- A worker takes a job, and it fails. -/
def sampleFailure : List Action :=
  sampleCall sampleJobId (.dequeue sampleWorkerId) 5 ++ sampleCall sampleJobId (.markFailed sampleJobId "error") 12

/-- After a while the retries that are due go to the queue. -/
def sampleLater (seconds : Nat) : List Action :=
  .outside (.tick seconds) :: sampleCall sampleJobId .processRetries 5

/-- A dequeue up to its pop. -/
def samplePop : List Action := sampleCall sampleJobId (.dequeue sampleWorkerId) 2

def sampleStart : Backend := ⟨1000, {}, {}, []⟩

/-- A job fails, and is retried when its time has come. -/
def sampleRetry : List Action := sampleEnqueued sampleJobId 0 ++ sampleFailure ++ sampleLater 120 ++ samplePop

/-- It leaves the queue in turn. -/
theorem sampleRetry_in_turn :
    InTurn (carriedOut sampleStart sampleRetry) (run System.step (Machine.idle sampleStart) sampleRetry).store
      sampleJobId := by
  have horderly : ((trace System.step (Machine.idle sampleStart)
      (sampleRetry ++ [.answer sampleApiId (sampleChoice sampleJobId)])).all fun t =>
        decide (∀ q ∈ t.pre.performs t.act, Orderly t.pre.store q)) = true := by decide +kernel
  refine dequeued_in_turn (by decide) rfl (fun t ht => of_decide_eq_true (List.all_eq_true.mp horderly t ht))
    List.prefix_rfl (takes_of_check (by decide +kernel))

/-- A job fails three times and is requeued from the dead letters. -/
def sampleRequeue : List Action :=
  sampleEnqueued sampleJobId 0 ++ sampleFailure ++ sampleLater 120 ++ sampleFailure ++ sampleLater 240 ++ sampleFailure
    ++ sampleCall sampleJobId (.requeueDeadLetter sampleJobId) 9 ++ samplePop

def sampleOtherId : Uuid := ⟨"99999999-9999-4999-8999-999999999999", by decide +kernel⟩

/-- A job of priority 5 fails; one without a priority is enqueued before the retry. -/
def sampleOvertaken : List Action :=
  sampleEnqueued sampleJobId 5 ++ sampleFailure ++ sampleEnqueued sampleOtherId 0 ++ sampleLater 120 ++ samplePop

/-- The requeued job is taken at once, a minute early, and the job without a
priority is taken before the retry of the other. -/
theorem sampleRequeue_out_of_turn :
    (Takes (run System.step (Machine.idle sampleStart) sampleRequeue)
        (.answer sampleApiId (sampleChoice sampleJobId)) sampleJobId
      ∧ ¬InTurn (carriedOut sampleStart sampleRequeue)
        (run System.step (Machine.idle sampleStart) sampleRequeue).store sampleJobId)
    ∧ Takes (run System.step (Machine.idle sampleStart) sampleOvertaken)
        (.answer sampleApiId (sampleChoice sampleJobId)) sampleOtherId
      ∧ ¬InTurn (carriedOut sampleStart sampleOvertaken)
        (run System.step (Machine.idle sampleStart) sampleOvertaken).store sampleOtherId := by
  refine ⟨⟨takes_of_check (by decide +kernel), fun h => ?_⟩, takes_of_check (by decide +kernel), fun h => ?_⟩
  · exact absurd h.cooled (by decide +kernel)
  · exact absurd h.first (by decide +kernel)

end Runs

end PredictIQ.QueueOrder
