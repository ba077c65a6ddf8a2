/-
  PredictIQ.Email.Backend: Redis, the database and SendGrid as one server.

  Each Redis command, Lua script, database statement and SendGrid request of
  the email service is one `Command`; `exec` is its effect and reply.  What
  the command leaves open (the id that `gen_random_uuid()` draws, SendGrid's
  response, whether Redis's circuit breaker is closed) comes with the
  `Choice`.  The string keys all hold numbers, with the second they expire.
  Column limits of the database are left to the failures that any command
  may have.
-/
import PredictIQ.Email.Types
import PredictIQ.Foundation.Process
import PredictIQ.Foundation.Store

namespace PredictIQ.Email

open Foundation

/-! ## §1. Redis. -/

/-- `email:queue`, `email:retry` and `email:dead_letter`. -/
inductive JobSet where
  | queue | retry | deadLetter
  deriving DecidableEq, Repr

structure StringEntry where
  value : Int
  expiresAt : Int

structure Redis where
  jobs : JobSet → SortedSet Uuid := fun _ => .empty
  processing : SortedSet Member := .empty
  strings : Store String StringEntry := ∅

namespace Redis

/-- Write one of the job sets. -/
def modify (r : Redis) (key : JobSet) (f : SortedSet Uuid → SortedSet Uuid) : Redis :=
  { r with jobs := Function.update r.jobs key (f (r.jobs key)) }

/-- `ZPOPMIN key 1`. -/
def zpopmin (r : Redis) (key : JobSet) : Option (Uuid × Int) × Redis :=
  match (r.jobs key).zpopmin with
  | some (e, rest) => (some e, r.modify key fun _ => rest)
  | none => (none, r)

/-- `ZREM key job`: how many members it removed. -/
def zrem (r : Redis) (key : JobSet) (job : Uuid) : Nat × Redis :=
  if job ∈ r.jobs key then (1, r.modify key (·.zrem job)) else (0, r)

/-- The script of `process_retries`, for one job. -/
def moveRetry (now : Int) (r : Redis) (job : Uuid) : Redis :=
  (r.modify .queue (·.zadd now job)).modify .retry (·.zrem job)

/-- The script of `recover_orphaned_jobs`, for one job. -/
def recoverJob (now : Int) (r : Redis) (job : Uuid) : Redis :=
  let processing := match r.processing.zrange.find? (·.isOf job) with
    | some member => r.processing.zrem member
    | none => r.processing
  { r with processing := processing }.modify .queue (·.zadd now job)

/-- A string key, unless it has expired. -/
def get (r : Redis) (now : Int) (key : String) : Option Int :=
  match r.strings.lookup key with
  | some e => if now < e.expiresAt then some e.value else none
  | none => none

def setEx (r : Redis) (now : Int) (key : String) (value : Int) (seconds : Nat) : Redis :=
  { r with strings := r.strings.insert key ⟨value, now + seconds⟩ }

/-- The script of `incr_with_ttl`: only the first increment sets the expiry. -/
def incrWithTtl (r : Redis) (now : Int) (key : String) (seconds : Nat) : Int × Redis :=
  match r.strings.lookup key with
  | some e =>
      if now < e.expiresAt then
        (e.value + 1, { r with strings := r.strings.insert key ⟨e.value + 1, e.expiresAt⟩ })
      else (1, r.setEx now key 1 seconds)
  | none => (1, r.setEx now key 1 seconds)

end Redis

/-! ## §2. The database. -/

structure Database where
  jobs : Store Uuid EmailJob := ∅
  events : List EmailEvent := []
  suppressions : List String := []
  deadLetterJobs : Store Uuid DeadLetterJob := ∅

namespace Database

/-- A new row; what is not given is the table's default. -/
def newJob (id : Uuid) (now : Int) (jobType recipient templateName : String) (templateData : Value)
    (priority : Int) : EmailJob where
  id := id
  jobType := jobType
  recipientEmail := recipient
  templateName := templateName
  templateData := templateData
  status := "pending"
  priority := priority
  attempts := 0
  maxAttempts := 3
  errorMessage := none
  createdAt := now

/-- `INSERT INTO email_jobs`, unless the id is taken. -/
def createJob (db : Database) (job : EmailJob) : Option Database :=
  match db.jobs.lookup job.id with
  | some _ => none
  | none => some { db with jobs := db.jobs.insert job.id job }

/-- `UPDATE email_jobs SET .. WHERE id = $1`. -/
def updateJob (db : Database) (id : Uuid) (f : EmailJob → EmailJob) : Database :=
  match db.jobs.lookup id with
  | some job => { db with jobs := db.jobs.insert id (f job) }
  | none => db

/-- A conflict on the id keeps the stored payload. -/
def createDeadLetterJob (db : Database) (id : Uuid) (payload : DlqPayload) (failureReason : String)
    (retryCount : Int) : Database :=
  let stored := match db.deadLetterJobs.lookup id with
    | some old => old.payload
    | none => payload
  { db with deadLetterJobs := db.deadLetterJobs.insert id ⟨stored, failureReason, retryCount⟩ }

end Database

/-! ## §3. Commands. -/

inductive Command where
  | utcNow
  | breakerAllow
  | poolGet
  | zadd (key : JobSet) (job : Uuid) (score : Int)
  | zpopmin (key : JobSet)
  | zrem (key : JobSet) (job : Uuid)
  | zrangebyscore (key : JobSet) (max : Int)
  | zaddProcessing (member : Member) (score : Int)
  | zremProcessing (member : Member)
  | zrangeProcessing
  | zrangebyscoreProcessing (max : Int)
  | moveRetries (now : Int) (jobs : List Uuid)
  | recoverJobs (now : Int) (jobs : List Uuid)
  | get (key : String)
  | setEx (key : String) (value : Int) (seconds : Nat)
  | setNxEx (key : String) (seconds : Nat)
  | incrWithTtl (key : String) (seconds : Nat)
  | createJob (jobType recipient templateName : String) (templateData : Value) (priority : Int)
  | getJob (id : Uuid)
  | updateJobStatus (id : Uuid) (status : String) (errorMessage : Option String)
  | updateJobAttempts (id : Uuid) (attempts : Int) (errorMessage : Option String)
  | createEvent (event : EmailEvent)
  | isSuppressed (email : String)
  | createDeadLetterJob (id : Uuid) (payload : DlqPayload) (failureReason : String) (retryCount : Int)
  | deleteDeadLetterJob (id : Uuid)
  | post (payload : Payload)

/-- What a command returns when it succeeds. -/
@[reducible] def Reply : Command → Type
  | .utcNow => Int
  | .breakerAllow => Bool
  | .zpopmin _ => Option (Uuid × Int)
  | .zrem .. => Nat
  | .zrangebyscore .. => List Uuid
  | .zrangeProcessing => List Member
  | .zrangebyscoreProcessing _ => List Member
  | .moveRetries .. => Nat
  | .recoverJobs .. => Nat
  | .get _ => Option Int
  | .setNxEx .. => Bool
  | .incrWithTtl .. => Int
  | .createJob .. => Uuid
  | .getJob _ => Option EmailJob
  | .isSuppressed _ => Bool
  | .post _ => Response
  | _ => Unit

/-- What a command leaves open. -/
structure Choice where
  id : Uuid
  response : Response
  breakerClosed : Bool

structure Backend where
  now : Int
  redis : Redis := {}
  db : Database := {}
  /-- The requests SendGrid has answered with a 2xx status. -/
  accepted : List Payload := []

/-- One command, `none` when the server turns it down: an id that is taken,
or an expiry of zero seconds. -/
def exec (c : Choice) (b : Backend) : (q : Command) → Option (Reply q × Backend)
  | .utcNow => some (b.now, b)
  | .breakerAllow => some (c.breakerClosed, b)
  | .poolGet => some ((), b)
  | .zadd key job score => some ((), { b with redis := b.redis.modify key (·.zadd score job) })
  | .zpopmin key => some ((b.redis.zpopmin key).1, { b with redis := (b.redis.zpopmin key).2 })
  | .zrem key job => some ((b.redis.zrem key job).1, { b with redis := (b.redis.zrem key job).2 })
  | .zrangebyscore key max => some ((b.redis.jobs key).zrangebyscore max, b)
  | .zaddProcessing member score =>
      some ((), { b with redis.processing := b.redis.processing.zadd score member })
  | .zremProcessing member =>
      some ((), { b with redis.processing := b.redis.processing.zrem member })
  | .zrangeProcessing => some (b.redis.processing.zrange, b)
  | .zrangebyscoreProcessing max => some (b.redis.processing.zrangebyscore max, b)
  | .moveRetries now jobs =>
      some (jobs.length, { b with redis := jobs.foldl (Redis.moveRetry now) b.redis })
  | .recoverJobs now jobs =>
      some (jobs.length, { b with redis := jobs.foldl (Redis.recoverJob now) b.redis })
  | .get key => some (b.redis.get b.now key, b)
  | .setEx key value seconds =>
      if seconds = 0 then none
      else some ((), { b with redis := b.redis.setEx b.now key value seconds })
  | .setNxEx key seconds =>
      if seconds = 0 then none
      else match b.redis.get b.now key with
        | some _ => some (false, b)
        | none => some (true, { b with redis := b.redis.setEx b.now key 1 seconds })
  | .incrWithTtl key seconds =>
      some ((b.redis.incrWithTtl b.now key seconds).1,
        { b with redis := (b.redis.incrWithTtl b.now key seconds).2 })
  | .createJob jobType recipient templateName templateData priority =>
      (b.db.createJob (Database.newJob c.id b.now jobType recipient templateName templateData priority)).map
        fun db => (c.id, { b with db := db })
  | .getJob id => some (b.db.jobs.lookup id, b)
  | .updateJobStatus id status errorMessage =>
      some ((), { b with db := b.db.updateJob id fun job =>
        { job with status := status, errorMessage := errorMessage } })
  | .updateJobAttempts id attempts errorMessage =>
      some ((), { b with db := b.db.updateJob id fun job =>
        { job with attempts := attempts, errorMessage := errorMessage } })
  | .createEvent event => some ((), { b with db.events := b.db.events ++ [event] })
  | .isSuppressed email => some (b.db.suppressions.contains email, b)
  | .createDeadLetterJob id payload failureReason retryCount =>
      some ((), { b with db := b.db.createDeadLetterJob id payload failureReason retryCount })
  | .deleteDeadLetterJob id =>
      some ((), { b with db.deadLetterJobs := b.db.deadLetterJobs.erase id })
  | .post payload =>
      some (c.response, if c.response.isSuccess then { b with accepted := b.accepted ++ [payload] } else b)

/-- Reading the clock or the circuit breaker cannot fail; everything else can. -/
def fallible : Command → Bool
  | .utcNow | .breakerAllow => false
  | _ => true

/-- Commands that are about no job in particular. -/
def Command.isBackground : Command → Bool
  | .utcNow | .breakerAllow | .poolGet | .zrangebyscore .. | .zrangebyscoreProcessing _
  | .zrangeProcessing | .moveRetries .. | .recoverJobs .. | .get _ | .setEx .. | .incrWithTtl .. => true
  | _ => false

/-- The server that workers and API processes share. -/
def server : Server Reply Backend Choice := ⟨exec, fallible⟩

/-- What happens outside the queue: time passes, a webhook suppresses an address. -/
inductive Outside where
  | tick (seconds : Nat)
  | suppress (email : String)

def outside : Outside → Backend → Backend
  | .tick seconds, b => { b with now := b.now + seconds }
  | .suppress email, b => { b with db.suppressions := email :: b.db.suppressions }

/-- The ways an action can answer a command. -/
theorem reply_cases {P τ η : Type} {a : Act P τ String Choice η} {b b' : Backend} {q : Command}
    {r : Except String (Reply q)} (h : Machine.reply server b a q = some (b', r)) :
    (∃ p c v, a = .answer p c ∧ r = .ok v ∧ exec c b q = some (v, b'))
      ∨ (∃ e, r = .error e ∧ b' = b)
      ∨ ∃ p c e v, a = .lose p c e ∧ r = .error e ∧ exec c b q = some (v, b') := by
  cases a with
  | answer p c =>
      obtain ⟨⟨v, s⟩, hexec, h⟩ := Option.map_eq_some_iff.mp h
      cases h
      exact .inl ⟨p, c, v, rfl, rfl, hexec⟩
  | refuse p e =>
      simp only [Machine.reply] at h
      split at h <;> cases h
      exact .inr (.inl ⟨e, rfl, rfl⟩)
  | lose p c e =>
      simp only [Machine.reply] at h
      split at h
      · obtain ⟨⟨v, s⟩, hexec, h⟩ := Option.map_eq_some_iff.mp h
        cases h
        exact .inr (.inr ⟨p, c, e, v, rfl, rfl, hexec⟩)
      · cases h
  | start p task => cases h
  | crash p => cases h
  | outside w => cases h

/-! ## §4. What a command leaves in place. -/

namespace Redis

variable {r : Redis} {key key' : JobSet} {j : Uuid}

theorem jobs_modify (r : Redis) (key key' : JobSet) (f : SortedSet Uuid → SortedSet Uuid) :
    (r.modify key f).jobs key' = if key' = key then f (r.jobs key) else r.jobs key' := by
  by_cases h : key' = key
  · subst h
    simp [modify]
  · simp [modify, h]

/-- A job is in one of the three sets. -/
def isQueued (r : Redis) (j : Uuid) : Prop := ∃ key, j ∈ r.jobs key

theorem isQueued_zadd (r : Redis) (key : JobSet) (score : Int) (j : Uuid) :
    (r.modify key (·.zadd score j)).isQueued j := by
  refine ⟨key, ?_⟩
  rw [jobs_modify, if_pos rfl]
  exact SortedSet.mem_zadd.mpr (.inl rfl)

theorem mem_modify_zadd {id : Uuid} {score : Int} (h : j ∈ r.jobs key') :
    j ∈ (r.modify key (·.zadd score id)).jobs key' := by
  rw [jobs_modify]
  split
  · subst key'
    exact SortedSet.mem_zadd.mpr (.inr h)
  · exact h

/-- A job stays where it is, or is moved to the queue. -/
theorem mem_moveRetry {now : Int} {id : Uuid} (h : j ∈ r.jobs key ∨ j ∈ r.jobs .queue) :
    j ∈ (r.moveRetry now id).jobs key ∨ j ∈ (r.moveRetry now id).jobs .queue := by
  have hqueue : j = id ∨ j ∈ r.jobs .queue → j ∈ (r.moveRetry now id).jobs .queue := by
    intro hj
    rw [moveRetry, jobs_modify, if_neg (by decide), jobs_modify, if_pos rfl]
    exact SortedSet.mem_zadd.mpr hj
  rcases h with h | h
  · by_cases hid : j = id
    · exact .inr (hqueue (.inl hid))
    · refine .inl ?_
      rw [moveRetry, jobs_modify]
      split
      · exact SortedSet.mem_zrem.mpr ⟨hid, by subst key; exact mem_modify_zadd h⟩
      · exact mem_modify_zadd h
  · exact .inr (hqueue (.inr h))

/-- The recovery script removes bare members only. -/
theorem owned_mem_recoverJob {now : Int} {id w : Uuid} (h : .owned w j ∈ r.processing) :
    .owned w j ∈ (r.recoverJob now id).processing := by
  show _ ∈ (match r.processing.zrange.find? (·.isOf id) with
    | some member => r.processing.zrem member
    | none => r.processing)
  cases hfind : r.processing.zrange.find? (·.isOf id) with
  | none => exact h
  | some member =>
      obtain rfl : member = .bare id := Member.isOf_iff.mp (by simpa using List.find?_some hfind)
      exact SortedSet.mem_zrem.mpr ⟨by simp, h⟩

end Redis

section Exec

variable {c : Choice} {b b' : Backend} {q : Command} {r : Reply q} {j : Uuid}

/-- The commands that write one of the four sets. -/
def Command.writesSets : Command → Bool
  | .zadd .. | .zpopmin _ | .zrem .. | .zaddProcessing .. | .zremProcessing _ | .moveRetries ..
  | .recoverJobs .. => true
  | _ => false

/-- The commands that write `email_jobs`. -/
def Command.writesRows : Command → Bool
  | .createJob .. | .updateJobStatus .. | .updateJobAttempts .. => true
  | _ => false

/-- The commands that write a string key. -/
def Command.writesStrings : Command → Bool
  | .setEx .. | .setNxEx .. | .incrWithTtl .. => true
  | _ => false

theorem strings_of_exec (h : exec c b q = some (r, b')) (hq : q.writesStrings = true) :
    ∃ strings, b' = { b with redis.strings := strings } := by
  cases q <;> cases hq
  case setEx key value seconds =>
      simp only [exec] at h
      split at h <;> cases h
      exact ⟨_, rfl⟩
  case setNxEx key seconds =>
      simp only [exec] at h
      split at h
      · cases h
      · split at h <;> cases h <;> exact ⟨_, rfl⟩
  case incrWithTtl key seconds =>
      cases h
      simp only [Redis.incrWithTtl]
      split
      · split <;> exact ⟨_, rfl⟩
      · exact ⟨_, rfl⟩

/-- An insert has a fresh id, and writes that row. -/
theorem createJob_of_exec {jobType recipient templateName : String} {templateData : Value}
    {priority : Int} {id : Uuid}
    (h : exec c b (.createJob jobType recipient templateName templateData priority) = some (id, b')) :
    id = c.id ∧ b.db.jobs.lookup id = none ∧ ∃ job,
      job = Database.newJob id b.now jobType recipient templateName templateData priority
        ∧ b' = { b with db.jobs := b.db.jobs.insert id job } := by
  obtain ⟨db, hdb, h⟩ := Option.map_eq_some_iff.mp h
  cases h
  unfold Database.createJob at hdb
  split at hdb
  · cases hdb
  · rename_i hfresh
    cases hdb
    exact ⟨rfl, hfresh, _, rfl, rfl⟩

theorem lookup_updateJob (db : Database) (id : Uuid) (f : EmailJob → EmailJob) (j : Uuid) :
    (db.updateJob id f).jobs.lookup j
      = if j = id then (db.jobs.lookup id).map f else db.jobs.lookup j := by
  unfold Database.updateJob
  cases hid : db.jobs.lookup id with
  | none =>
      by_cases hjid : j = id
      · rw [if_pos hjid, hjid]
        exact hid
      · rw [if_neg hjid]
  | some old => exact Store.lookup_insert_eq ..

theorem sets_of_exec (h : exec c b q = some (r, b')) (hq : q.writesSets = false) :
    b'.redis.jobs = b.redis.jobs ∧ b'.redis.processing = b.redis.processing := by
  cases q <;> cases hq
  case setEx | setNxEx | incrWithTtl =>
      obtain ⟨strings, rfl⟩ := strings_of_exec h rfl
      exact ⟨rfl, rfl⟩
  case createJob jobType recipient templateName templateData priority =>
      obtain ⟨-, -, _, rfl, rfl⟩ := createJob_of_exec h
      exact ⟨rfl, rfl⟩
  case post payload =>
      cases h
      split <;> exact ⟨rfl, rfl⟩
  all_goals
    cases h
    exact ⟨rfl, rfl⟩

theorem rows_of_exec (h : exec c b q = some (r, b')) (hq : q.writesRows = false) :
    b'.db.jobs = b.db.jobs := by
  cases q <;> cases hq
  case setEx | setNxEx | incrWithTtl =>
      obtain ⟨strings, rfl⟩ := strings_of_exec h rfl
      rfl
  case post payload =>
      cases h
      split <;> rfl
  all_goals
    cases h
    rfl

/-- A command takes a job out of a set only by popping or removing it, or to put it into the queue. -/
theorem mem_jobs_of_exec (h : exec c b q = some (r, b')) {key : JobSet} (hj : j ∈ b.redis.jobs key) :
    (j ∈ b'.redis.jobs key ∨ j ∈ b'.redis.jobs .queue)
      ∨ (q = .zpopmin key ∧ (b.redis.jobs key).zrange.head? = some j) ∨ q = .zrem key j := by
  cases q with
  | zadd key' id score =>
      cases h
      exact .inl (.inl (Redis.mem_modify_zadd hj))
  | zpopmin key' =>
      cases h
      show (j ∈ (b.redis.zpopmin key').2.jobs key ∨ _) ∨ _
      unfold Redis.zpopmin
      cases hpop : (b.redis.jobs key').zpopmin with
      | none => exact .inl (.inl hj)
      | some popped =>
          obtain ⟨e, rest⟩ := popped
          by_cases hkey : key = key'
          · subst hkey
            by_cases hje : j = e.1
            · exact .inr (.inl ⟨rfl, by rw [SortedSet.zrange_of_zpopmin hpop, hje]; rfl⟩)
            · refine .inl (.inl ?_)
              rw [Redis.jobs_modify, if_pos rfl]
              exact ((SortedSet.mem_of_zpopmin hpop).2 j).mpr ⟨hje, hj⟩
          · refine .inl (.inl ?_)
            rwa [Redis.jobs_modify, if_neg hkey]
  | zrem key' id =>
      cases h
      show (j ∈ (b.redis.zrem key' id).2.jobs key ∨ _) ∨ _
      unfold Redis.zrem
      split
      · by_cases hkey : key = key'
        · subst hkey
          by_cases hid : j = id
          · exact .inr (.inr (by rw [hid]))
          · refine .inl (.inl ?_)
            rw [Redis.jobs_modify, if_pos rfl]
            exact SortedSet.mem_zrem.mpr ⟨hid, hj⟩
        · refine .inl (.inl ?_)
          rwa [Redis.jobs_modify, if_neg hkey]
      · exact .inl (.inl hj)
  | moveRetries now jobs =>
      cases h
      exact .inl (List.foldlRecOn (motive := fun r : Redis => j ∈ r.jobs key ∨ j ∈ r.jobs .queue) jobs _ (.inl hj)
        fun _ hr _ _ => Redis.mem_moveRetry hr)
  | recoverJobs now jobs =>
      cases h
      exact .inl (.inl (List.foldlRecOn (motive := fun r : Redis => j ∈ r.jobs key) jobs _ hj
        fun _ hr _ _ => Redis.mem_modify_zadd hr))
  | zaddProcessing member score =>
      cases h
      exact .inl (.inl hj)
  | zremProcessing member =>
      cases h
      exact .inl (.inl hj)
  | _ =>
      refine .inl (.inl ?_)
      rwa [(sets_of_exec h rfl).1]

/-- A command takes a job out of all sets only by popping or removing it. -/
theorem queued_of_exec (h : exec c b q = some (r, b')) {key : JobSet} (hj : j ∈ b.redis.jobs key) :
    b'.redis.isQueued j ∨ (q = .zpopmin key ∧ (b.redis.jobs key).zrange.head? = some j)
      ∨ q = .zrem key j := by
  refine (mem_jobs_of_exec h hj).imp_left fun hstays => ?_
  rcases hstays with hkey | hqueue
  · exact ⟨key, hkey⟩
  · exact ⟨.queue, hqueue⟩

/-- What is popped is the first of the set. -/
theorem popped_of_exec {key : JobSet} {popped : Option (Uuid × Int)}
    (h : exec c b (.zpopmin key) = some (popped, b')) (hhead : (b.redis.jobs key).zrange.head? = some j) :
    ∃ score, popped = some (j, score) := by
  cases h
  show ∃ score, (b.redis.zpopmin key).1 = _
  unfold Redis.zpopmin SortedSet.zpopmin
  obtain ⟨e, he, rfl⟩ := Option.map_eq_some_iff.mp (List.head?_map ▸ hhead)
  rw [he]
  exact ⟨e.1, rfl⟩

/-- A command takes a worker's entry off the processing set only by removing it. -/
theorem owned_of_exec (h : exec c b q = some (r, b')) {w : Uuid}
    (hj : .owned w j ∈ b.redis.processing) :
    .owned w j ∈ b'.redis.processing ∨ q = .zremProcessing (.owned w j) := by
  cases q with
  | zaddProcessing member score =>
      cases h
      exact .inl (SortedSet.mem_zadd.mpr (.inr hj))
  | zremProcessing member =>
      cases h
      by_cases hmember : .owned w j = member
      · exact .inr (by rw [hmember])
      · exact .inl (SortedSet.mem_zrem.mpr ⟨hmember, hj⟩)
  | recoverJobs now jobs =>
      cases h
      exact .inl (List.foldlRecOn (motive := fun r : Redis => .owned w j ∈ r.processing) jobs _ hj
        fun _ hr _ _ => Redis.owned_mem_recoverJob hr)
  | moveRetries now jobs =>
      cases h
      exact .inl (List.foldlRecOn (motive := fun r : Redis => .owned w j ∈ r.processing) jobs
        (Redis.moveRetry now) hj fun _ hr _ _ => hr)
  | zpopmin key =>
      cases h
      refine .inl ?_
      show .owned w j ∈ (b.redis.zpopmin key).2.processing
      unfold Redis.zpopmin
      split <;> exact hj
  | zrem key id =>
      cases h
      refine .inl ?_
      show .owned w j ∈ (b.redis.zrem key id).2.processing
      unfold Redis.zrem
      split <;> exact hj
  | zadd key id score =>
      cases h
      exact .inl hj
  | _ =>
      refine .inl ?_
      rwa [(sets_of_exec h rfl).2]

/-- What an email is made of stays as it was written. -/
structure EmailJob.SameMail (job job' : EmailJob) : Prop where
  recipientEmail : job'.recipientEmail = job.recipientEmail
  templateName : job'.templateName = job.templateName
  templateData : job'.templateData = job.templateData
  createdAt : job'.createdAt = job.createdAt

/-- A row is never removed; only a status update of its own changes its status. -/
theorem row_of_exec (h : exec c b q = some (r, b')) {job : EmailJob}
    (hj : b.db.jobs.lookup j = some job) :
    ∃ job', b'.db.jobs.lookup j = some job' ∧ job.SameMail job'
      ∧ (job'.status = job.status ∨ ∃ e, q = .updateJobStatus j job'.status e) := by
  have hsame : job.SameMail job := ⟨rfl, rfl, rfl, rfl⟩
  have hupdate : ∀ id f, job.SameMail (f job) →
      ∃ job', (b.db.updateJob id f).jobs.lookup j = some job' ∧ job.SameMail job'
        ∧ (job' = job ∨ id = j ∧ job' = f job) := by
    intro id f hf
    rw [lookup_updateJob]
    by_cases hjid : j = id
    · subst hjid
      rw [if_pos rfl, hj]
      exact ⟨f job, rfl, hf, .inr ⟨rfl, rfl⟩⟩
    · rw [if_neg hjid]
      exact ⟨job, hj, hsame, .inl rfl⟩
  cases q with
  | createJob jobType recipient templateName templateData priority =>
      obtain ⟨-, hfresh, _, rfl, rfl⟩ := createJob_of_exec h
      have hjid : j ≠ r := by
        rintro rfl
        exact absurd (hfresh.symm.trans hj) (by simp)
      exact ⟨job, by rw [Store.lookup_insert_eq]; exact (if_neg hjid).trans hj, hsame, .inl rfl⟩
  | updateJobStatus id status e =>
      cases h
      obtain ⟨job', hjob', hmail, rfl | ⟨rfl, rfl⟩⟩ := hupdate id
        (fun job => { job with status := status, errorMessage := e }) ⟨rfl, rfl, rfl, rfl⟩
      · exact ⟨job', hjob', hmail, .inl rfl⟩
      · exact ⟨_, hjob', hmail, .inr ⟨e, rfl⟩⟩
  | updateJobAttempts id attempts e =>
      cases h
      obtain ⟨job', hjob', hmail, rfl | ⟨rfl, rfl⟩⟩ := hupdate id
        (fun job => { job with attempts := attempts, errorMessage := e }) ⟨rfl, rfl, rfl, rfl⟩
      · exact ⟨job', hjob', hmail, .inl rfl⟩
      · exact ⟨_, hjob', hmail, .inl rfl⟩
  | _ => exact ⟨job, by rw [rows_of_exec h rfl]; exact hj, hsame, .inl rfl⟩

/-- A row that a command leaves has just been inserted, or was there before it. -/
theorem row_origin_of_exec (h : exec c b q = some (r, b')) {job' : EmailJob}
    (hj : b'.db.jobs.lookup j = some job') :
    (∃ jobType recipient templateName templateData priority,
        q = .createJob jobType recipient templateName templateData priority
          ∧ job' = Database.newJob j b.now jobType recipient templateName templateData priority)
      ∨ ∃ job, b.db.jobs.lookup j = some job ∧ job.SameMail job'
        ∧ (job'.status = job.status ∨ ∃ e, q = .updateJobStatus j job'.status e) := by
  cases hold : b.db.jobs.lookup j with
  | some job =>
      obtain ⟨_, hj', hmail, hstatus⟩ := row_of_exec h hold
      obtain rfl := Option.some.inj (hj'.symm.trans hj)
      exact .inr ⟨job, rfl, hmail, hstatus⟩
  | none =>
      -- only an insert makes a row
      have hupdate : ∀ id f, (b.db.updateJob id f).jobs.lookup j ≠ some job' := by
        intro id f
        rw [lookup_updateJob]
        split
        · subst j
          simp [hold]
        · simp [hold]
      cases q with
      | createJob jobType recipient templateName templateData priority =>
          obtain ⟨-, -, _, rfl, rfl⟩ := createJob_of_exec h
          rw [Store.lookup_insert_eq] at hj
          split at hj
          · subst j
            cases hj
            exact .inl ⟨_, _, _, _, _, rfl, rfl⟩
          · exact absurd (hold.symm.trans hj) (by simp)
      | updateJobStatus id status e =>
          cases h
          exact absurd hj (hupdate id _)
      | updateJobAttempts id attempts e =>
          cases h
          exact absurd hj (hupdate id _)
      | _ =>
          rw [rows_of_exec h rfl, hold] at hj
          cases hj

/-- A row that a command leaves is new and pending, or was there before it. -/
theorem row_before_exec (h : exec c b q = some (r, b')) {job' : EmailJob}
    (hj : b'.db.jobs.lookup j = some job') :
    job'.status = "pending" ∨ ∃ job, b.db.jobs.lookup j = some job ∧ job.SameMail job'
      ∧ (job'.status = job.status ∨ ∃ e, q = .updateJobStatus j job'.status e) := by
  refine (row_origin_of_exec h hj).imp_left fun hnew => ?_
  obtain ⟨_, _, _, _, _, _, rfl⟩ := hnew
  rfl

/-- What a command adds to the records that are never taken back. -/
structure Recorded (b : Backend) (q : Command) (b' : Backend) : Prop where
  suppressions : b'.db.suppressions = b.db.suppressions
  events : b'.db.events = b.db.events ∨ ∃ e, q = .createEvent e ∧ b'.db.events = b.db.events ++ [e]
  accepted : b'.accepted = b.accepted ∨ ∃ p, q = .post p ∧ b'.accepted = b.accepted ++ [p]

theorem recorded_of_exec (h : exec c b q = some (r, b')) : Recorded b q b' := by
  have hupdate : ∀ id f, Recorded b q { b with db := b.db.updateJob id f } := by
    intro id f
    unfold Database.updateJob
    split <;> exact ⟨rfl, .inl rfl, .inl rfl⟩
  cases q with
  | createEvent event =>
      cases h
      exact ⟨rfl, .inr ⟨event, rfl, rfl⟩, .inl rfl⟩
  | post p =>
      cases h
      split
      · exact ⟨rfl, .inl rfl, .inr ⟨p, rfl, rfl⟩⟩
      · exact ⟨rfl, .inl rfl, .inl rfl⟩
  | updateJobStatus id status e =>
      cases h
      exact hupdate id _
  | updateJobAttempts id attempts e =>
      cases h
      exact hupdate id _
  | createJob jobType recipient templateName templateData priority =>
      obtain ⟨-, -, _, rfl, rfl⟩ := createJob_of_exec h
      exact ⟨rfl, .inl rfl, .inl rfl⟩
  | setEx | setNxEx =>
      obtain ⟨strings, rfl⟩ := strings_of_exec h rfl
      exact ⟨rfl, .inl rfl, .inl rfl⟩
  | _ =>
      cases h
      exact ⟨rfl, .inl rfl, .inl rfl⟩

/-- A `SET NX` that sets nothing found its key. -/
theorem get_of_setNxEx {key : String} {seconds : Nat}
    (h : exec c b (.setNxEx key seconds) = some (false, b')) : b.redis.get b.now key ≠ none := by
  simp only [exec] at h
  split at h
  · cases h
  · split at h
    · rename_i value hget
      rw [hget]
      exact Option.some_ne_none value
    · cases h

/-- A request that is answered with success has been accepted. -/
theorem accepted_of_post {p : Payload} {response : Response}
    (h : exec c b (.post p) = some (response, b')) (hsuccess : response.isSuccess = true) :
    p ∈ b'.accepted := by
  cases h
  rw [if_pos hsuccess]
  exact List.mem_append_right _ (List.mem_singleton_self p)

/-- Rows stay through every way of answering a command. -/
theorem row_of_reply {P τ η : Type} {a : Act P τ String Choice η} {r : Except String (Reply q)}
    (h : Machine.reply server b a q = some (b', r)) (hrow : b.db.jobs.lookup j ≠ none) :
    b'.db.jobs.lookup j ≠ none := by
  have hexec : ∀ c v, exec c b q = some (v, b') → b'.db.jobs.lookup j ≠ none := by
    intro c v hexec
    obtain ⟨job, hjob⟩ := Option.ne_none_iff_exists'.mp hrow
    obtain ⟨job', hjob', _⟩ := row_of_exec hexec hjob
    rw [hjob']
    exact Option.some_ne_none job'
  rcases reply_cases h with ⟨_, c, v, -, -, h⟩ | ⟨e, -, rfl⟩ | ⟨_, c, e, v, -, -, h⟩
  · exact hexec c v h
  · exact hrow
  · exact hexec c v h

/-- A created job has its row. -/
theorem row_of_createJob {jobType recipient templateName : String} {templateData : Value}
    {priority : Int} {id : Uuid}
    (h : exec c b (.createJob jobType recipient templateName templateData priority) = some (id, b')) :
    b'.db.jobs.lookup id
      = some (Database.newJob id b.now jobType recipient templateName templateData priority) := by
  obtain ⟨-, -, _, rfl, rfl⟩ := createJob_of_exec h
  exact AList.lookup_insert _

end Exec

end PredictIQ.Email
