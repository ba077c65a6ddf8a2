/-
  PredictIQ.Email.SingleSend: no job's email is sent twice.

  A worker posts a job's email only after a `SET NX` of the job's key that it
  has won, and posts no more once SendGrid has accepted or the request has
  failed.  `sendMonitor` keeps that discipline for one process; between the
  processes it is the key that decides, for as long as Redis keeps it.
-/
import PredictIQ.Email.CompletedSends

namespace PredictIQ.Email

open Foundation

/-! ## §1. One process. -/

/-- Where a process stands with the email of its job: it may take the key, it
has taken it and may post, or it has posted. -/
inductive SendStage where
  | idle | acquired | spent
  deriving DecidableEq, Repr

/-- The row of the job a process works on, and how far its email has come. -/
structure Sending where
  job : Option (Uuid × EmailJob)
  stage : SendStage

namespace Sending

def next : Sending → (q : Command) → Except String (Reply q) → Sending
  | s, .getJob id, .ok (some job) => if s.job.map Prod.fst = some id then s else ⟨some (id, job), .idle⟩
  | s, .setNxEx _ _, .ok true => ⟨s.job, .acquired⟩
  | s, .post _, .ok response => if response.isSuccess then ⟨s.job, .spent⟩ else s
  | s, .post _, .error _ => ⟨s.job, .spent⟩
  | s, _, _ => s

/-- The key of its own job is the only idempotency key a process writes, and it
writes it once; it posts while it has the key and nothing was accepted. -/
def allows (svc : EmailService) : Sending → Command → Prop
  | s, .setNxEx key seconds => s.stage = .idle ∧ seconds = svc.idempotencyTtl
      ∧ ∃ id job, s.job = some (id, job) ∧ key = idempotencyRedisKey (svc.idempotencyKeyOf job)
  | s, .post _ => s.stage = .acquired
  | _, .setEx key _ _ => ∀ idem, key ≠ idempotencyRedisKey idem
  | _, .incrWithTtl key _ => ∀ idem, key ≠ idempotencyRedisKey idem
  | _, _ => True

end Sending

def sendMonitor (svc : EmailService) : Monitor Reply String Sending :=
  ⟨⟨none, .idle⟩, Sending.next, Sending.allows svc⟩

variable {svc : EmailService}

/-- Keys of two families differ in their first seven letters. -/
theorem append_ne_append {s t : String} (x y : String) (hs : 7 ≤ s.toList.length) (ht : 7 ≤ t.toList.length)
    (hne : s.toList.take 7 ≠ t.toList.take 7) : s ++ x ≠ t ++ y := by
  intro h
  have htake := congrArg (fun u : String => u.toList.take 7) h
  simp only [String.toList_append] at htake
  rw [List.take_append_of_le_length hs, List.take_append_of_le_length ht] at htake
  exact hne htake

theorem heartbeatKey_ne (worker idem : String) : heartbeatKey worker ≠ idempotencyRedisKey idem :=
  append_ne_append worker idem (by decide) (by decide) (by decide)

theorem rateKey_ne (rest idem : String) : "email:rate:" ++ rest ≠ idempotencyRedisKey idem :=
  append_ne_append rest idem (by decide) (by decide) (by decide)

/-- A command that is allowed at every stage. -/
def Steady (svc : EmailService) (q : Command) : Prop := ∀ s, (sendMonitor svc).allows s q

/-- A command that is allowed at every stage and changes none. -/
def Quiet (svc : EmailService) (q : Command) : Prop :=
  Steady svc q ∧ ∀ s r, (sendMonitor svc).next s q r = s

theorem quiet_of_lookup {q : Command} (hq : q.isBackground = true) (hwrites : q.writesStrings = false) :
    Quiet svc q := by
  cases q <;> cases hq <;> cases hwrites
  all_goals
    refine ⟨fun _ => trivial, fun s r => ?_⟩
    cases r <;> rfl

theorem steady_of_bookkeeping {q : Command} (hq : q.isBookkeeping = true) : Steady svc q := by
  intro s
  cases q <;> trivial

theorem quiet_heartbeat (worker : String) (value : Int) (seconds : Nat) :
    Quiet svc (.setEx (heartbeatKey worker) value seconds) :=
  ⟨fun _ => heartbeatKey_ne worker, fun s r => by cases r <;> rfl⟩

theorem quiet_rate (rest : String) (seconds : Nat) : Quiet svc (.incrWithTtl ("email:rate:" ++ rest) seconds) :=
  ⟨fun _ => rateKey_ne rest, fun s r => by cases r <;> rfl⟩

/-! ## §2. What each program sends. -/

section Programs

open Monitor

variable {j : Uuid} {job : EmailJob}

theorem quietly_then {α β : Type} {s : Sending} {p : EmailM α} {f : α → EmailM β}
    {post : Sending → Except String β → Prop} (hp : p.Uses (Quiet svc))
    (hok : ∀ a, (sendMonitor svc).Obeys post s (f a)) (herr : ∀ e, post s (.error e)) :
    (sendMonitor svc).Obeys post s (p >>= f) :=
  obeys_bind_of_uses hp (fun _ hq => ⟨hq.1 s, hq.2 s⟩) hok herr

/-- From here on nothing is sent, whatever the stage. -/
theorem steadily {α : Type} {s : Sending} {p : EmailM α} (hp : p.Uses (Steady svc)) :
    (sendMonitor svc).Obeys (fun _ _ => True) s p :=
  obeys_of_uses_allowed hp fun s _ hq => hq s

/-- **A post is repeated only while nothing was accepted.** -/
theorem postRetrying_sends (p : Payload) (n : Nat) :
    (sendMonitor svc).Obeys (fun _ _ => True) ⟨some (j, job), .acquired⟩ (svc.postRetrying p n) := by
  have hnext : ∀ response : Response, (sendMonitor svc).next ⟨some (j, job), .acquired⟩ (.post p) (.ok response)
      = if response.isSuccess then ⟨some (j, job), .spent⟩ else ⟨some (j, job), .acquired⟩ := fun _ => rfl
  induction n with
  | zero =>
      refine obeys_mapError_call_bind.mpr ⟨rfl, fun response => ?_, fun e => trivial⟩
      cases response.isSuccess <;> trivial
  | succ n ih =>
      refine obeys_mapError_call_bind.mpr ⟨rfl, fun response => ?_, fun e => trivial⟩
      rw [hnext]
      cases response.isSuccess with
      | true => trivial
      | false =>
          cases EmailService.shouldRetry response.status with
          | true => exact ih
          | false => trivial

/-- The key is taken before the post, where there is a cache. -/
theorem acquire_sends (hcache : svc.cache ≠ none) :
    (sendMonitor svc).Obeys (fun s r => r = .ok true → s = ⟨some (j, job), .acquired⟩)
      ⟨some (j, job), .idle⟩ (svc.acquire (some (svc.idempotencyKeyOf job))) := by
  unfold EmailService.acquire
  cases hc : svc.cache with
  | none => exact absurd hc hcache
  | some retryAttempts =>
      refine quietly_then ((getConnection_uses fun _ => quiet_of_lookup).mapError _) (fun _ => ?_) fun e => nofun
      refine obeys_mapError.mpr ⟨⟨rfl, rfl, j, job, rfl, rfl⟩, ?_⟩
      rintro (e | _ | _)
      · exact nofun
      · exact nofun
      · exact fun _ => rfl

theorem sendEmailIdempotent_sends (hcache : svc.cache ≠ none) :
    (sendMonitor svc).Obeys (fun _ _ => True) ⟨some (j, job), .idle⟩
      (svc.sendEmailIdempotent job.recipientEmail job.templateName job.templateData
        (some (svc.idempotencyKeyOf job))) := by
  have hrate : ∀ now, Quiet svc
      (.incrWithTtl ("email:rate:" ++ job.recipientEmail ++ ":" ++ toString (hourBucket now)) 3600) := by
    intro now
    rw [String.append_assoc, String.append_assoc]
    exact quiet_rate _ _
  refine quietly_then (svc.checkRateLimit_uses (fun _ => quiet_of_lookup) _ hrate) (fun _ => ?_) fun e => trivial
  refine obeys_bind.mpr ((acquire_sends hcache).mono ?_)
  rintro s (e | _ | _) hacquired
  · trivial
  · trivial
  · obtain rfl := hacquired rfl
    rw [andThen_ok, if_pos rfl]
    -- the request is one value from here on, whatever it is made of
    generalize svc.payload job.recipientEmail job.templateName job.templateData = p
    cases p with
    | error e => trivial
    | ok p => exact postRetrying_sends p _

theorem processJob_sends (hcache : svc.cache ≠ none) (j : Uuid) :
    (sendMonitor svc).Obeys (fun _ _ => True) (sendMonitor svc).start (processJob svc j) := by
  have hcompleted : ∀ s messageId, (sendMonitor svc).Obeys (fun _ _ => True) s (markCompleted j messageId) :=
    fun s messageId => steadily (markCompleted_uses (fun _ hq hw => (quiet_of_lookup hq hw).1)
      (fun _ => steady_of_bookkeeping) j messageId (fun _ => trivial) fun _ _ => trivial)
  refine obeys_call_bind.mpr ⟨trivial, fun row => ?_, fun e => trivial⟩
  cases row with
  | none => trivial
  | some job =>
      -- the row is read: the process works on its job
      show (sendMonitor svc).Obeys _ (⟨some (j, job), .idle⟩ : Sending) _
      refine obeys_call_bind.mpr ⟨trivial, fun suppressed => ?_, fun e => trivial⟩
      cases suppressed with
      | true => exact hcompleted _ none
      | false =>
          refine obeys_call_bind.mpr ⟨trivial, fun u => ?_, fun e => trivial⟩
          refine obeys_bind.mpr ((sendEmailIdempotent_sends hcache).mono ?_)
          rintro s (e | messageId) -
          · trivial
          · exact hcompleted s (some messageId)

theorem workerTurn_sends (hcache : svc.cache ≠ none) (workerId : Uuid) :
    (sendMonitor svc).Obeys (fun _ _ => True) (sendMonitor svc).start (workerTurn svc workerId) := by
  have hpop : Quiet svc (.zpopmin .queue) := ⟨fun _ => trivial, fun s r => by cases r <;> rfl⟩
  have hput : ∀ member score, Quiet svc (.zaddProcessing member score) :=
    fun _ _ => ⟨fun _ => trivial, fun s r => by cases r <;> rfl⟩
  refine quietly_then (updateWorkerHeartbeat_uses (fun _ => quiet_of_lookup) _
    fun value => quiet_heartbeat _ _ _).attempt (fun _ => ?_) fun e => trivial
  refine quietly_then (processRetries_uses fun _ => quiet_of_lookup).attempt (fun _ => ?_) fun e => trivial
  refine quietly_then (dequeue_uses (fun _ => quiet_of_lookup) hpop hput workerId).attempt
    (fun dequeued => ?_) fun e => trivial
  rcases dequeued with e | _ | j
  · trivial
  · trivial
  · refine obeys_bind.mpr (obeys_attempt.mpr ((processJob_sends hcache j).mono ?_))
    rintro s (e | u) -
    · have hfailed := markFailed_uses (S := Steady svc) (fun _ hq hw => (quiet_of_lookup hq hw).1)
        (fun _ => steady_of_bookkeeping) j e fun _ => trivial
      exact steadily (Prog.Uses.bind hfailed.attempt fun _ => Prog.uses_pure ())
    · trivial

/-- **Every program keeps to the discipline of sending.** -/
theorem body_sends (hcache : svc.cache ≠ none) (pid : Uuid) (task : Task) :
    (sendMonitor svc).Obeys (fun _ _ => True) (sendMonitor svc).start (body svc pid task) := by
  have hS : ∀ q, q.isBackground = true → q.writesStrings = false → Steady svc q :=
    fun _ hq hw => (quiet_of_lookup hq hw).1
  cases task with
  | enqueue jobType recipient templateName templateData priority =>
      have henqueue := enqueue_uses hS (fun _ => steady_of_bookkeeping) jobType recipient templateName
        templateData priority
      exact steadily (Prog.Uses.bind henqueue fun _ => trivial)
  | requeueDeadLetter j =>
      have hrequeue := requeueDeadLetter_uses hS (fun _ => steady_of_bookkeeping) j fun _ => trivial
      exact steadily (Prog.Uses.bind hrequeue fun _ => trivial)
  | workerStartup order staleThresholdSecs =>
      exact steadily (Prog.Uses.bind (recoverOrphanedJobs_uses hS order staleThresholdSecs).attempt fun _ => trivial)
  | workerTurn => exact workerTurn_sends hcache pid

end Programs

/-! ## §3. Keys that Redis holds. -/

section Keys

variable {c : Choice} {b b' : Backend} {q : Command} {v : Reply q} {key : String} {until' : Int}

/-- A key is held until `until'` or longer. -/
def Held (b : Backend) (key : String) (until' : Int) : Prop :=
  ∃ entry, b.redis.strings.lookup key = some entry ∧ until' ≤ entry.expiresAt

/-- A key is held by who looks at it in time. -/
theorem Held.get_ne_none (h : Held b key until') (hnow : b.now < until') : b.redis.get b.now key ≠ none := by
  obtain ⟨entry, hentry, hexp⟩ := h
  rw [Redis.get, hentry]
  simp [hnow.trans_le hexp]

/-- A `SET NX` finds the key, or finds none and sets it. -/
theorem setNxEx_of_exec {seconds : Nat} {acquired : Bool}
    (h : exec c b (.setNxEx key seconds) = some (acquired, b')) :
    (acquired = false ∧ b' = b ∧ b.redis.get b.now key ≠ none)
      ∨ (acquired = true ∧ b.redis.get b.now key = none
        ∧ b' = { b with redis := b.redis.setEx b.now key 1 seconds }) := by
  simp only [exec] at h
  split at h
  · cases h
  · split at h
    · rename_i value hget
      cases h
      exact .inl ⟨rfl, rfl, by simp [hget]⟩
    · rename_i hget
      cases h
      exact .inr ⟨rfl, hget, rfl⟩

/-- The other commands leave the clock and the string keys alone. -/
theorem strings_of_exec_of_not (h : exec c b q = some (v, b')) (hq : q.writesStrings = false) :
    b'.now = b.now ∧ b'.redis.strings = b.redis.strings := by
  have hfold : ∀ (f : Redis → Uuid → Redis) (jobs : List Uuid), (∀ r j, (f r j).strings = r.strings) →
      ∀ r, (jobs.foldl f r).strings = r.strings := by
    intro f jobs hf
    induction jobs with
    | nil => exact fun r => rfl
    | cons j jobs ih => exact fun r => (ih (f r j)).trans (hf r j)
  cases q <;> cases hq
  case zpopmin key =>
      cases h
      refine ⟨rfl, ?_⟩
      show (b.redis.zpopmin key).2.strings = _
      unfold Redis.zpopmin
      split <;> rfl
  case zrem key job =>
      cases h
      refine ⟨rfl, ?_⟩
      show (b.redis.zrem key job).2.strings = _
      unfold Redis.zrem
      split <;> rfl
  case moveRetries now jobs =>
      cases h
      exact ⟨rfl, hfold (Redis.moveRetry now) jobs (fun r j => rfl) _⟩
  case recoverJobs now jobs =>
      cases h
      exact ⟨rfl, hfold (Redis.recoverJob now) jobs (fun r j => rfl) _⟩
  case createJob jobType recipient templateName templateData priority =>
      obtain ⟨-, -, _, -, rfl⟩ := createJob_of_exec h
      exact ⟨rfl, rfl⟩
  case post payload =>
      cases h
      split <;> exact ⟨rfl, rfl⟩
  all_goals
    cases h
    exact ⟨rfl, rfl⟩

theorem now_of_exec (h : exec c b q = some (v, b')) : b'.now = b.now := by
  cases hq : q.writesStrings with
  | true =>
      obtain ⟨strings, rfl⟩ := strings_of_exec h hq
      rfl
  | false => exact (strings_of_exec_of_not h hq).1

/-- A string key changes by a command that writes it. -/
theorem lookup_strings_of_exec (h : exec c b q = some (v, b')) (hset : ∀ value seconds, q ≠ .setEx key value seconds)
    (hsetNx : ∀ seconds, q ≠ .setNxEx key seconds) (hincr : ∀ seconds, q ≠ .incrWithTtl key seconds) :
    b'.redis.strings.lookup key = b.redis.strings.lookup key := by
  -- what is written lies under another key
  have hother : ∀ {key'} {entry : StringEntry}, key ≠ key' →
      (b.redis.strings.insert key' entry).lookup key = b.redis.strings.lookup key :=
    fun hne => (Store.lookup_insert_eq ..).trans (if_neg hne)
  cases q with
  | setEx key' value seconds =>
      have hne : key ≠ key' := by
        rintro rfl
        exact hset value seconds rfl
      simp only [exec] at h
      split at h
      · cases h
      · cases h
        exact hother hne
  | setNxEx key' seconds =>
      have hne : key ≠ key' := by
        rintro rfl
        exact hsetNx seconds rfl
      rcases setNxEx_of_exec h with ⟨-, rfl, -⟩ | ⟨-, -, rfl⟩
      · rfl
      · exact hother hne
  | incrWithTtl key' seconds =>
      have hne : key ≠ key' := by
        rintro rfl
        exact hincr seconds rfl
      cases h
      unfold Redis.incrWithTtl
      split
      · split <;> exact hother hne
      · exact hother hne
  | _ => rw [(strings_of_exec_of_not h rfl).2]

/-- **A held key stays held**: only a command that overwrites it could take it. -/
theorem Held.keep (h : Held b key until') (hnow : b.now < until') (hexec : exec c b q = some (v, b'))
    (hset : ∀ value seconds, q ≠ .setEx key value seconds) (hincr : ∀ seconds, q ≠ .incrWithTtl key seconds) :
    Held b' key until' := by
  by_cases hsetNx : ∃ seconds, q = .setNxEx key seconds
  · obtain ⟨seconds, rfl⟩ := hsetNx
    rcases setNxEx_of_exec hexec with ⟨-, rfl, -⟩ | ⟨-, hnone, -⟩
    · exact h
    · exact absurd hnone (h.get_ne_none hnow)
  · unfold Held
    rw [lookup_strings_of_exec hexec hset (fun seconds hq => hsetNx ⟨seconds, hq⟩) hincr]
    exact h

end Keys

/-! ## §4. The email of one job. -/

/-- The key of a job in Redis. -/
def EmailService.redisKeyOf (svc : EmailService) (job : EmailJob) : String :=
  idempotencyRedisKey (svc.idempotencyKeyOf job)

theorem EmailJob.SameMail.redisKeyOf {job job' : EmailJob} (h : job.SameMail job') (svc : EmailService) :
    svc.redisKeyOf job' = svc.redisKeyOf job := by
  unfold EmailService.redisKeyOf EmailService.idempotencyKeyOf
  rw [h.recipientEmail, h.templateName, h.createdAt]

/-- The process works on the job and may post its email. -/
def Sending.MayPost (s : Sending) (j : Uuid) : Prop := s.job.map Prod.fst = some j ∧ s.stage = .acquired

theorem not_mayPost_idle (job : Option (Uuid × EmailJob)) (j : Uuid) : ¬Sending.MayPost ⟨job, .idle⟩ j := by
  rintro ⟨-, ⟨⟩⟩

theorem not_mayPost_spent (job : Option (Uuid × EmailJob)) (j : Uuid) : ¬Sending.MayPost ⟨job, .spent⟩ j := by
  rintro ⟨-, ⟨⟩⟩

/-- The rows that processes work on are stored. -/
def Stored (b : Backend) (φ : Uuid → Sending) : Prop :=
  ∀ p id job, (φ p).job = some (id, job) → ∃ row, b.db.jobs.lookup id = some row ∧ job.SameMail row

/-- As long as the key of job `j` is held: at most one process may post, none
once `n = 1` email was accepted, and the key is held as soon as either is so. -/
structure Window (svc : EmailService) (j : Uuid) (until' : Int) (b : Backend) (φ : Uuid → Sending) (n : Nat) :
    Prop where
  count : n ≤ 1
  unique : ∀ p p', (φ p).MayPost j → (φ p').MayPost j → p = p'
  spent : 1 ≤ n → ∀ p, ¬(φ p).MayPost j
  held : (1 ≤ n ∨ ∃ p, (φ p).MayPost j) →
    ∃ row, b.db.jobs.lookup j = some row ∧ Held b (svc.redisKeyOf row) until'

section Windows

variable {svc : EmailService} {j p : Uuid} {until' : Int} {b b' : Backend} {φ : Uuid → Sending} {ψ : Sending}
  {n : Nat} {c : Choice} {q : Command} {v : Reply q}

/-- Processes that may post no more than before. -/
theorem Window.weaken {φ' : Uuid → Sending} (h : Window svc j until' b φ n)
    (hmay : ∀ p, (φ' p).MayPost j → (φ p).MayPost j) : Window svc j until' b φ' n := by
  refine ⟨h.count, fun p₁ p₂ h₁ h₂ => h.unique p₁ p₂ (hmay p₁ h₁) (hmay p₂ h₂),
    fun hn p' hp' => h.spent hn p' (hmay p' hp'), fun hor => h.held (hor.imp_right ?_)⟩
  rintro ⟨p', hp'⟩
  exact ⟨p', hmay p' hp'⟩

theorem Window.retreat (h : Window svc j until' b φ n) (hψ : ψ.MayPost j → (φ p).MayPost j) :
    Window svc j until' b (Function.update φ p ψ) n := by
  refine h.weaken fun p' hp' => ?_
  by_cases hpp : p' = p
  · subst hpp
    rw [Function.update_self] at hp'
    exact hψ hp'
  · rwa [Function.update_of_ne hpp] at hp'

/-- The key of the job stays held while the window is open. -/
theorem Window.keep (h : Window svc j until' b φ n) (hnow : b.now < until') (hexec : exec c b q = some (v, b'))
    (hallows : Sending.allows svc (φ p) q) : Window svc j until' b' φ n := by
  refine ⟨h.count, h.unique, h.spent, fun hor => ?_⟩
  obtain ⟨row, hrow, hheld⟩ := h.held hor
  obtain ⟨row', hrow', hmail, -⟩ := row_of_exec hexec hrow
  refine ⟨row', hrow', ?_⟩
  rw [hmail.redisKeyOf]
  refine hheld.keep hnow hexec ?_ ?_
  · rintro value seconds rfl
    exact hallows _ rfl
  · rintro seconds rfl
    exact hallows _ rfl

theorem Stored.keep (h : Stored b φ) (hexec : exec c b q = some (v, b')) : Stored b' φ := by
  intro p id job hjob
  obtain ⟨row, hrow, hmail⟩ := h p id job hjob
  obtain ⟨row', hrow', hmail', -⟩ := row_of_exec hexec hrow
  exact ⟨row', hrow', hmail.trans hmail'⟩

/-- Only a `SET NX` that is won lets a process post. -/
theorem mayPost_of_next {s : Sending} {r : Except String (Reply q)} (hq : ∀ key seconds, q ≠ .setNxEx key seconds)
    (h : (s.next q r).MayPost j) : s.MayPost j := by
  cases q with
  | setNxEx key seconds => exact absurd rfl (hq key seconds)
  | getJob id =>
      rcases r with e | _ | job
      · exact h
      · exact h
      · simp only [Sending.next] at h
        split at h
        · exact h
        · exact absurd h (not_mayPost_idle _ j)
  | post payload =>
      rcases r with e | response
      · exact absurd h (not_mayPost_spent _ j)
      · simp only [Sending.next] at h
        split at h
        · exact absurd h (not_mayPost_spent _ j)
        · exact h
  | _ =>
      cases r <;> exact h

/-- The answer leaves one email more of job `j` with SendGrid. -/
def accepting (s : Sending) (j : Uuid) (q : Command) (b b' : Backend) : Bool :=
  match q with
  | .post _ => s.job.map Prod.fst == some j && decide (b.accepted.length < b'.accepted.length)
  | _ => false

/-- Who has an email accepted may post no more. -/
theorem not_mayPost_of_accepting {s : Sending} {r : Except String (Reply q)} (hexec : exec c b q = some (v, b'))
    (hr : r = .ok v ∨ ∃ e, r = .error e) (h : accepting s j q b b' = true) : ¬(s.next q r).MayPost j := by
  cases q with
  | post payload =>
      obtain ⟨-, hmore⟩ := Bool.and_eq_true_iff.mp h
      rcases hr with rfl | ⟨e, rfl⟩
      · cases hexec
        cases hsuccess : c.response.isSuccess with
        | true =>
            simp only [Sending.next, hsuccess, if_true]
            exact not_mayPost_spent _ j
        | false => simp [hsuccess] at hmore
      · exact not_mayPost_spent _ j
  | _ => cases h

/-- **A `SET NX` of the job's key.** -/
theorem Window.setNxEx (h : Window svc j until' b φ n) (hstored : Stored b φ) (hnow : b.now < until')
    (hfirst : until' ≤ b.now + svc.idempotencyTtl) {key : String} {seconds : Nat} {acquired : Bool}
    (hexec : exec c b (.setNxEx key seconds) = some (acquired, b'))
    (hallows : Sending.allows svc (φ p) (.setNxEx key seconds)) {r : Except String Bool}
    (hr : r = .ok acquired ∨ ∃ e, r = .error e) :
    Window svc j until' b' (Function.update φ p ((φ p).next (.setNxEx key seconds) r)) n := by
  have hafter := h.keep hnow hexec hallows
  obtain ⟨hidle, rfl, id, job, hjob, rfl⟩ := hallows
  have hnot : ¬(φ p).MayPost j := fun hmay => absurd (hidle.symm.trans hmay.2) (by decide)
  rcases setNxEx_of_exec hexec with ⟨rfl, -, -⟩ | ⟨rfl, hfree, rfl⟩
  · -- the key is taken, and nothing changes
    refine hafter.retreat fun hmay => ?_
    rcases hr with rfl | ⟨e, rfl⟩ <;> exact hmay
  · rcases hr with rfl | ⟨e, rfl⟩
    · by_cases hid : id = j
      · subst hid
        obtain ⟨row, hrow, hmail⟩ := hstored p id job hjob
        -- the key was free, so nobody has sent the email or is about to
        have hnobody : ¬(1 ≤ n ∨ ∃ p', (φ p').MayPost id) := by
          intro hor
          obtain ⟨row', hrow', hheld⟩ := h.held hor
          obtain rfl := Option.some.inj (hrow.symm.trans hrow')
          rw [hmail.redisKeyOf] at hheld
          exact hheld.get_ne_none hnow hfree
        have honly : ∀ p', (Function.update φ p ((φ p).next (.setNxEx (svc.redisKeyOf job) svc.idempotencyTtl)
            (.ok true)) p').MayPost id → p' = p := by
          intro p' hmay
          by_contra hpp
          rw [Function.update_of_ne hpp] at hmay
          exact hnobody (.inr ⟨p', hmay⟩)
        refine ⟨h.count, fun p₁ p₂ h₁ h₂ => (honly p₁ h₁).trans (honly p₂ h₂).symm,
          fun hn => absurd (.inl hn) hnobody, fun _ => ⟨row, hrow, ?_⟩⟩
        rw [hmail.redisKeyOf]
        exact ⟨⟨1, b.now + svc.idempotencyTtl⟩, (Store.lookup_insert_eq ..).trans (if_pos rfl), hfirst⟩
      · refine hafter.retreat fun hmay => absurd (Option.some.inj ?_) hid
        have hfst := hmay.1
        simp only [Sending.next, hjob] at hfst
        exact hfst
    · exact hafter.retreat fun hmay => hmay

/-- **One answer.** -/
theorem Window.answer (h : Window svc j until' b φ n) (hstored : Stored b φ) (hnow : b.now < until')
    (hfirst : until' ≤ b.now + svc.idempotencyTtl) (hexec : exec c b q = some (v, b'))
    (hallows : Sending.allows svc (φ p) q) {r : Except String (Reply q)} (hr : r = .ok v ∨ ∃ e, r = .error e) :
    Window svc j until' b' (Function.update φ p ((φ p).next q r)) (n + (accepting (φ p) j q b b').toNat) := by
  by_cases hset : ∃ key seconds, q = .setNxEx key seconds
  · obtain ⟨key, seconds, rfl⟩ := hset
    exact h.setNxEx hstored hnow hfirst hexec hallows hr
  · push Not at hset
    have hafter := h.keep hnow hexec hallows
    cases hacc : accepting (φ p) j q b b' with
    | false => exact hafter.retreat (mayPost_of_next hset)
    | true =>
        have hnext := not_mayPost_of_accepting hexec hr hacc
        -- the process could post, so nothing was sent, and no other process can
        have hmay : (φ p).MayPost j := by
          cases q with
          | post payload => exact ⟨beq_iff_eq.mp (Bool.and_eq_true_iff.mp hacc).1, hallows⟩
          | _ => cases hacc
        have hzero : n = 0 := by
          by_contra hn
          exact h.spent (Nat.one_le_iff_ne_zero.mpr hn) p hmay
        have hnobody : ∀ p', ¬(Function.update φ p ((φ p).next q r) p').MayPost j := by
          intro p' hmay'
          by_cases hpp : p' = p
          · subst hpp
            rw [Function.update_self] at hmay'
            exact hnext hmay'
          · rw [Function.update_of_ne hpp] at hmay'
            exact hpp (h.unique p' p hmay' hmay)
        subst hzero
        exact ⟨le_rfl, fun p₁ _ h₁ => absurd h₁ (hnobody p₁), fun _ => hnobody, fun _ => hafter.held (.inr ⟨p, hmay⟩)⟩

/-- An error lets nobody post. -/
theorem mayPost_of_next_error {s : Sending} {e : String} (h : (s.next q (.error e)).MayPost j) : s.MayPost j := by
  by_cases hset : ∃ key seconds, q = .setNxEx key seconds
  · obtain ⟨key, seconds, rfl⟩ := hset
    exact h
  · push Not at hset
    exact mayPost_of_next hset h

theorem not_accepting_self (s : Sending) (j : Uuid) (q : Command) (b : Backend) : accepting s j q b b = false := by
  cases q <;> simp [accepting]

/-- Nothing was sent and nobody may post. -/
theorem Window.empty (hnobody : ∀ p, ¬(φ p).MayPost j) : Window svc j until' b φ 0 where
  count := Nat.zero_le 1
  unique p _ hp := absurd hp (hnobody p)
  spent h := absurd h (by decide)
  held h := by
    rcases h with h | ⟨p, hp⟩
    · exact absurd h (by decide)
    · exact absurd hp (hnobody p)

/-- A window is about the rows and the string keys only. -/
theorem Window.congr (h : Window svc j until' b φ n) (hjobs : b'.db.jobs = b.db.jobs)
    (hstrings : b'.redis.strings = b.redis.strings) : Window svc j until' b' φ n := by
  refine ⟨h.count, h.unique, h.spent, fun hor => ?_⟩
  obtain ⟨row, hrow, entry, hentry, hexp⟩ := h.held hor
  exact ⟨row, hjobs ▸ hrow, entry, hstrings ▸ hentry, hexp⟩

/-- What a process is about may be forgotten: its job, and that it may post. -/
structure Forgets (j : Uuid) (s s' : Sending) : Prop where
  job : ∀ id job, s'.job = some (id, job) → s.job = some (id, job)
  mayPost : s'.MayPost j → s.MayPost j

theorem Forgets.refl (s : Sending) : Forgets j s s := ⟨fun _ _ h => h, fun h => h⟩

theorem forgets_start (s : Sending) : Forgets j s (sendMonitor svc).start :=
  ⟨fun _ _ => nofun, fun h => absurd h (not_mayPost_idle none j)⟩

/-- An error teaches a process nothing. -/
theorem forgets_next_error (s : Sending) (q : Command) (e : String) : Forgets j s (s.next q (.error e)) := by
  refine ⟨fun id job h => ?_, mayPost_of_next_error⟩
  cases q <;> exact h

theorem Forgets.trans {s s' s'' : Sending} (h : Forgets j s s') (h' : Forgets j s' s'') : Forgets j s s'' :=
  ⟨fun id job hjob => h.job id job (h'.job id job hjob), fun hmay => h.mayPost (h'.mayPost hmay)⟩

theorem forgets_phaseOf (rest : Prog Reply String Unit) (s : Sending) :
    Forgets j s (Machine.phaseOf (sendMonitor svc) rest s) := by
  cases rest with
  | done res => exact forgets_start s
  | ask q k => exact .refl s

theorem Forgets.update (hψ : Forgets j (φ p) ψ) (p' : Uuid) : Forgets j (φ p') (Function.update φ p ψ p') := by
  by_cases hpp : p' = p
  · subst hpp
    rwa [Function.update_self]
  · rw [Function.update_of_ne hpp]
    exact .refl (φ p')

theorem Stored.forget {φ' : Uuid → Sending} (h : Stored b φ) (hφ' : ∀ p, Forgets j (φ p) (φ' p)) :
    Stored b φ' :=
  fun p id job hjob => h p id job ((hφ' p).job id job hjob)

/-- The answer brings the row that is read, and otherwise teaches nothing of rows. -/
theorem Stored.next {r : Except String (Reply q)} (h : Stored b φ) (hexec : exec c b q = some (v, b'))
    (hr : r = .ok v ∨ ∃ e, r = .error e) : Stored b' (Function.update φ p ((φ p).next q r)) := by
  have hafter := h.keep hexec
  have hnext : ∀ id job, ((φ p).next q r).job = some (id, job) →
      (φ p).job = some (id, job) ∨ q = .getJob id ∧ b.db.jobs.lookup id = some job := by
    intro id job hjob
    rcases hr with rfl | ⟨e, rfl⟩
    · cases q with
      | getJob id' =>
          obtain ⟨hrow, rfl⟩ := Prod.mk.inj (Option.some.inj hexec)
          cases v with
          | none => exact .inl hjob
          | some row =>
              simp only [Sending.next] at hjob
              split at hjob
              · exact .inl hjob
              · obtain ⟨rfl, rfl⟩ := Prod.mk.inj (Option.some.inj hjob)
                exact .inr ⟨rfl, hrow⟩
      | post payload =>
          simp only [Sending.next] at hjob
          split at hjob <;> exact .inl hjob
      | setNxEx key seconds => cases v <;> exact .inl hjob
      | _ => exact .inl hjob
    · exact .inl ((forgets_next_error (j := id) (φ p) q e).job id job hjob)
  intro p' id job hjob
  by_cases hpp : p' = p
  · subst hpp
    rw [Function.update_self] at hjob
    rcases hnext id job hjob with hold | ⟨rfl, hrow⟩
    · exact hafter p' id job hold
    · obtain ⟨row', hrow', hmail, -⟩ := row_of_exec hexec hrow
      exact ⟨row', hrow', hmail⟩
  · rw [Function.update_of_ne hpp] at hjob
    exact hafter p' id job hjob

end Windows

/-! ## §5. Runs. -/

namespace System

variable {svc : EmailService} {j : Uuid}

/-- How far each process has come with its email. -/
def sending (svc : EmailService) (m : System) : Uuid → Sending := m.phase (sendMonitor svc)

/-- The step is an attempt to take the key of job `j`. -/
def attemptsSend (svc : EmailService) (j : Uuid) (t : Transition System Action) : Bool :=
  match t.act.asker with
  | some p =>
      match t.pre.asks p with
      | some (.setNxEx ..) => (t.pre.sending svc p).job.map Prod.fst == some j
      | _ => false
  | none => false

/-- At this step SendGrid accepts an email of job `j`. -/
def acceptsSend (svc : EmailService) (j : Uuid) (t : Transition System Action) : Bool :=
  match t.act.asker with
  | some p => (t.pre.asks p).any fun q => accepting (t.pre.sending svc p) j q t.pre.store t.post.store
  | none => false

/-- When the key of job `j` was tried for the first time. -/
def firstAttempt (svc : EmailService) (j : Uuid) (history : List (Transition System Action)) : Option Int :=
  (history.find? (attemptsSend svc j)).map (·.pre.store.now)

/-- The emails of job `j` that SendGrid accepted before `until'`. -/
def emailsBefore (svc : EmailService) (j : Uuid) (until' : Int) (history : List (Transition System Action)) : Nat :=
  history.countP fun t => acceptsSend svc j t && decide (t.pre.store.now < until')

/-- **No job's email is sent twice**: none before the first attempt, and at most
one within the time-to-live of the key from then on. -/
structure SentOnce (svc : EmailService) (j : Uuid) (history : List (Transition System Action)) : Prop where
  attempted : firstAttempt svc j history = none → ∀ t ∈ history, acceptsSend svc j t = false
  once : ∀ f, firstAttempt svc j history = some f →
    emailsBefore svc j (f + svc.idempotencyTtl) history ≤ 1

/-- What guards the email of job `j` after a history. -/
structure Guarded (svc : EmailService) (j : Uuid) (history : List (Transition System Action)) (m : System) :
    Prop where
  stored : Stored m.store (m.sending svc)
  before : firstAttempt svc j history = none →
    (∀ t ∈ history, acceptsSend svc j t = false) ∧ ∀ p, ¬(m.sending svc p).MayPost j
  since : ∀ f, firstAttempt svc j history = some f → f ≤ m.store.now
    ∧ emailsBefore svc j (f + svc.idempotencyTtl) history ≤ 1
    ∧ (m.store.now < f + svc.idempotencyTtl → Window svc j (f + svc.idempotencyTtl) m.store (m.sending svc)
      (emailsBefore svc j (f + svc.idempotencyTtl) history))

theorem firstAttempt_concat (history : List (Transition System Action)) (t : Transition System Action) :
    firstAttempt svc j (history ++ [t]) = (firstAttempt svc j history).or
      (if attemptsSend svc j t then some t.pre.store.now else none) := by
  unfold firstAttempt
  rw [List.find?_append]
  cases history.find? (attemptsSend svc j) with
  | some t' => rfl
  | none =>
      cases h : attemptsSend svc j t <;> simp [h]

theorem emailsBefore_concat (until' : Int) (history : List (Transition System Action))
    (t : Transition System Action) :
    emailsBefore svc j until' (history ++ [t]) = emailsBefore svc j until' history
      + (acceptsSend svc j t && decide (t.pre.store.now < until')).toNat := by
  unfold emailsBefore
  rw [List.countP_append, List.countP_singleton]
  cases acceptsSend svc j t && decide (t.pre.store.now < until') <;> rfl

/-- One step of the window, from before it to after it. -/
def Keeps (svc : EmailService) (j : Uuid) (t : Transition System Action) : Prop :=
  ∀ until' n, Window svc j until' t.pre.store (t.pre.sending svc) n → t.pre.store.now < until' →
    until' ≤ t.pre.store.now + svc.idempotencyTtl →
    Window svc j until' t.post.store (t.post.sending svc) (n + (acceptsSend svc j t).toNat)

/-- A step is guarded when it keeps the windows, the rows, and an email that
nobody has attempted. -/
structure StepGuarded (svc : EmailService) (j : Uuid) (t : Transition System Action) : Prop where
  now : t.pre.store.now ≤ t.post.store.now
  stored : Stored t.pre.store (t.pre.sending svc) → Stored t.post.store (t.post.sending svc)
  untried : attemptsSend svc j t = false → (∀ p, ¬(t.pre.sending svc p).MayPost j) →
    acceptsSend svc j t = false ∧ ∀ p, ¬(t.post.sending svc p).MayPost j
  keeps : Stored t.pre.store (t.pre.sending svc) → Keeps svc j t

/-- **One step.** -/
theorem Guarded.step {history : List (Transition System Action)} {t : Transition System Action}
    (h : Guarded svc j history t.pre) (ht : StepGuarded svc j t) : Guarded svc j (history ++ [t]) t.post := by
  refine ⟨ht.stored h.stored, fun hnone => ?_, fun f hf => ?_⟩
  · rw [firstAttempt_concat, Option.or_eq_none_iff] at hnone
    obtain ⟨hnone, htry⟩ := hnone
    have htry : attemptsSend svc j t = false := by
      by_contra hcontra
      simp [hcontra] at htry
    obtain ⟨hquiet, hnobody⟩ := h.before hnone
    obtain ⟨haccepts, hnobody'⟩ := ht.untried htry hnobody
    exact ⟨forall_mem_concat hquiet haccepts, hnobody'⟩
  · -- the window before the step: open since `f`, or opened by the step itself
    have hbefore : f ≤ t.pre.store.now ∧ emailsBefore svc j (f + svc.idempotencyTtl) history ≤ 1
        ∧ (t.pre.store.now < f + svc.idempotencyTtl → Window svc j (f + svc.idempotencyTtl) t.pre.store
          (t.pre.sending svc) (emailsBefore svc j (f + svc.idempotencyTtl) history)) := by
      rw [firstAttempt_concat] at hf
      cases hfirst : firstAttempt svc j history with
      | some f' =>
          rw [hfirst] at hf
          obtain rfl : f' = f := Option.some.inj hf
          exact h.since f' hfirst
      | none =>
          obtain ⟨hquiet, hnobody⟩ := h.before hfirst
          have hzero : emailsBefore svc j (f + svc.idempotencyTtl) history = 0 :=
            List.countP_eq_zero.mpr fun t' ht' => by simp [hquiet t' ht']
          rw [hfirst] at hf
          have hnow : t.pre.store.now = f := by
            cases htry : attemptsSend svc j t with
            | true => simpa [htry] using hf
            | false => simp [htry] at hf
          rw [hzero]
          exact ⟨hnow.ge, Nat.zero_le 1, fun _ => .empty hnobody⟩
    obtain ⟨hle, hcount, hwindow⟩ := hbefore
    rw [emailsBefore_concat]
    by_cases hopen : t.pre.store.now < f + svc.idempotencyTtl
    · have hafter := ht.keeps h.stored _ _ (hwindow hopen) hopen (by omega)
      have hsame : (acceptsSend svc j t && decide (t.pre.store.now < f + svc.idempotencyTtl))
          = acceptsSend svc j t := by simp [hopen]
      rw [hsame]
      exact ⟨hle.trans ht.now, hafter.count, fun _ => hafter⟩
    · have hsame : (acceptsSend svc j t && decide (t.pre.store.now < f + svc.idempotencyTtl)) = false := by
        simp [hopen]
      rw [hsame]
      refine ⟨hle.trans ht.now, hcount, fun hnow => absurd (lt_of_le_of_lt ht.now hnow) hopen⟩

/-! ## §6. Every step. -/

section Steps

variable {t : Transition System Action} {p : Uuid}

theorem acceptsSend_of_store_eq (h : t.post.store = t.pre.store) : acceptsSend svc j t = false := by
  unfold acceptsSend
  split
  · rw [h, Option.any_eq_false]
    exact fun q _ => by simp [not_accepting_self]
  · rfl

/-- Whoever takes the key of a job attempts to. -/
theorem attemptsSend_of_setNxEx {key : String} {seconds : Nat} (hp : t.act.asker = some p)
    (hq : t.pre.asks p = some (.setNxEx key seconds)) (hjob : (t.pre.sending svc p).job.map Prod.fst = some j) :
    attemptsSend svc j t = true := by
  simp [attemptsSend, hp, hq, hjob]

/-- A step at which SendGrid accepts nothing and no key or row is written. -/
theorem StepGuarded.of_forgets (haccepts : acceptsSend svc j t = false)
    (hnow : t.pre.store.now ≤ t.post.store.now) (hjobs : t.post.store.db.jobs = t.pre.store.db.jobs)
    (hstrings : t.post.store.redis.strings = t.pre.store.redis.strings)
    (hforgets : ∀ p, Forgets j (t.pre.sending svc p) (t.post.sending svc p)) : StepGuarded svc j t where
  now := hnow
  stored h p id job hjob := by
    rw [hjobs]
    exact h.forget hforgets p id job hjob
  untried _ hnobody := ⟨haccepts, fun p hmay => hnobody p ((hforgets p).mayPost hmay)⟩
  keeps _ until' n hwindow _ _ := by
    rw [haccepts]
    exact (hwindow.congr hjobs hstrings).weaken fun p => (hforgets p).mayPost

/-- A step that carries out a question of a process. -/
theorem StepGuarded.of_exec {q : Command} {v : Reply q} {c : Choice} {r : Except String (Reply q)} {ψ : Sending}
    (hp : t.act.asker = some p) (hl : t.pre.asks p = some q)
    (hallows : Sending.allows svc (t.pre.sending svc p) q)
    (hexec : exec c t.pre.store q = some (v, t.post.store)) (hr : r = .ok v ∨ ∃ e, r = .error e)
    (hsending : t.post.sending svc = Function.update (t.pre.sending svc) p ψ)
    (hψ : Forgets j ((t.pre.sending svc p).next q r) ψ) : StepGuarded svc j t := by
  have haccepts : acceptsSend svc j t = accepting (t.pre.sending svc p) j q t.pre.store t.post.store := by
    simp [acceptsSend, hp, hl]
  -- the answer first, and then what the process forgets of it
  have htwice : t.post.sending svc = Function.update (Function.update (t.pre.sending svc) p
      ((t.pre.sending svc p).next q r)) p ψ := by
    rw [hsending, Function.update_idem]
  have hforgets : ∀ p', Forgets j (Function.update (t.pre.sending svc) p ((t.pre.sending svc p).next q r) p')
      (t.post.sending svc p') := by
    rw [htwice]
    exact Forgets.update (by rwa [Function.update_self])
  refine ⟨(now_of_exec hexec).ge, fun h => (h.next hexec hr).forget hforgets, fun htry hnobody => ?_,
    fun h until' n hwindow hnow hfirst => ?_⟩
  · have hnext : ¬((t.pre.sending svc p).next q r).MayPost j := by
      intro hmay
      by_cases hset : ∃ key seconds, q = .setNxEx key seconds
      · obtain ⟨key, seconds, rfl⟩ := hset
        have hjob : (t.pre.sending svc p).job.map Prod.fst = some j := by
          have hfst := hmay.1
          rcases r with e | _ | _ <;> exact hfst
        exact absurd (htry.symm.trans (attemptsSend_of_setNxEx hp hl hjob)) (by decide)
      · push Not at hset
        exact hnobody p (mayPost_of_next hset hmay)
    refine ⟨?_, fun p' hmay => ?_⟩
    · rw [haccepts]
      cases q with
      | post payload =>
          refine Bool.and_eq_false_imp.mpr fun hjob => ?_
          exact absurd ⟨beq_iff_eq.mp hjob, hallows⟩ (hnobody p)
      | _ => rfl
    · have hmay' := (hforgets p').mayPost hmay
      by_cases hpp : p' = p
      · subst hpp
        rw [Function.update_self] at hmay'
        exact hnext hmay'
      · rw [Function.update_of_ne hpp] at hmay'
        exact hnobody p' hmay'
  · rw [haccepts]
    exact (hwindow.answer h hnow hfirst hexec hallows hr).weaken fun p' => (hforgets p').mayPost

end Steps

/-- **Every step of the machine is guarded.** -/
theorem stepGuarded {m : System} (hm : Machine.Monitored (sendMonitor svc) m) (a : Action) :
    StepGuarded svc j ⟨m, a, m.step svc a⟩ := by
  -- the server stays as it is, and processes forget
  have hframe : ∀ {m' : System}, m.step svc a = m' → m'.store = m.store →
      (∀ p, Forgets j (m.sending svc p) (m'.sending svc p)) → StepGuarded svc j ⟨m, a, m.step svc a⟩ := by
    intro m' hstep hstore hforgets
    rw [hstep]
    exact .of_forgets (acceptsSend_of_store_eq hstore) (congrArg Backend.now hstore).ge
      (congrArg (·.db.jobs) hstore) (congrArg (·.redis.strings) hstore) hforgets
  have hsame : ∀ p, Forgets j (m.sending svc p) (m.sending svc p) := fun p => .refl _
  rcases m.step_cases server (body svc) outside a with hstep | ⟨p, task, rfl, hp, hstep⟩
    | ⟨p, l, s, r, ha, hl, hr, hstep⟩ | ⟨p, rfl, hstep⟩ | ⟨w, rfl, hstep⟩
  · exact hframe hstep rfl hsame
  · refine hframe hstep rfl ?_
    rw [sending, sending, Machine.phase_launch _ hp]
    exact hsame
  · have hsending := Machine.phase_deliver (sendMonitor svc) hl s r
    have hforgets : ∀ s, Forgets j s (Machine.phaseOf (sendMonitor svc) (l.rest r) s) := forgets_phaseOf (l.rest r)
    have hallows := (hm p l hl).1
    have hasks : m.asks p = some l.question := congrArg (Option.map _) hl
    rcases Machine.reply_cases server ha hr with ⟨c, v, -, rfl, hexec⟩ | ⟨e, -, rfl, rfl⟩ | ⟨c, e, v, -, rfl, hexec⟩
    · rw [show m.step svc a = _ from hstep]
      exact .of_exec ha hasks hallows hexec (.inl rfl) hsending (hforgets _)
    · refine hframe hstep rfl ?_
      rw [sending, sending, hsending]
      exact Forgets.update ((forgets_next_error _ _ e).trans (hforgets _))
    · rw [show m.step svc a = _ from hstep]
      exact .of_exec ha hasks hallows hexec (.inr ⟨e, rfl⟩) hsending (hforgets _)
  · refine hframe hstep rfl ?_
    rw [sending, sending, Machine.phase_halt]
    exact Forgets.update (forgets_start _)
  · rw [show m.step svc (.outside w) = _ from hstep]
    have haccepts : ∀ m' : System, acceptsSend svc j ⟨m, .outside w, m'⟩ = false := fun _ => rfl
    cases w with
    | tick seconds =>
        refine .of_forgets (haccepts _) ?_ rfl rfl hsame
        show m.store.now ≤ m.store.now + seconds
        omega
    | suppress email => exact .of_forgets (haccepts _) le_rfl rfl rfl hsame

/-! ## §7. No email is sent twice. -/

/-- **No job's email is sent twice**, in any interleaving of workers, retries,
recoveries, requeues and crashes. -/
theorem sent_once (svc : EmailService) (hcache : svc.cache ≠ none) (b : Backend) (as : List Action) (j : Uuid) :
    SentOnce svc j (trace (System.step svc) (Machine.idle b) as) := by
  have hguarded : Guarded svc j (trace (System.step svc) (Machine.idle b) as)
      (run (System.step svc) (Machine.idle b) as) := by
    refine history_invariant (System.step svc) (Guarded svc j) (fun _ => True) ?_ ?_ as fun _ _ => trivial
    · exact ⟨fun p id job => nofun, fun _ => ⟨fun t => nofun, fun p => not_mayPost_idle none j⟩, fun f => nofun⟩
    · intro as a h _
      exact h.step (stepGuarded (Machine.monitored_run (body_sends hcache) b as) a)
  refine ⟨fun hnone => (hguarded.before hnone).1, fun f hf => (hguarded.since f hf).2.1⟩

/-- The delivery attempts its job's email, and SendGrid accepts one. -/
theorem sent_once_sample :
    sampleService.cache ≠ none
      ∧ firstAttempt sampleService sampleJobId
        (trace (System.step sampleService) (Machine.idle ⟨1000, {}, {}, []⟩) sampleDelivery) = some 1000
      ∧ SentOnce sampleService sampleJobId
        (trace (System.step sampleService) (Machine.idle ⟨1000, {}, {}, []⟩) sampleDelivery) :=
  ⟨Option.some_ne_none 3, by decide +kernel,
    sent_once sampleService (Option.some_ne_none 3) ⟨1000, {}, {}, []⟩ sampleDelivery sampleJobId⟩

end System

end PredictIQ.Email
