/-
  PredictIQ.Email.JobCustody: is a job ever lost?

  A job moves between four Redis sets and its row by pairs of commands, and a
  process may crash or be refused between the two.  `Careful` names the steps
  that must not fall there; `no_job_lost` says that a run of careful steps, of
  any number of processes in any order, loses no job.
-/
import PredictIQ.Email.JobStages

namespace PredictIQ.Email

open Foundation

/-! ## §1. Where a job can be found. -/

/-- The row says that the job is done. -/
def Backend.isCompleted (b : Backend) (j : Uuid) : Prop :=
  ∃ job ∈ b.db.jobs.lookup j, job.status = EmailJobStatus.completed.asStr

/-- The job is done, or in one of the three job sets. -/
def Backend.isSafe (b : Backend) (j : Uuid) : Prop := b.isCompleted j ∨ b.redis.isQueued j

/-- The processing set lists the job under a worker's id. -/
def Backend.isListed (b : Backend) (worker j : Uuid) : Prop := .owned worker j ∈ b.redis.processing

/-- Command `q` takes job `j` out of job set `key`. -/
def Backend.takes (b : Backend) (q : Command) (key : JobSet) (j : Uuid) : Prop :=
  (q = .zpopmin key ∧ (b.redis.jobs key).zrange.head? = some j)
    ∨ (q = .zrem key j ∧ j ∈ b.redis.jobs key)

namespace System

/-- Where the jobs of a system are. -/
def custody (m : System) : Custody Uuid Uuid where
  safe := m.store.isSafe
  listed := m.store.isListed
  stage := m.phase custodyMonitor

/-- The job of a row whose creation the process has been told of. -/
def created : Exchange Reply String → Option Uuid
  | ⟨.createJob .., .ok id⟩ => some id
  | _ => none

/-- An enqueue of the job has got past `email_create_job`. -/
def Enqueued (m : System) (j : Uuid) : Prop := ∃ x ∈ m.log, created x.2 = some j

/-- **No job is lost**: one that was enqueued, is not completed and has no live
process at work on it is in a job set or under some worker's id. -/
def NoJobLost (m : System) : Prop :=
  ∀ j job, m.Enqueued j → m.store.db.jobs.lookup j = some job →
    job.status ≠ EmailJobStatus.completed.asStr → (∀ p, ¬m.custody.AtWork p j) →
    m.store.redis.isQueued j ∨ ∃ worker, m.store.isListed worker j

/-- The command of `p` would take job `j` out of job set `key`. -/
def Takes (m : System) (p : Uuid) (key : JobSet) (j : Uuid) : Prop :=
  ∃ q, m.asks p = some q ∧ m.store.takes q key j

/-- A step at which no job falls between two places. -/
structure Careful (t : Transition System Action) : Prop where
  /-- A process that crashes or returns with a job in its hands leaves it
  completed, in a job set, or in processing under its id. -/
  leave : ∀ p j, Machine.Leaves server custodyMonitor t.pre t.act p (.holding j) →
    t.post.store.isSafe j ∨ t.post.store.isListed p j
  /-- The reply of a `ZPOPMIN` or `ZREM` of a job set is lost only when the job
  is completed, in another job set, or in processing under the process's id. -/
  lose : ∀ p c e key j, t.act = .lose p c e → t.pre.Takes p key j →
    t.pre.store.isCompleted j ∨ (∃ key', key' ≠ key ∧ j ∈ t.pre.store.redis.jobs key')
      ∨ t.pre.store.isListed p j
  /-- An entry of a worker that is not at work on the job is cleared only when
  the job is completed, in a job set, or in the hands of a process. -/
  clear : ∀ p x j, t.act.asker = some p → t.pre.asks p = some (.zremProcessing (.owned x j)) →
    ¬t.pre.custody.AtWork x j →
    t.pre.store.isSafe j ∨ ∃ y, t.pre.custody.stage y = .holding j

/-! ## §2. Every step keeps every job. -/

end System

section Step

variable {c : Choice} {b b' : Backend} {q : Command} {v : Reply q} {stage : Stage Uuid} {j : Uuid}

theorem isCompleted_of_exec (h : exec c b q = some (v, b')) (hj : b.isCompleted j) :
    b'.isCompleted j
      ∨ ∃ status e, q = .updateJobStatus j status e ∧ status ≠ EmailJobStatus.completed.asStr := by
  obtain ⟨job, hjob, hstatus⟩ := hj
  obtain ⟨job', hjob', _, hsame | ⟨e, hq⟩⟩ := row_of_exec h hjob
  · exact .inl ⟨job', hjob', hsame.trans hstatus⟩
  · by_cases hcompleted : job'.status = EmailJobStatus.completed.asStr
    · exact .inl ⟨job', hjob', hcompleted⟩
    · exact .inr ⟨_, e, hq, hcompleted⟩

/-- A job leaves the safe places by a status update of its own, or is taken. -/
theorem isSafe_of_exec (h : exec c b q = some (v, b')) (hj : b.isSafe j) :
    b'.isSafe j
      ∨ (∃ status e, q = .updateJobStatus j status e ∧ status ≠ EmailJobStatus.completed.asStr)
      ∨ ∃ key, b.takes q key j := by
  rcases hj with hj | ⟨key, hj⟩
  · exact (isCompleted_of_exec h hj).imp .inl .inl
  · rcases queued_of_exec h hj with hj' | ⟨hq, hhead⟩ | hq
    · exact .inl (.inr hj')
    · exact .inr (.inr ⟨key, .inl ⟨hq, hhead⟩⟩)
    · exact .inr (.inr ⟨key, .inr ⟨hq, hj⟩⟩)

/-- A job that is taken out of one set stays where else it is. -/
theorem isSafe_of_takes {key : JobSet} (h : exec c b q = some (v, b')) (htakes : b.takes q key j)
    (hj : b.isCompleted j ∨ ∃ key', key' ≠ key ∧ j ∈ b.redis.jobs key') : b'.isSafe j := by
  rcases hj with hj | ⟨key', hne, hj⟩
  · refine .inl ((isCompleted_of_exec h hj).resolve_right ?_)
    rintro ⟨status, e, rfl, _⟩
    rcases htakes with ⟨hq, _⟩ | ⟨hq, _⟩ <;> cases hq
  · refine .inr ((queued_of_exec h hj).resolve_right ?_)
    rintro (⟨rfl, _⟩ | rfl)
    · rcases htakes with ⟨hq, _⟩ | ⟨hq, _⟩ <;> cases hq
      exact hne rfl
    · rcases htakes with ⟨hq, _⟩ | ⟨hq, _⟩ <;> cases hq
      exact hne rfl

/-- Whoever takes a job holds it, once it is told. -/
theorem next_of_takes {key : JobSet} (h : exec c b q = some (v, b')) (htakes : b.takes q key j) :
    custodyMonitor.next .free q (.ok v) = .holding j := by
  rcases htakes with ⟨rfl, hhead⟩ | ⟨rfl, hmem⟩
  · obtain ⟨score, rfl⟩ := popped_of_exec h hhead
    rfl
  · cases h
    show nextStage .free (.zrem key j) (.ok (b.redis.zrem key j).1) = _
    unfold Redis.zrem
    rw [if_pos hmem]
    rfl

theorem allows_of_takes {key : JobSet} (htakes : b.takes q key j)
    (h : custodyMonitor.allows stage q) : stage = .free := by
  rcases htakes with ⟨rfl, _⟩ | ⟨rfl, _⟩ <;> exact h

theorem next_reset (h : Has j stage) {status : String} (hs : status ≠ EmailJobStatus.completed.asStr)
    (e : Option String) (r : Except String Unit) :
    custodyMonitor.next stage (.updateJobStatus j status e) r = .holding j := by
  rcases h with rfl | rfl <;> cases r <;> simp [custodyMonitor, nextStage, hs]

theorem next_status_error (h : Has j stage) (status : String) (e : Option String) (err : String) :
    custodyMonitor.next stage (.updateJobStatus j status e) (.error err) = .holding j := by
  rcases h with rfl | rfl <;> simp [custodyMonitor, nextStage]

/-- The commands by which a job is put down. -/
def Command.puts (q : Command) (j : Uuid) : Prop :=
  (∃ key score, q = .zadd key j score) ∨ ∃ e, q = .updateJobStatus j EmailJobStatus.completed.asStr e

/-- A process lets go of a job only where it puts it down. -/
theorem next_holding (j : Uuid) (q : Command) (r : Except String (Reply q)) :
    custodyMonitor.next (.holding j) q r = .holding j ∨ (∃ v, r = .ok v) ∧ q.puts j := by
  cases r with
  | error e => cases q <;> exact .inl rfl
  | ok v =>
      cases q with
      | zadd key id score =>
          by_cases hid : id = j
          · exact .inr ⟨⟨v, rfl⟩, .inl ⟨key, score, by rw [hid]⟩⟩
          · exact .inl (if_neg hid)
      | updateJobStatus id status e =>
          by_cases hid : id = j ∧ status = EmailJobStatus.completed.asStr
          · exact .inr ⟨⟨v, rfl⟩, .inr ⟨e, by rw [hid.1, hid.2]⟩⟩
          · exact .inl (if_neg hid)
      | _ => exact .inl rfl

theorem next_free_ne (q : Command) (r : Except String (Reply q)) (j : Uuid) :
    custodyMonitor.next .free q r ≠ .placed j := by
  intro h
  cases q <;> rcases r with e | v
  case zpopmin.ok key => rcases v with _ | ⟨id, score⟩ <;> cases h
  case zrem.ok key id =>
      simp only [custodyMonitor, nextStage] at h
      split at h <;> cases h
  all_goals cases h

theorem next_of_placed (j : Uuid) (q : Command) (r : Except String (Reply q)) :
    Has j (custodyMonitor.next (.placed j) q r) := by
  cases q with
  | updateJobStatus id status e =>
      by_cases hid : id = j
      · subst hid
        exact has_next_status (.inr rfl) status e r
      · exact .inr (if_neg hid)
  | _ => exact .inr rfl

/-- A process has put down only a job it had. -/
theorem next_placed {r : Except String (Reply q)}
    (h : custodyMonitor.next stage q r = .placed j) : Has j stage := by
  cases stage with
  | free => exact absurd h (next_free_ne q r j)
  | holding i =>
      rcases next_holding i q r with hsame | ⟨⟨v, rfl⟩, ⟨key, score, rfl⟩ | ⟨e, rfl⟩⟩
      · rw [hsame] at h
        cases h
      · rw [next_zadd (.inl rfl)] at h
        exact .inl (by cases h; rfl)
      · rw [next_completed (.inl rfl)] at h
        exact .inl (by cases h; rfl)
  | placed i =>
      rcases next_of_placed i q r with hnext | hnext <;> rw [hnext] at h <;> cases h
      exact .inr rfl

/-- A job that has been put down is safe. -/
theorem isSafe_of_put (h : exec c b q = some (v, b')) (hrow : b.db.jobs.lookup j ≠ none)
    (hput : q.puts j) : b'.isSafe j := by
  rcases hput with ⟨key, score, rfl⟩ | ⟨e, rfl⟩
  · cases h
    exact .inr (Redis.isQueued_zadd _ key score j)
  · cases h
    cases hjob : b.db.jobs.lookup j with
    | none => exact absurd hjob hrow
    | some job =>
        refine .inl ⟨{ job with status := EmailJobStatus.completed.asStr, errorMessage := e }, ?_, rfl⟩
        simp [Database.updateJob, hjob]

end Step

namespace System

/-- The custody of a system when the backend has become `b` and process `p` is
in stage `stage`. -/
def custodyWith (m : System) (b : Backend) (p : Uuid) (stage : Stage Uuid) : Custody Uuid Uuid :=
  Custody.setStage ⟨b.isSafe, b.isListed, m.phase custodyMonitor⟩ p stage

section Deliver

variable {t : Transition System Action} {p : Uuid} {q : Command} {b : Backend}
  {r : Except String (Reply q)} {j : Uuid}

/-- A job in a safe place stays there, or is kept by whoever takes it. -/
theorem kept_of_safe (hcareful : Careful t) (hask : t.act.asker = some p)
    (hasks : t.pre.asks p = some q)
    (hallows : custodyMonitor.allows (t.pre.phase custodyMonitor p) q)
    (hr : Machine.reply server t.pre.store t.act q = some (b, r)) (hj : t.pre.store.isSafe j) :
    (t.pre.custodyWith b p (custodyMonitor.next (t.pre.phase custodyMonitor p) q r)).Kept j := by
  have hholding : ∀ stage, stage = .holding j → (t.pre.custodyWith b p stage).Kept j := by
    rintro _ rfl
    exact .inr (.inr ⟨p, Custody.stage_setStage_self ..⟩)
  rcases reply_cases hr with ⟨_, c, v, -, rfl, hexec⟩ | ⟨e, -, rfl⟩ | ⟨p', c, e, v, hact, rfl, hexec⟩
  · -- the command took effect and its reply arrived
    rcases isSafe_of_exec hexec hj with hsafe | ⟨status, e, rfl, hs⟩ | ⟨key, htakes⟩
    · exact .inl hsafe
    · exact hholding _ (next_reset hallows hs e (.ok v))
    · refine hholding _ ?_
      rw [allows_of_takes htakes hallows]
      exact next_of_takes hexec htakes
  · -- nothing happened
    exact .inl hj
  · -- the command took effect, and the process does not know
    obtain rfl : p' = p := by
      rw [hact] at hask
      exact Option.some.inj hask
    rcases isSafe_of_exec hexec hj with hsafe | ⟨status, e', rfl, hs⟩ | ⟨key, htakes⟩
    · exact .inl hsafe
    · exact hholding _ (next_status_error hallows status e' e)
    · rcases hcareful.lose p' c e key j hact ⟨q, hasks, htakes⟩ with hsafe | hsafe | hlisted
      · exact .inl (isSafe_of_takes hexec htakes (.inl hsafe))
      · exact .inl (isSafe_of_takes hexec htakes (.inr hsafe))
      · refine .inr (.inl ⟨p', ?_, ?_⟩)
        · refine (owned_of_exec hexec hlisted).resolve_right ?_
          rintro rfl
          rcases htakes with ⟨hq, _⟩ | ⟨hq, _⟩ <;> cases hq
        · rw [custodyWith, Custody.stage_setStage_self, allows_of_takes htakes hallows]
          exact next_free_ne q _ j

/-- An entry that counts stays, or the job is kept otherwise. -/
theorem kept_of_listed (hcareful : Careful t) (hask : t.act.asker = some p)
    (hasks : t.pre.asks p = some q)
    (hr : Machine.reply server t.pre.store t.act q = some (b, r)) {x : Uuid}
    (hj : t.pre.store.isListed x j) (hx : t.pre.phase custodyMonitor x ≠ .placed j) :
    b.isListed x j
      ∨ (t.pre.custodyWith b p (custodyMonitor.next (t.pre.phase custodyMonitor p) q r)).Kept j := by
  have hcleared : ∀ c v, exec c t.pre.store q = some (v, b) → b.isListed x j
      ∨ (t.pre.custodyWith b p
          (custodyMonitor.next (t.pre.phase custodyMonitor p) q r)).Kept j := by
    intro c v hexec
    rcases owned_of_exec hexec hj with hlisted | rfl
    · exact .inl hlisted
    · -- clearing an entry changes no stage
      rw [(stage_quiet rfl (t.pre.phase custodyMonitor p)).2]
      have hstage : ∀ y, (t.pre.custodyWith b p (t.pre.phase custodyMonitor p)).stage y
          = t.pre.phase custodyMonitor y := by
        intro y
        simp [custodyWith, Custody.setStage]
      by_cases hwork : t.pre.custody.AtWork x j
      · exact .inr (.inr (.inr ⟨x, (hstage x).trans (hwork.resolve_right hx)⟩))
      · rcases hcareful.clear p x j hask hasks hwork with hsafe | ⟨y, hy⟩
        · rcases isSafe_of_exec hexec hsafe with hsafe | ⟨status, e, hq, _⟩ | ⟨key, htakes⟩
          · exact .inr (.inl hsafe)
          · cases hq
          · rcases htakes with ⟨hq, _⟩ | ⟨hq, _⟩ <;> cases hq
        · exact .inr (.inr (.inr ⟨y, (hstage y).trans hy⟩))
  rcases reply_cases hr with ⟨_, c, v, -, -, hexec⟩ | ⟨e, -, rfl⟩ | ⟨p', c, e, v, -, -, hexec⟩
  · exact hcleared c v hexec
  · exact .inl hj
  · exact hcleared c v hexec

/-- **An answer keeps every job.** -/
theorem kept_of_reply (hcareful : Careful t) (hask : t.act.asker = some p)
    (hasks : t.pre.asks p = some q)
    (hallows : custodyMonitor.allows (t.pre.phase custodyMonitor p) q)
    (hr : Machine.reply server t.pre.store t.act q = some (b, r))
    (hrow : t.pre.store.db.jobs.lookup j ≠ none) (hkept : t.pre.custody.Kept j) :
    (t.pre.custodyWith b p (custodyMonitor.next (t.pre.phase custodyMonitor p) q r)).Kept j := by
  have hheld : t.pre.phase custodyMonitor p = .holding j →
      (t.pre.custodyWith b p (custodyMonitor.next (t.pre.phase custodyMonitor p) q r)).Kept j := by
    intro hp
    rw [hp]
    rcases next_holding j q r with hsame | ⟨⟨v, rfl⟩, hput⟩
    · rw [hsame]
      exact .inr (.inr ⟨p, Custody.stage_setStage_self ..⟩)
    · rcases reply_cases hr with ⟨_, c, v', -, hv, hexec⟩ | ⟨e, he, _⟩ | ⟨_, c, e, _, _, he, _⟩
      · exact .inl (isSafe_of_put hexec hrow hput)
      · cases he
      · cases he
  refine hkept.move (p := p) (fun x hx => Custody.stage_setStage_of_ne _ _ hx)
    (kept_of_safe hcareful hask hasks hallows hr)
    (fun x hj hx => kept_of_listed hcareful hask hasks hr hj hx) hheld ?_
  intro hplaced
  have hhas : Has j (t.pre.phase custodyMonitor p) :=
    next_placed ((Custody.stage_setStage_self ..).symm.trans hplaced)
  exact hhas.symm.imp id hheld

end Deliver

/-! ## §3. No job is lost. -/

/-- The custody after an answer is that of the answer, less the process whose
program it ends. -/
theorem custody_deliver {m : System} {p : Uuid} {l : Live Reply String} (hl : m.procs p = some l)
    (b : Backend) (r : Except String (Reply l.question)) :
    let after := m.custodyWith b p (custodyMonitor.next (m.phase custodyMonitor p) l.question r)
    custody (m.deliver p l b r) = after
      ∨ (∃ res, l.rest r = .done res) ∧ custody (m.deliver p l b r) = after.setStage p .free := by
  have hcustody : custody (m.deliver p l b r)
      = ⟨b.isSafe, b.isListed, (m.deliver p l b r).phase custodyMonitor⟩ := rfl
  rw [hcustody, Machine.phase_deliver custodyMonitor hl b r]
  cases hrest : l.rest r with
  | done res =>
      refine .inr ⟨⟨res, rfl⟩, ?_⟩
      simp only [custodyWith, Custody.setStage, Function.update_idem]
      rfl
  | ask q k => exact .inl rfl

theorem exists_of_created {x : Exchange Reply String} {j : Uuid} (h : created x = some j) :
    ∃ jobType recipient templateName templateData priority,
      x = ⟨.createJob jobType recipient templateName templateData priority, .ok j⟩ := by
  obtain ⟨q, r⟩ := x
  cases q with
  | createJob jobType recipient templateName templateData priority =>
      cases r with
      | error e => cases h
      | ok id =>
          obtain rfl := Option.some.inj h
          exact ⟨_, _, _, _, _, rfl⟩
  | _ => cases h

/-- Each enqueued job has its row and is kept. -/
def JobsKept (m : System) : Prop :=
  ∀ j, m.Enqueued j → m.store.db.jobs.lookup j ≠ none ∧ m.custody.Kept j

theorem JobsKept.deliver {m : System} (hkept : m.JobsKept) {a : Action} {p : Uuid}
    {l : Live Reply String} {b : Backend} {r : Except String (Reply l.question)}
    (hask : a.asker = some p) (hl : m.procs p = some l)
    (hallows : custodyMonitor.allows (m.phase custodyMonitor p) l.question)
    (hr : Machine.reply server m.store a l.question = some (b, r))
    (hcareful : Careful ⟨m, a, m.deliver p l b r⟩) : JobsKept (m.deliver p l b r) := by
  intro j hj
  have hafter : b.db.jobs.lookup j ≠ none
      ∧ (m.custodyWith b p
          (custodyMonitor.next (m.phase custodyMonitor p) l.question r)).Kept j := by
    obtain ⟨x, hx, hcreated⟩ := hj
    rcases List.mem_append.mp hx with hx | hx
    · -- a job from before
      obtain ⟨hrow, hj⟩ := hkept j ⟨x, hx, hcreated⟩
      have hasks : m.asks p = some l.question := by rw [asks, hl]; rfl
      exact ⟨row_of_reply hr hrow, kept_of_reply hcareful hask hasks hallows hr hrow hj⟩
    · -- a job whose creation the process is told of now, which makes it its holder
      obtain rfl := List.mem_singleton.mp hx
      obtain ⟨jobType, recipient, templateName, templateData, priority, hxq⟩ :=
        exists_of_created hcreated
      obtain ⟨q, k, heard⟩ := l
      cases hxq
      rcases reply_cases hr with ⟨_, c, v, -, hv, hexec⟩ | ⟨e, he, _⟩ | ⟨_, c, e, _, _, he, _⟩
      · cases hv
        refine ⟨?_, .inr (.inr ⟨p, ?_⟩)⟩
        · rw [row_of_createJob hexec]
          exact Option.some_ne_none _
        · rw [custodyWith, Custody.stage_setStage_self, show m.phase custodyMonitor p = .free from hallows]
          rfl
      · cases he
      · cases he
  refine ⟨hafter.1, ?_⟩
  rcases custody_deliver hl b r with hsame | ⟨⟨res, hres⟩, hleft⟩
  · rw [hsame]
    exact hafter.2
  · rw [hleft]
    refine hafter.2.leave fun hholding => ?_
    rw [custodyWith, Custody.stage_setStage_self] at hholding
    exact hcareful.leave p j (.ended l b r res hask hl hr hres hholding)

theorem JobsKept.halt {m : System} (hkept : m.JobsKept) {p : Uuid}
    (hcareful : Careful ⟨m, .crash p, m.halt p⟩) : JobsKept (m.halt p) := by
  intro j hj
  obtain ⟨hrow, hj⟩ := hkept j hj
  refine ⟨hrow, ?_⟩
  have hcustody : custody (m.halt p) = m.custody.setStage p .free := by
    show Custody.mk _ _ _ = Custody.mk _ _ _
    rw [Machine.phase_halt]
    rfl
  rw [hcustody]
  exact hj.leave fun hholding => hcareful.leave p j (.crashed rfl hholding)

/-- **No job is lost in a careful run.** -/
theorem no_job_lost (svc : EmailService) (b : Backend) (as : List Action)
    (hcareful : ∀ t ∈ trace (System.step svc) (Machine.idle b) as, Careful t) :
    NoJobLost (run (System.step svc) (Machine.idle b) as) := by
  have hkept : JobsKept (run (System.step svc) (Machine.idle b) as) := by
    refine Machine.monitored_invariant (body_obeys svc) JobsKept Careful ?_ ?_ ?_ ?_ ?_ as hcareful
    · rintro j ⟨x, hx, _⟩
      cases hx
    · intro m p task hkept hp j hj
      obtain ⟨hrow, hj⟩ := hkept j hj
      refine ⟨hrow, ?_⟩
      show (Custody.mk _ _ ((m.launch p (body svc p task)).phase custodyMonitor)).Kept j
      rw [Machine.phase_launch custodyMonitor hp]
      exact hj
    · intro m a p l s r hkept hask hl hallows hr hC
      exact hkept.deliver hask hl hallows hr hC
    · intro m p hkept hC
      exact hkept.halt hC
    · intro m w hkept j hj
      cases w <;> exact hkept j hj
  intro j job henqueued hjob hstatus hfree
  rcases (hkept j henqueued).2.found hfree with (⟨job', hjob', hcompleted⟩ | hqueued) | hlisted
  · obtain rfl := Option.some.inj (hjob'.symm.trans hjob)
    exact absurd hcompleted hstatus
  · exact .inl hqueued
  · exact .inr hlisted

/-- An entry that a command clears is that of a worker at work on the job. -/
def clearsOwn (m : System) : Command → Bool
  | .zremProcessing (.owned x j) =>
      match m.phase custodyMonitor x with
      | .holding i | .placed i => i == j
      | .free => false
  | _ => true

theorem atWork_of_clearsOwn {m : System} {x j : Uuid} (h : m.clearsOwn (.zremProcessing (.owned x j)) = true) :
    m.custody.AtWork x j := by
  have hstage : m.custody.stage x = m.phase custodyMonitor x := rfl
  unfold clearsOwn at h
  unfold Custody.AtWork
  rw [hstage]
  cases hphase : m.phase custodyMonitor x with
  | free => simp [hphase] at h
  | holding i =>
      simp only [hphase, beq_iff_eq] at h
      exact .inl (congrArg _ h)
  | placed i =>
      simp only [hphase, beq_iff_eq] at h
      exact .inr (congrArg _ h)

/-- A plain step: nothing fails or crashes, no worker's entry is cleared but its
own, and no program ends with a job in its hands. -/
def isPlain (t : Transition System Action) : Bool :=
  match t.act with
  | .start .. | .outside _ => true
  | .refuse .. | .lose .. | .crash _ => false
  | .answer p _ =>
      match t.pre.procs p with
      | none => true
      | some l =>
          t.pre.clearsOwn l.question && match Machine.reply server t.pre.store t.act l.question with
            | none => true
            | some sr =>
                match l.rest sr.2, custodyMonitor.next (t.pre.phase custodyMonitor p) l.question sr.2 with
                | .done _, .holding _ => false
                | _, _ => true

theorem Careful.of_isPlain {t : Transition System Action} (h : isPlain t = true) : Careful t := by
  obtain ⟨m, a, m'⟩ := t
  cases a with
  | start p task =>
      refine ⟨?_, by rintro p c e key j ⟨⟩, by rintro p x j ⟨⟩⟩
      rintro p j (⟨⟨⟩, _⟩ | ⟨_, _, _, _, ⟨⟩, _⟩)
  | outside w =>
      refine ⟨?_, by rintro p c e key j ⟨⟩, by rintro p x j ⟨⟩⟩
      rintro p j (⟨⟨⟩, _⟩ | ⟨_, _, _, _, ⟨⟩, _⟩)
  | refuse p e => cases h
  | lose p c e => cases h
  | crash p => cases h
  | answer p c =>
      simp only [isPlain] at h
      refine ⟨?_, by rintro p c e key j ⟨⟩, ?_⟩
      · rintro p' j (⟨⟨⟩, _⟩ | ⟨l, b, r, res, hask, hl, hr, hres, hnext⟩)
        obtain rfl : p = p' := Option.some.inj hask
        rw [show m.procs p = some l from hl] at h
        dsimp only at hr hnext h
        rw [hr] at h
        dsimp only at h
        rw [hres, hnext] at h
        exact absurd h (by simp)
      · intro p' x j hask hasks hidle
        obtain rfl : p = p' := Option.some.inj hask
        obtain ⟨l, hl, hq⟩ := Option.map_eq_some_iff.mp hasks
        rw [show m.procs p = some l from hl] at h
        dsimp only at h
        obtain ⟨hown, -⟩ := Bool.and_eq_true_iff.mp h
        rw [hq] at hown
        exact absurd (atWork_of_clearsOwn hown) hidle

/-- After the turn that failed the job waits in the retry set; neither then nor
after its retry is it lost. -/
theorem sampleRetry_not_lost :
    (sampleJobId ∈ (run (System.step sampleService) (Machine.idle ⟨1000, {}, {}, []⟩)
          (sampleRetry.take 42)).store.redis.jobs .retry
        ∧ NoJobLost (run (System.step sampleService) (Machine.idle ⟨1000, {}, {}, []⟩) (sampleRetry.take 42)))
      ∧ NoJobLost (run (System.step sampleService) (Machine.idle ⟨1000, {}, {}, []⟩) sampleRetry) := by
  have hplain : (trace (System.step sampleService) (Machine.idle ⟨1000, {}, {}, []⟩)
      sampleRetry).all isPlain = true := by decide +kernel
  have hcareful : ∀ t ∈ trace (System.step sampleService) (Machine.idle ⟨1000, {}, {}, []⟩) sampleRetry, Careful t :=
    fun t ht => .of_isPlain (List.all_eq_true.mp hplain t ht)
  refine ⟨⟨by decide +kernel, no_job_lost sampleService ⟨1000, {}, {}, []⟩ (sampleRetry.take 42) ?_⟩,
    no_job_lost sampleService ⟨1000, {}, {}, []⟩ sampleRetry hcareful⟩
  exact fun t ht => hcareful t (mem_trace_of_isPrefix _ (List.take_prefix 42 sampleRetry) ht)

/-- An enqueue to its end, and a worker that crashes right after its `ZPOPMIN`. -/
def samplePopped : List Action :=
  sampleEnqueue sampleJobId "data"
    ++ .start sampleWorkerId .workerTurn
      :: List.replicate 11 (.answer sampleWorkerId (sampleChoice sampleJobId))
    ++ [.crash sampleWorkerId]

def samplePoppedState : System :=
  run (System.step sampleService) (Machine.idle ⟨1000, {}, {}, []⟩) samplePopped

/-- The job is pending and nowhere to be found. -/
theorem samplePopped_lost : ¬NoJobLost samplePoppedState := by
  intro h
  have hlog : samplePoppedState.log.any (fun x => created x.2 == some sampleJobId) = true := by
    decide +kernel
  obtain ⟨x, hx, hcreated⟩ := List.any_eq_true.mp hlog
  have hstatus : (samplePoppedState.store.db.jobs.lookup sampleJobId).map (·.status)
      = some "pending" := by decide +kernel
  obtain ⟨job, hjob, hpending⟩ := Option.map_eq_some_iff.mp hstatus
  have hidle : ∀ p, samplePoppedState.procs p = none := by
    intro p
    by_cases hp : p = sampleApiId ∨ p = sampleWorkerId
    · have hnone : ∀ p ∈ [sampleApiId, sampleWorkerId],
          (samplePoppedState.procs p).isNone = true := by decide +kernel
      exact Option.isNone_iff_eq_none.mp (hnone p (by simpa using hp))
    · have hstarts : ∀ a ∈ samplePopped, ∀ task, a ≠ .start p task := by
        rintro a ha task rfl
        simp only [samplePopped, sampleEnqueue, List.mem_append, List.mem_cons, List.mem_replicate,
          Act.start.injEq, reduceCtorEq, and_false, or_false, List.not_mem_nil] at ha
        exact hp (ha.imp And.left And.left)
      exact Machine.procs_run_eq_none server (body sampleService) outside hstarts _
  have hfree : ∀ p, ¬samplePoppedState.custody.AtWork p sampleJobId := by
    intro p hp
    have hfree : samplePoppedState.phase custodyMonitor p = .free := by
      rw [Machine.phase, hidle p]
      rfl
    rcases hp with hp | hp <;> exact absurd (hfree.symm.trans hp) (by simp)
  rcases h sampleJobId job ⟨x, hx, beq_iff_eq.mp hcreated⟩ hjob (by rw [hpending]; decide) hfree with
    ⟨key, hkey⟩ | ⟨worker, hworker⟩
  · have hempty : ∀ key, sampleJobId ∉ samplePoppedState.store.redis.jobs key := by
      intro key
      cases key <;> decide +kernel
    exact hempty key hkey
  · have hempty : samplePoppedState.store.redis.processing.zrange = [] := by decide +kernel
    rw [Backend.isListed, SortedSet.mem_def, hempty] at hworker
    cases hworker

end System

end PredictIQ.Email
