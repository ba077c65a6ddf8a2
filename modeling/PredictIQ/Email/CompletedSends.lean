/-
  PredictIQ.Email.CompletedSends: has a completed job been sent?

  The idempotency key of a job is taken before its email is sent, is kept when
  the send fails, and is shared by all jobs of one recipient, template and
  hour; a worker that finds it taken completes its job.  `KeyMeansSent` names
  the steps at which that is right; `completed_means_sent` says that in a run
  of such steps every job that is completed has been sent or is suppressed.
-/
import PredictIQ.Email.SendEvidence

namespace PredictIQ.Email

open Foundation

/-! ## §1. What was sent. -/

/-- SendGrid has accepted the email of a job: its recipient, template and data. -/
def EmailService.HasAccepted (svc : EmailService) (b : Backend) (job : EmailJob) : Prop :=
  ∃ p ∈ b.accepted, svc.payloadOf job = .ok p

/-- **Completed means sent**: a completed job has been sent or its recipient is
suppressed, and the job of a sent event has been sent. -/
structure CompletedMeansSent (svc : EmailService) (b : Backend) : Prop where
  completed : ∀ j job, b.db.jobs.lookup j = some job →
    job.status = EmailJobStatus.completed.asStr →
    svc.HasAccepted b job ∨ job.recipientEmail ∈ b.db.suppressions
  sent : ∀ e ∈ b.db.events, e.eventType = "sent" →
    ∃ j job, e.emailJobId = some j ∧ b.db.jobs.lookup j = some job ∧ svc.HasAccepted b job

/-! ## §2. What is never taken back. -/

/-- Rows keep their emails, and records stay. -/
structure Backend.Grows (b b' : Backend) : Prop where
  rows : ∀ j job, b.db.jobs.lookup j = some job →
    ∃ job', b'.db.jobs.lookup j = some job' ∧ job.SameMail job'
  suppressions : ∀ email ∈ b.db.suppressions, email ∈ b'.db.suppressions
  accepted : ∀ p ∈ b.accepted, p ∈ b'.accepted

section Grows

variable {svc : EmailService} {c : Choice} {b b' : Backend} {q : Command} {v : Reply q}
  {job job' : EmailJob}

theorem EmailJob.SameMail.refl (job : EmailJob) : job.SameMail job := ⟨rfl, rfl, rfl, rfl⟩

theorem EmailJob.SameMail.trans {job'' : EmailJob} (h : job.SameMail job') (h' : job'.SameMail job'') :
    job.SameMail job'' :=
  ⟨h'.recipientEmail.trans h.recipientEmail, h'.templateName.trans h.templateName,
    h'.templateData.trans h.templateData, h'.createdAt.trans h.createdAt⟩

theorem Backend.Grows.refl (b : Backend) : b.Grows b :=
  ⟨fun _ job h => ⟨job, h, .refl job⟩, fun _ h => h, fun _ h => h⟩

theorem grows_of_exec (h : exec c b q = some (v, b')) : b.Grows b' := by
  obtain ⟨hsuppressions, _, haccepted⟩ := recorded_of_exec h
  refine ⟨fun j job hj => ?_, fun email hemail => by rwa [hsuppressions], fun p hp => ?_⟩
  · obtain ⟨job', hj', hmail, _⟩ := row_of_exec h hj
    exact ⟨job', hj', hmail⟩
  · rcases haccepted with hsame | ⟨p', _, hmore⟩
    · rwa [hsame]
    · rw [hmore]
      exact List.mem_append_left _ hp

theorem grows_outside (w : Outside) (b : Backend) : b.Grows (outside w b) := by
  cases w with
  | tick seconds => exact ⟨fun _ job h => ⟨job, h, .refl job⟩, fun _ h => h, fun _ h => h⟩
  | suppress email =>
      exact ⟨fun _ job h => ⟨job, h, .refl job⟩, fun _ h => List.mem_cons_of_mem _ h, fun _ h => h⟩

/-- A row whose email is that of an accepted one has been sent too. -/
theorem EmailService.HasAccepted.mono (h : svc.HasAccepted b job) (hgrows : b.Grows b')
    (hmail : job.SameMail job') : svc.HasAccepted b' job' := by
  obtain ⟨p, hp, hpayload⟩ := h
  refine ⟨p, hgrows.accepted p hp, ?_⟩
  rw [← hpayload, EmailService.payloadOf, EmailService.payloadOf, hmail.recipientEmail,
    hmail.templateName, hmail.templateData]

end Grows

/-! ## §3. Dossiers hold. -/

/-- What a clearance says of a job. -/
def Clearance.Holds (svc : EmailService) (b : Backend) (job : EmailJob) : Clearance → Prop
  | .none => True
  | .suppressed => job.recipientEmail ∈ b.db.suppressions
  | .mailed => svc.HasAccepted b job

/-- The row of a dossier is stored, and its clearance holds. -/
def Dossier.Valid (svc : EmailService) (b : Backend) (d : Dossier) : Prop :=
  ∀ id job, d.job = some (id, job) →
    (∃ row, b.db.jobs.lookup id = some row ∧ job.SameMail row) ∧ d.clearance.Holds svc b job

section Valid

variable {svc : EmailService} {c : Choice} {b b' : Backend} {q : Command} {v : Reply q} {d : Dossier}

theorem Clearance.Holds.mono {job job' : EmailJob} {clearance : Clearance}
    (h : clearance.Holds svc b job) (hgrows : b.Grows b') (hmail : job.SameMail job') :
    clearance.Holds svc b' job' := by
  cases clearance with
  | none => trivial
  | suppressed =>
      show job'.recipientEmail ∈ _
      rw [hmail.recipientEmail]
      exact hgrows.suppressions _ h
  | mailed => exact EmailService.HasAccepted.mono h hgrows hmail

/-- Whatever clears a job is an email or a suppression. -/
theorem Clearance.Holds.sent_or_suppressed {job : EmailJob} {clearance : Clearance}
    (h : clearance.Holds svc b job) (hclear : clearance ≠ .none) :
    svc.HasAccepted b job ∨ job.recipientEmail ∈ b.db.suppressions := by
  cases clearance with
  | none => exact absurd rfl hclear
  | suppressed => exact .inr h
  | mailed => exact .inl h

theorem Dossier.valid_start (b : Backend) : (evidenceMonitor svc).start.Valid svc b := by
  rintro id job ⟨⟩

theorem Dossier.Valid.mono (h : d.Valid svc b) (hgrows : b.Grows b') : d.Valid svc b' := by
  intro id job hd
  obtain ⟨⟨row, hrow, hmail⟩, hholds⟩ := h id job hd
  obtain ⟨row', hrow', hmail'⟩ := hgrows.rows id row hrow
  exact ⟨⟨row', hrow', hmail.trans hmail'⟩, hholds.mono hgrows (.refl job)⟩

/-- A better clearance, on the same row. -/
theorem Dossier.Valid.clear {id : Uuid} {job : EmailJob} {clearance clearance' : Clearance}
    (h : Dossier.Valid svc b ⟨some (id, job), clearance⟩) (hholds : clearance'.Holds svc b job) :
    Dossier.Valid svc b ⟨some (id, job), clearance'⟩ := by
  rintro _ _ ⟨⟩
  exact ⟨(h id job rfl).1, hholds⟩

/-- What an answered command adds to a dossier holds, as long as a key that is
taken speaks for an email. -/
theorem Dossier.Valid.next (h : d.Valid svc b) (hexec : exec c b q = some (v, b'))
    (hkey : ∀ key seconds id job, q = .setNxEx key seconds → d.job = some (id, job) →
      b.redis.get b.now key ≠ none → svc.HasAccepted b job) :
    Dossier.Valid svc b' ((evidenceMonitor svc).next d q (.ok v)) := by
  have hgrows := grows_of_exec hexec
  have hsame := h.mono hgrows
  cases q with
  | getJob id =>
      cases v with
      | none => obtain ⟨_ | ⟨id, job⟩, clearance⟩ := d <;> exact hsame
      | some row =>
          obtain ⟨hrow, rfl⟩ := Prod.mk.inj (Option.some.inj hexec)
          show Dossier.Valid svc b (if d.job.map Prod.fst = some id then d else ⟨some (id, row), .none⟩)
          split
          · exact hsame
          · rintro _ _ ⟨⟩
            exact ⟨⟨row, hrow, .refl row⟩, trivial⟩
  | isSuppressed email =>
      obtain ⟨_ | ⟨id, job⟩, clearance⟩ := d
      · exact hsame
      · obtain ⟨hsuppressed, rfl⟩ := Prod.mk.inj (Option.some.inj hexec)
        show Dossier.Valid svc b (if v = true ∧ email = job.recipientEmail then _ else _)
        split
        · rename_i hv
          obtain ⟨rfl, rfl⟩ := hv
          exact hsame.clear (List.contains_iff_mem.mp hsuppressed)
        · exact hsame
  | setNxEx key seconds =>
      obtain ⟨_ | ⟨id, job⟩, clearance⟩ := d
      · exact hsame
      · show Dossier.Valid svc b'
          (if v = false ∧ key = idempotencyRedisKey (svc.idempotencyKeyOf job) then _ else _)
        split
        · rename_i hv
          obtain ⟨rfl, rfl⟩ := hv
          -- the key was there: by `hkey`, so was the email
          have hsent := hkey _ seconds id job rfl rfl (get_of_setNxEx hexec)
          exact hsame.clear (hsent.mono hgrows (.refl job))
        · exact hsame
  | post p =>
      obtain ⟨_ | ⟨id, job⟩, clearance⟩ := d
      · exact hsame
      · show Dossier.Valid svc b' (if v.isSuccess = true ∧ svc.payloadOf job = .ok p then _ else _)
        split
        · rename_i hv
          exact hsame.clear ⟨p, accepted_of_post hexec hv.1, hv.2⟩
        · exact hsame
  | _ => obtain ⟨_ | ⟨id, job⟩, clearance⟩ := d <;> exact hsame

/-- An error adds nothing. -/
theorem next_error (d : Dossier) (q : Command) (e : String) :
    (evidenceMonitor svc).next d q (.error e) = d := by
  obtain ⟨_ | ⟨id, job⟩, clearance⟩ := d <;> cases q <;> rfl

/-- **A command that its dossier allows** completes no job that has not been sent. -/
theorem CompletedMeansSent.exec (h : CompletedMeansSent svc b) (hexec : exec c b q = some (v, b'))
    (hd : d.Valid svc b) (hallows : (evidenceMonitor svc).allows d q) : CompletedMeansSent svc b' := by
  have hgrows := grows_of_exec hexec
  refine ⟨fun j job' hj' hcompleted => ?_, fun e he hsent => ?_⟩
  · have hstays : ∀ {job : EmailJob}, job.SameMail job' →
        svc.HasAccepted b job ∨ job.recipientEmail ∈ b.db.suppressions →
        svc.HasAccepted b' job' ∨ job'.recipientEmail ∈ b'.db.suppressions := by
      rintro job hmail (haccepted | hsuppressed)
      · exact .inl (haccepted.mono hgrows hmail)
      · rw [hmail.recipientEmail]
        exact .inr (hgrows.suppressions _ hsuppressed)
    rcases row_before_exec hexec hj' with hpending | ⟨job, hj, hmail, hsame | ⟨e, rfl⟩⟩
    · exact absurd (hpending.symm.trans hcompleted) (by decide)
    · exact hstays hmail (h.completed j job hj (hsame.symm.trans hcompleted))
    · -- the row is completed now, on a dossier that clears it
      obtain ⟨⟨known, hknown⟩, hclear⟩ := hallows hcompleted
      obtain ⟨⟨row, hrow, hmail'⟩, hholds⟩ := hd j known hknown
      obtain rfl := Option.some.inj (hrow.symm.trans hj)
      exact hstays (hmail'.trans hmail) (hholds.sent_or_suppressed hclear)
  · have hstays : ∀ j job, b.db.jobs.lookup j = some job → svc.HasAccepted b job →
        ∃ job', b'.db.jobs.lookup j = some job' ∧ svc.HasAccepted b' job' := by
      intro j job hj haccepted
      obtain ⟨job', hj', hmail⟩ := hgrows.rows j job hj
      exact ⟨job', hj', haccepted.mono hgrows hmail⟩
    have hcases : e ∈ b.db.events ∨ q = .createEvent e := by
      rcases (recorded_of_exec hexec).events with hsame | ⟨e', rfl, hmore⟩
      · exact .inl (hsame ▸ he)
      · rw [hmore, List.mem_append, List.mem_singleton] at he
        rcases he with he | rfl
        · exact .inl he
        · exact .inr rfl
    rcases hcases with hold | rfl
    · obtain ⟨j, job, hid, hj, haccepted⟩ := h.sent e hold hsent
      obtain ⟨job', hj', haccepted'⟩ := hstays j job hj haccepted
      exact ⟨j, job', hid, hj', haccepted'⟩
    · -- the event is recorded now, on a dossier that knows of an email
      obtain ⟨j, known, hid, hknown, hmailed⟩ := hallows hsent
      obtain ⟨⟨row, hrow, hmail⟩, hholds⟩ := hd j known hknown
      rw [hmailed] at hholds
      obtain ⟨job', hj', haccepted⟩ := hstays j row hrow (hholds.mono (.refl b) hmail)
      exact ⟨j, job', hid, hj', haccepted⟩

theorem CompletedMeansSent.outside (h : CompletedMeansSent svc b) (w : Outside) :
    CompletedMeansSent svc (outside w b) := by
  have hgrows := grows_outside w b
  have hrows : (PredictIQ.Email.outside w b).db.jobs = b.db.jobs := by cases w <;> rfl
  have hevents : (PredictIQ.Email.outside w b).db.events = b.db.events := by cases w <;> rfl
  refine ⟨fun j job hj hcompleted => ?_, fun e he hsent => ?_⟩
  · rw [hrows] at hj
    exact (h.completed j job hj hcompleted).imp (·.mono hgrows (.refl job)) (hgrows.suppressions _)
  · rw [hevents] at he
    rw [hrows]
    obtain ⟨j, job, hid, hj, haccepted⟩ := h.sent e he hsent
    exact ⟨j, job, hid, hj, haccepted.mono hgrows (.refl job)⟩

end Valid

/-! ## §4. Runs. -/

namespace System

/-- What a process knows of its job. -/
def dossier (svc : EmailService) (m : System) (p : Uuid) : Dossier :=
  m.phase (evidenceMonitor svc) p

/-- **A taken key is the key of an email**: a `SET NX` that finds the key of its
job comes after SendGrid has accepted the email of that job. -/
def KeyMeansSent (svc : EmailService) (t : Transition System Action) : Prop :=
  ∀ p c key seconds id job, t.act = .answer p c → t.pre.asks p = some (.setNxEx key seconds) →
    (t.pre.dossier svc p).job = some (id, job) →
    t.pre.store.redis.get t.pre.store.now key ≠ none → svc.HasAccepted t.pre.store job

/-- Completed means sent, and every dossier holds. -/
structure Evidenced (svc : EmailService) (m : System) : Prop where
  sent : CompletedMeansSent svc m.store
  valid : ∀ p, (m.dossier svc p).Valid svc m.store

variable {svc : EmailService}

theorem Evidenced.deliver {m : System} (h : Evidenced svc m) {a : Action} {p : Uuid}
    {l : Live Reply String} {b : Backend} {r : Except String (Reply l.question)}
    (hl : m.procs p = some l) (hallows : (evidenceMonitor svc).allows (m.dossier svc p) l.question)
    (hask : a.asker = some p) (hr : Machine.reply server m.store a l.question = some (b, r))
    (hkey : KeyMeansSent svc ⟨m, a, m.deliver p l b r⟩) : Evidenced svc (m.deliver p l b r) := by
  have hafter : m.store.Grows b ∧ CompletedMeansSent svc b
      ∧ ((evidenceMonitor svc).next (m.dossier svc p) l.question r).Valid svc b := by
    rcases reply_cases hr with ⟨p', c, v, rfl, rfl, hexec⟩ | ⟨e, rfl, rfl⟩ | ⟨_, c, e, v, -, rfl, hexec⟩
    · obtain rfl : p' = p := Option.some.inj hask
      refine ⟨grows_of_exec hexec, h.sent.exec hexec (h.valid p') hallows, (h.valid p').next hexec ?_⟩
      intro key seconds id job hq hjob hget
      refine hkey p' c key seconds id job rfl ?_ hjob hget
      rw [asks, hl, ← hq]
      rfl
    · exact ⟨.refl _, h.sent, by rw [next_error]; exact h.valid p⟩
    · have hgrows := grows_of_exec hexec
      exact ⟨hgrows, h.sent.exec hexec (h.valid p) hallows,
        by rw [next_error]; exact (h.valid p).mono hgrows⟩
  obtain ⟨hgrows, hsent, hnext⟩ := hafter
  refine ⟨hsent, fun p' => ?_⟩
  rw [dossier, Machine.phase_deliver (evidenceMonitor svc) hl]
  by_cases hpp : p' = p
  · subst hpp
    rw [Function.update_self]
    cases l.rest r with
    | done res => exact Dossier.valid_start b
    | ask q k => exact hnext
  · rw [Function.update_of_ne hpp]
    exact (h.valid p').mono hgrows

theorem Evidenced.halt {m : System} (h : Evidenced svc m) (p : Uuid) :
    Evidenced svc (m.halt p) := by
  refine ⟨h.sent, fun p' => ?_⟩
  rw [dossier, Machine.phase_halt]
  by_cases hpp : p' = p
  · subst hpp
    rw [Function.update_self]
    exact Dossier.valid_start _
  · rw [Function.update_of_ne hpp]
    exact h.valid p'

/-- **Completed means sent** in every run whose taken keys are those of emails. -/
theorem completed_means_sent (svc : EmailService) (b : Backend) (hstart : CompletedMeansSent svc b)
    (as : List Action)
    (hkeys : ∀ t ∈ trace (System.step svc) (Machine.idle b) as, KeyMeansSent svc t) :
    CompletedMeansSent svc (run (System.step svc) (Machine.idle b) as).store := by
  refine (Machine.monitored_invariant (body_knows svc) (Evidenced svc) (KeyMeansSent svc)
    ⟨hstart, fun p => Dossier.valid_start b⟩ ?_ ?_ ?_ ?_ as hkeys).sent
  · intro m p task h hp
    refine ⟨h.sent, fun p' => ?_⟩
    rw [dossier, Machine.phase_launch (evidenceMonitor svc) hp]
    exact h.valid p'
  · intro m a p l b r h hask hl hallows hr hkey
    exact h.deliver hl hallows hask hr hkey
  · intro m p h _
    exact h.halt p
  · intro m w h
    exact ⟨h.sent.outside w, fun p => (h.valid p).mono (grows_outside w m.store)⟩

/-- The step finds no key taken, or that of a job whose email was accepted. -/
def findsSent (svc : EmailService) (t : Transition System Action) : Bool :=
  match t.act with
  | .answer p _ =>
      match t.pre.asks p with
      | some (.setNxEx key _) =>
          (t.pre.store.redis.get t.pre.store.now key).isNone
            || (t.pre.dossier svc p).job.all fun (_, job) =>
                t.pre.store.accepted.any fun payload => svc.payloadOf job = .ok payload
      | _ => true
  | _ => true

theorem KeyMeansSent.of_findsSent {t : Transition System Action} (h : findsSent svc t = true) :
    KeyMeansSent svc t := by
  intro p c key seconds id job hact hasks hjob htaken
  simp only [findsSent, hact, hasks, hjob, Option.all_some, Bool.or_eq_true, Option.isNone_iff_eq_none,
    List.any_eq_true, decide_eq_true_eq] at h
  exact h.resolve_left htaken

theorem sent_of_empty (svc : EmailService) (now : Int) : CompletedMeansSent svc ⟨now, {}, {}, []⟩ where
  completed := by
    rintro j job ⟨⟩
  sent := by
    rintro e ⟨⟩

/-- An enqueue to its end, and a worker's turn in which SendGrid accepts. -/
def sampleDelivery : List Action :=
  sampleEnqueue sampleJobId "data"
    ++ .start sampleWorkerId .workerTurn
      :: List.replicate 40 (.answer sampleWorkerId (sampleChoice sampleJobId))

/-- SendGrid accepts the email, but the database is down when the job is to be
completed; two minutes later the job is taken again. -/
def sampleRedelivery : List Action :=
  sampleEnqueue sampleJobId "data"
    ++ .start sampleWorkerId .workerTurn
      :: List.replicate 24 (.answer sampleWorkerId (sampleChoice sampleJobId))
    ++ .refuse sampleWorkerId "connection reset"
      :: List.replicate 11 (.answer sampleWorkerId (sampleChoice sampleJobId))
    ++ .outside (.tick 120) :: .start sampleWorkerId .workerTurn
      :: List.replicate 31 (.answer sampleWorkerId (sampleChoice sampleJobId))

def sampleRedeliveryState : System :=
  run (System.step sampleService) (Machine.idle ⟨1000, {}, {}, []⟩) sampleRedelivery

/-- The second turn finds the key taken and completes the job, whose one email was accepted. -/
theorem sampleRedelivery_sent :
    ((sampleRedeliveryState.store.db.jobs.lookup sampleJobId).map (·.status) = some "completed"
        ∧ sampleRedeliveryState.store.accepted.length = 1)
      ∧ CompletedMeansSent sampleService sampleRedeliveryState.store := by
  refine ⟨by decide +kernel, completed_means_sent sampleService ⟨1000, {}, {}, []⟩
    (sent_of_empty sampleService 1000) sampleRedelivery ?_⟩
  intro t ht
  have hfinds : (trace (System.step sampleService) (Machine.idle ⟨1000, {}, {}, []⟩)
      sampleRedelivery).all (findsSent sampleService) = true := by decide +kernel
  exact .of_findsSent (List.all_eq_true.mp hfinds t ht)

def sampleRetryState : System :=
  run (System.step sampleService) (Machine.idle ⟨1000, {}, {}, []⟩) sampleRetry

/-- The retry finds the key of the first turn and completes the job, though no
email was ever accepted. -/
theorem sampleRetry_unsent :
    Function.Injective (sampleService.crates.hmacSha256Hex sampleService.idempotencySecret)
      ∧ sampleService.cache ≠ none ∧ ¬CompletedMeansSent sampleService sampleRetryState.store := by
  refine ⟨fun _ _ hmac => hmac, Option.some_ne_none 3, fun h => ?_⟩
  have hstate : sampleRetryState.store.db.events.any (·.eventType == "sent") = true
      ∧ sampleRetryState.store.accepted = [] := by
    decide +kernel
  obtain ⟨e, he, hsent⟩ := List.any_eq_true.mp hstate.1
  obtain ⟨j, job, _, _, p, hp, _⟩ := h.sent e he (beq_iff_eq.mp hsent)
  rw [hstate.2] at hp
  cases hp

end System

end PredictIQ.Email
