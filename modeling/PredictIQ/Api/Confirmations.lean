/-
  PredictIQ.Api.Confirmations: can a pending subscription be confirmed?

  Each subscription stores a new token and enqueues an email with its link,
  while a worker sends one email for a recipient, template and hour.
  `pending_can_be_confirmed` says that in a run in which no call fails the
  token of every pending row has been mailed whenever the queue is drained, as
  long as no process crashes with a token or a job in hand, every confirmation
  that is enqueued can be made into an email, and no job is turned away for the
  key of another.
-/
import PredictIQ.Api.Duties
import PredictIQ.Email.CompletedSends

namespace PredictIQ.Api

open Foundation

/-! ## §1. The property and its conditions. -/

/-- Whether an answer leaves a process with a token to mail or a job to do. -/
def takesUp : (q : Command) → Except String (Reply q) → Bool
  | .newsletterUpsertPending .., .ok _ => true
  | .email (.zpopmin .queue), .ok (some _) => true
  | _, _ => false

/-- The queue is drained: no job waits for its turn or its retry, and no
process in flight has stored a token or taken a job. -/
structure Drained (m : Newsletters) : Prop where
  queue : ∀ j, j ∉ m.store.email.redis.jobs .queue
  retry : ∀ j, j ∉ m.store.email.redis.jobs .retry
  inFlight : ∀ p l, m.procs p = some l → ∀ x ∈ l.heard, takesUp x.question x.answer = false

section Setup

variable (h : NewsletterHandler) (svc : Email.EmailService)

/-- The row waits for its confirmation, and its token is valid. -/
structure Pending (b : Backend) (row : Newsletter.NewsletterSubscriber) : Prop where
  unconfirmed : row.confirmed = false
  subscribed : row.unsubscribedAt = none
  kept : row.deletedAt = none
  recent : b.nowMicros - row.createdAt < h.newsletterTokenTtlSecs.toNat * 1000000

/-- SendGrid has accepted the email with the confirmation link of the token. -/
def Mailed (b : Backend) (email token : String) : Prop :=
  ∃ payload ∈ b.email.accepted, svc.payload email confirmationTemplate (h.templateData email token) = .ok payload

/-- The answer is not a failure: the circuit breaker is closed, SendGrid says
so, and the recipient is neither suppressed nor over the hourly limit. -/
def succeeds (b : Backend) (c : Choice) : Command → Bool
  | .email .breakerAllow => c.email.breakerClosed
  | .email (.post _) => c.email.response.isSuccess
  | .email (.isSuppressed email) => !b.email.db.suppressions.contains email
  | .email (.incrWithTtl key seconds) =>
      decide ((b.email.redis.incrWithTtl b.email.now key seconds).1 ≤ svc.config.emailPerRecipientHourlyLimit)
  | _ => true

/-- No call fails in this step. -/
def CallSucceeds (t : Transition Newsletters NewsletterAction) : Prop :=
  match t.act with
  | .answer p c => ∀ l ∈ t.pre.procs p, succeeds svc t.pre.store c l.question = true
  | .refuse .. | .lose .. => False
  | .start .. | .crash _ | .outside _ => True

/-- The backend before the first subscription. -/
def Backend.launch (now : Int) : Backend := { email := { now := now } }

/-- **A pending subscription can be confirmed**: whenever the queue is drained,
the token of every pending row has been mailed to its address. -/
def PendingConfirmable (now : Int) (as : List NewsletterAction) : Prop :=
  (∀ t ∈ trace (Newsletters.step h svc) (.idle (.launch now)) as, CallSucceeds svc t) →
    ∀ bs, bs <+: as → Drained (run (Newsletters.step h svc) (.idle (.launch now)) bs) →
      ∀ email row, (run (Newsletters.step h svc) (.idle (.launch now)) bs).store.subscribers.lookup email = some row →
        Pending h (run (Newsletters.step h svc) (.idle (.launch now)) bs).store row →
        ∃ token ∈ row.confirmationToken,
          Mailed h svc (run (Newsletters.step h svc) (.idle (.launch now)) bs).store email token

/-- The job that the command creates can be made into an email. -/
def makesEmail : Command → Bool
  | .email (.createJob _ recipient templateName templateData _) => (svc.payload recipient templateName templateData).isOk
  | _ => true

/-- When a job finds its key taken, no other job has the key. -/
def ownKey (b : Backend) : Command → Bool
  | .email (.setNxEx key _) => (b.email.redis.get b.email.now key).isNone || b.email.db.jobs.entries.all fun e =>
      b.email.db.jobs.entries.all fun e' =>
        !(svc.redisKeyOf e.2 == key) || !(svc.redisKeyOf e'.2 == key) || e.1 == e'.1
  | _ => true

/-- Every confirmation that is enqueued can be made into an email. -/
def Deliverable (t : Transition Newsletters NewsletterAction) : Prop :=
  ∀ p ∈ t.act.asker, ∀ l ∈ t.pre.procs p, makesEmail svc l.question = true

/-- No job is turned away for the key of another. -/
def OwnKey (t : Transition Newsletters NewsletterAction) : Prop :=
  ∀ p ∈ t.act.asker, ∀ l ∈ t.pre.procs p, ownKey svc t.pre.store l.question = true

/-- Who crashes has neither stored a token nor taken a job. -/
def CrashesIdle (t : Transition Newsletters NewsletterAction) : Prop :=
  ∀ p, t.act = .crash p → ∀ l ∈ t.pre.procs p, ∀ x ∈ l.heard, takesUp x.question x.answer = false

end Setup

/-! ## §2. What is carried. -/

namespace Duty

/-- The row of the job has been read, and its email is not yet sent. -/
def Reads (d : Duty) (id : Email.Uuid) (job : Email.EmailJob) : Prop := d = .reading id job ∨ d = .sending id job

/-- The job is in hand. -/
def Carries (d : Duty) (id : Email.Uuid) : Prop := d = .holding id ∨ ∃ job, d.Reads id job

theorem not_carries_free (id : Email.Uuid) : ¬Duty.free.Carries id := by
  rintro (hd | ⟨job, hd | hd⟩) <;> cases hd

theorem not_carries_token (email stored : String) (id : Email.Uuid) : ¬(Duty.token email stored).Carries id := by
  rintro (hd | ⟨job, hd | hd⟩) <;> cases hd

end Duty

/-- The job is that of the email with the link of the token. -/
structure IsConfirmation (h : NewsletterHandler) (job : Email.EmailJob) (email token : String) : Prop where
  recipientEmail : job.recipientEmail = email
  templateName : job.templateName = confirmationTemplate
  templateData : job.templateData = h.templateData email token

theorem IsConfirmation.mono {h : NewsletterHandler} {job job' : Email.EmailJob} {email token : String}
    (hjob : IsConfirmation h job email token) (hmail : job.SameMail job') : IsConfirmation h job' email token :=
  ⟨hmail.recipientEmail.trans hjob.recipientEmail, hmail.templateName.trans hjob.templateName,
    hmail.templateData.trans hjob.templateData⟩

/-- The row waits for a confirmation. -/
def Waits (row : Newsletter.NewsletterSubscriber) : Prop := row.confirmed = false ∧ row.unsubscribedAt = none

section Carrying

variable (h : NewsletterHandler) (svc : Email.EmailService)

/-- **Nothing is dropped**: a row that waits has a token that is on its way to
a job or has one; a job can be made into an email and is in the queue, in hand
or sent; a key belongs to a job that is sent or about to be. -/
structure Carried (φ : Email.Uuid → Duty) (b : Backend) : Prop where
  calm : ∀ p, φ p ≠ .troubled
  tokens : ∀ email row, b.subscribers.lookup email = some row → Waits row →
    ∃ token ∈ row.confirmationToken, (∃ p, φ p = .token email token)
      ∨ ∃ id job, b.email.db.jobs.lookup id = some job ∧ IsConfirmation h job email token
  jobs : ∀ id job, b.email.db.jobs.lookup id = some job → (svc.payloadOf job).isOk = true
    ∧ (id ∈ b.email.redis.jobs .queue ∨ (∃ p, (φ p).Carries id) ∨ svc.HasAccepted b.email job)
  rows : ∀ p id job, (φ p).Reads id job → ∃ row, b.email.db.jobs.lookup id = some row ∧ job.SameMail row
  keys : ∀ idem, b.email.redis.strings.lookup (Email.idempotencyRedisKey idem) ≠ none →
    ∃ id row, b.email.db.jobs.lookup id = some row ∧ svc.redisKeyOf row = Email.idempotencyRedisKey idem
      ∧ (svc.HasAccepted b.email row ∨ ∃ p job, φ p = .sending id job)

/-- What an answer to `p` does: its duty becomes `d`, and what it had in hand
is handed over. -/
structure Handover (φ : Email.Uuid → Duty) (p : Email.Uuid) (d : Duty) (b b' : Email.Backend) : Prop where
  grows : b.Grows b'
  calm : d ≠ .troubled
  tokens : ∀ email token, φ p = .token email token →
    d = .token email token ∨ ∃ id job, b'.db.jobs.lookup id = some job ∧ IsConfirmation h job email token
  created : ∀ id job, b'.db.jobs.lookup id = some job →
    (∃ old, b.db.jobs.lookup id = some old ∧ old.SameMail job) ∨ (svc.payloadOf job).isOk = true ∧ d.Carries id
  queue : ∀ id ∈ b.redis.jobs .queue, id ∈ b'.redis.jobs .queue ∨ d.Carries id
  carried : ∀ id, (φ p).Carries id → d.Carries id ∨ id ∈ b'.redis.jobs .queue ∨ (∃ p', p' ≠ p ∧ (φ p').Carries id)
    ∨ ∀ row, b'.db.jobs.lookup id = some row → svc.HasAccepted b' row
  reads : ∀ id job, d.Reads id job →
    (φ p).Reads id job ∨ ∃ row, b'.db.jobs.lookup id = some row ∧ job.SameMail row
  keys : ∀ idem, b'.redis.strings.lookup (Email.idempotencyRedisKey idem) ≠ none →
    b.redis.strings.lookup (Email.idempotencyRedisKey idem) ≠ none
      ∨ ∃ id job, d = .sending id job ∧ svc.redisKeyOf job = Email.idempotencyRedisKey idem
  sending : ∀ id job, φ p = .sending id job →
    d = .sending id job ∨ ∀ row, b'.db.jobs.lookup id = some row → svc.HasAccepted b' row

variable {h svc} {φ : Email.Uuid → Duty} {p : Email.Uuid} {d : Duty} {b b' : Backend}

theorem payloadOf_of_sameMail {job job' : Email.EmailJob} (hmail : job.SameMail job') :
    svc.payloadOf job' = svc.payloadOf job := by
  unfold Email.EmailService.payloadOf
  rw [hmail.recipientEmail, hmail.templateName, hmail.templateData]

/-- **A handover drops nothing.** -/
theorem Carried.handover (hcarried : Carried h svc φ b) (hand : Handover h svc φ p d b.email b'.email)
    (hsubscribers : b'.subscribers = b.subscribers) : Carried h svc (Function.update φ p d) b' := by
  have hself : Function.update φ p d p = d := Function.update_self p d φ
  have hother : ∀ {p'}, p' ≠ p → Function.update φ p d p' = φ p' := fun hne => Function.update_of_ne hne d φ
  have hreads : ∀ id job, d.Reads id job → ∃ row, b'.email.db.jobs.lookup id = some row ∧ job.SameMail row := by
    intro id job hd
    rcases hand.reads id job hd with hd | hrow
    · obtain ⟨row, hrow, hmail⟩ := hcarried.rows p id job hd
      obtain ⟨row', hrow', hmail'⟩ := hand.grows.rows id row hrow
      exact ⟨row', hrow', hmail.trans hmail'⟩
    · exact hrow
  refine ⟨fun p' => ?_, fun email row hrow hwaits => ?_, fun id job hjob => ?_, fun p' id job hd => ?_,
    fun idem hkey => ?_⟩
  · by_cases hp : p' = p
    · rw [hp, hself]
      exact hand.calm
    · rw [hother hp]
      exact hcarried.calm p'
  · rw [hsubscribers] at hrow
    obtain ⟨token, htoken, ⟨p', hp'⟩ | ⟨id, job, hjob, hconfirmation⟩⟩ := hcarried.tokens email row hrow hwaits
    · refine ⟨token, htoken, ?_⟩
      by_cases hp : p' = p
      · subst hp
        rcases hand.tokens email token hp' with hd | hjob
        · exact .inl ⟨p', hself.trans hd⟩
        · exact .inr hjob
      · exact .inl ⟨p', (hother hp).trans hp'⟩
    · obtain ⟨job', hjob', hmail⟩ := hand.grows.rows id job hjob
      exact ⟨token, htoken, .inr ⟨id, job', hjob', hconfirmation.mono hmail⟩⟩
  · rcases hand.created id job hjob with ⟨old, hold, hmail⟩ | ⟨hok, hd⟩
    · obtain ⟨hok, hplace⟩ := hcarried.jobs id old hold
      refine ⟨by rwa [payloadOf_of_sameMail hmail], ?_⟩
      rcases hplace with hqueue | ⟨p', hp'⟩ | haccepted
      · rcases hand.queue id hqueue with hqueue | hd
        · exact .inl hqueue
        · exact .inr (.inl ⟨p, by rwa [hself]⟩)
      · by_cases hp : p' = p
        · subst hp
          rcases hand.carried id hp' with hd | hqueue | ⟨p'', hne, hp''⟩ | haccepted
          · exact .inr (.inl ⟨p', by rwa [hself]⟩)
          · exact .inl hqueue
          · exact .inr (.inl ⟨p'', by rwa [hother hne]⟩)
          · exact .inr (.inr (haccepted job hjob))
        · exact .inr (.inl ⟨p', by rwa [hother hp]⟩)
      · exact .inr (.inr (haccepted.mono hand.grows hmail))
    · exact ⟨hok, .inr (.inl ⟨p, by rwa [hself]⟩)⟩
  · by_cases hp : p' = p
    · subst hp
      rw [hself] at hd
      exact hreads id job hd
    · rw [hother hp] at hd
      obtain ⟨row, hrow, hmail⟩ := hcarried.rows p' id job hd
      obtain ⟨row', hrow', hmail'⟩ := hand.grows.rows id row hrow
      exact ⟨row', hrow', hmail.trans hmail'⟩
  · rcases hand.keys idem hkey with hkey | ⟨id, job, hd, hkeyOf⟩
    · obtain ⟨id, row, hrow, hkeyOf, hsent⟩ := hcarried.keys idem hkey
      obtain ⟨row', hrow', hmail⟩ := hand.grows.rows id row hrow
      refine ⟨id, row', hrow', (hmail.redisKeyOf svc).trans hkeyOf, ?_⟩
      rcases hsent with haccepted | ⟨p', job, hp'⟩
      · exact .inl (haccepted.mono hand.grows hmail)
      · by_cases hp : p' = p
        · subst hp
          rcases hand.sending id job hp' with hd | haccepted
          · exact .inr ⟨p', job, hself.trans hd⟩
          · exact .inl (haccepted row' hrow')
        · exact .inr ⟨p', job, (hother hp).trans hp'⟩
    · -- the key is taken now, for the job that is about to be sent
      obtain ⟨row, hrow, hmail⟩ := hreads id job (.inr hd)
      exact ⟨id, row, hrow, (hmail.redisKeyOf svc).trans hkeyOf, .inr ⟨p, job, hself.trans hd⟩⟩

end Carrying

/-! ## §3. One answer. -/

section Answers

variable {h : NewsletterHandler} {svc : Email.EmailService} {φ : Email.Uuid → Duty} {p : Email.Uuid} {d : Duty}
  {c : Choice} {b b' : Backend} {e e' : Email.Backend} {q : Email.Command} {v : Email.Reply q}

/-- The commands by which a job, a key or an email comes to be, or a job changes hands. -/
def movesDuty : Email.Command → Bool
  | .createJob .. | .zadd .. | .zpopmin _ | .getJob _ | .setNxEx .. | .post _ => true
  | _ => false

theorem next_of_not_movesDuty (hq : movesDuty q = false) (hd : d ≠ .troubled)
    (hexec : Email.exec c.email b.email q = some (v, e')) (hsucceeds : succeeds svc b c (.email q) = true) :
    d.next svc (.email q) (.ok v) = d := by
  cases q <;> cases hq
  case breakerAllow =>
      cases hexec
      have hclosed : c.email.breakerClosed = true := hsucceeds
      cases d <;> first | exact absurd rfl hd | exact if_pos hclosed
  case isSuppressed email =>
      cases hexec
      have hsuppressed : b.email.db.suppressions.contains email = false := by simpa [succeeds] using hsucceeds
      have hif : ∀ d, (if b.email.db.suppressions.contains email = true then Duty.troubled else d) = d :=
        fun d => if_neg (by rw [hsuppressed]; exact Bool.false_ne_true)
      cases d <;> first | rfl | exact hif _
  case incrWithTtl key seconds =>
      cases hexec
      have hcount := of_decide_eq_true hsucceeds
      cases d <;> first | rfl | exact if_pos hcount
  all_goals cases d <;> rfl

/-- No job comes to be, none leaves the queue, and no key of a job is written. -/
structure Preserves (e e' : Email.Backend) : Prop where
  grows : e.Grows e'
  created : ∀ id job, e'.db.jobs.lookup id = some job → ∃ old, e.db.jobs.lookup id = some old ∧ old.SameMail job
  queue : ∀ id ∈ e.redis.jobs .queue, id ∈ e'.redis.jobs .queue
  keys : ∀ idem, e'.redis.strings.lookup (Email.idempotencyRedisKey idem) ≠ none →
    e.redis.strings.lookup (Email.idempotencyRedisKey idem) ≠ none

theorem Preserves.refl (e : Email.Backend) : Preserves e e :=
  ⟨.refl e, fun _ job hjob => ⟨job, hjob, .refl job⟩, fun _ hid => hid, fun _ hkey => hkey⟩

theorem ne_none_of_lookup_eq {key : String} (hsame : e'.redis.strings.lookup key = e.redis.strings.lookup key)
    (hkey : e'.redis.strings.lookup key ≠ none) : e.redis.strings.lookup key ≠ none := hsame ▸ hkey

/-- The commands that a duty allows change nothing of this, three apart. -/
theorem preserves_of_exec (hexec : Email.exec c.email e q = some (v, e')) (hallows : d.allows h svc (.email q))
    (hd : d ≠ .troubled)
    (hcreate : ∀ jobType recipient templateName data priority,
      q ≠ .createJob jobType recipient templateName data priority)
    (hpop : q ≠ .zpopmin .queue) (hsetNx : ∀ key seconds, q ≠ .setNxEx key seconds) : Preserves e e' := by
  refine ⟨Email.grows_of_exec hexec, fun id job hjob => ?_, fun id hid => ?_, fun idem => ?_⟩
  · rcases Email.row_origin_of_exec hexec hjob with ⟨_, _, _, _, _, hq, -⟩ | ⟨old, hold, hmail, -⟩
    · exact absurd hq (hcreate _ _ _ _ _)
    · exact ⟨old, hold, hmail⟩
  · rcases Email.mem_jobs_of_exec hexec hid with (hqueue | hqueue) | ⟨hq, -⟩ | rfl
    · exact hqueue
    · exact hqueue
    · exact absurd hq hpop
    · cases d <;> first | exact absurd rfl hd | exact hallows.elim
  · refine ne_none_of_lookup_eq (Email.lookup_strings_of_exec hexec (fun value seconds hq => ?_)
      (fun seconds => hsetNx _ seconds) fun seconds hq => ?_)
    · subst hq
      cases d <;> first | exact hd rfl | exact hallows idem rfl
    · subst hq
      cases d <;> first | exact hd rfl | exact hallows idem rfl

/-- Who keeps a duty hands nothing over. -/
theorem Handover.stay (hd : φ p ≠ .troubled) (hkept : Preserves e e') : Handover h svc φ p (φ p) e e' where
  grows := hkept.grows
  calm := hd
  tokens _ _ hp := .inl hp
  created id job hjob := .inl (hkept.created id job hjob)
  queue id hid := .inl (hkept.queue id hid)
  carried _ hp := .inl hp
  reads _ _ hp := .inl hp
  keys idem hkey := .inl (hkept.keys idem hkey)
  sending _ _ hp := .inl hp

theorem calm_free : Duty.free ≠ .troubled := fun hfree => by cases hfree

/-- Who has no token may lay down a job that is in the queue, in the hands of
another or sent; one that is about to be sent, only when it has been. -/
theorem Handover.drop (hd : d ≠ .troubled) (hempty : ∀ id, ¬d.Carries id) (hkept : Preserves e e')
    (htoken : ∀ email token, φ p ≠ .token email token)
    (hcarried : ∀ id, (φ p).Carries id → id ∈ e'.redis.jobs .queue ∨ (∃ p', p' ≠ p ∧ (φ p').Carries id)
      ∨ ∀ row, e'.db.jobs.lookup id = some row → svc.HasAccepted e' row)
    (hsending : ∀ id job, φ p = .sending id job → ∀ row, e'.db.jobs.lookup id = some row → svc.HasAccepted e' row) :
    Handover h svc φ p d e e' where
  grows := hkept.grows
  calm := hd
  tokens email token hp := absurd hp (htoken email token)
  created id job hjob := .inl (hkept.created id job hjob)
  queue id hid := .inl (hkept.queue id hid)
  carried id hp := .inr (hcarried id hp)
  reads id job hreads := absurd (.inr ⟨job, hreads⟩) (hempty id)
  keys idem hkey := .inl (hkept.keys idem hkey)
  sending id job hp := .inr (hsending id job hp)

/-- Who holds a job holds no other. -/
theorem eq_of_carries {id id' : Email.Uuid} (hp : d = .holding id ∨ ∃ job, d.Reads id job) (hid : d.Carries id') :
    id' = id := by
  rcases hp with rfl | ⟨job, rfl | rfl⟩
  all_goals
    rcases hid with hid | ⟨job', hid | hid⟩ <;> cases hid
    rfl

/-- A command that makes and moves nothing. -/
theorem Handover.of_not_movesDuty (hq : movesDuty q = false) (hd : φ p ≠ .troubled)
    (hexec : Email.exec c.email b.email q = some (v, e')) (hallows : (φ p).allows h svc (.email q))
    (hsucceeds : succeeds svc b c (.email q) = true) :
    Handover h svc φ p ((φ p).next svc (.email q) (.ok v)) b.email e' := by
  rw [next_of_not_movesDuty hq hd hexec hsucceeds]
  refine .stay hd (preserves_of_exec hexec hallows hd ?_ ?_ ?_)
  · rintro _ _ _ _ _ rfl
    cases hq
  · rintro rfl
    cases hq
  · rintro _ _ rfl
    cases hq

/-- A job is put into a set. -/
theorem Handover.zadd {key : Email.JobSet} {job : Email.Uuid} {score : Int} {done : Unit} (hd : φ p ≠ .troubled)
    (hexec : Email.exec c.email e (.zadd key job score) = some (done, e'))
    (hallows : (φ p).allows h svc (.email (.zadd key job score))) :
    Handover h svc φ p ((φ p).next svc (.email (.zadd key job score)) (.ok done)) e e' := by
  have hkept : Preserves e e' := preserves_of_exec hexec hallows hd (fun _ _ _ _ _ hq => by cases hq)
    (fun hq => by cases hq) fun _ _ hq => by cases hq
  by_cases hmine : key = .queue ∧ φ p = .holding job
  · obtain ⟨rfl, hp⟩ := hmine
    have hnext : (φ p).next svc (.email (.zadd .queue job score)) (.ok done) = .free := by
      rw [hp]
      exact if_pos rfl
    rw [hnext]
    refine .drop calm_free Duty.not_carries_free hkept (fun email token ht => ?_) (fun id hid => .inl ?_) fun id row hs => ?_
    · rw [hp] at ht
      cases ht
    · -- the job is in the queue now
      obtain rfl := eq_of_carries (.inl hp) hid
      cases hexec
      rw [Email.Redis.jobs_modify, if_pos rfl]
      exact SortedSet.mem_zadd.mpr (.inl rfl)
    · rw [hp] at hs
      cases hs
  · have hnext : (φ p).next svc (.email (.zadd key job score)) (.ok done) = φ p := by
      cases hp : φ p with
      | holding id =>
          cases key with
          | queue => exact if_neg fun hid => hmine ⟨rfl, by rw [hp, hid]⟩
          | retry | deadLetter => rfl
      | _ => cases key <;> rfl
    rw [hnext]
    exact .stay hd hkept

/-- A row is read by who has its job in hand. -/
theorem Handover.getJob {id : Email.Uuid} {row : Option Email.EmailJob} (hcarried : Carried h svc φ b)
    (hexec : Email.exec c.email b.email (.getJob id) = some (row, e')) :
    Handover h svc φ p ((φ p).next svc (.email (.getJob id)) (.ok row)) b.email e' := by
  cases hexec
  by_cases hp : φ p = .holding id
  · have htoken : ∀ email token, φ p ≠ .token email token := by
      rintro email token ht
      rw [hp] at ht
      cases ht
    have hsending : ∀ id' job, φ p ≠ .sending id' job := by
      rintro id' job hs
      rw [hp] at hs
      cases hs
    cases hrow : b.email.db.jobs.lookup id with
    | none =>
        have hnext : (φ p).next svc (.email (.getJob id)) (.ok none) = .free := by
          rw [hp]
          exact if_pos rfl
        rw [hnext]
        refine .drop calm_free Duty.not_carries_free (.refl _) htoken (fun id' hid => .inr (.inr fun job hjob => ?_))
          fun id' job hs => absurd hs (hsending id' job)
        obtain rfl := eq_of_carries (.inl hp) hid
        rw [hrow] at hjob
        cases hjob
    | some job =>
        have hnext : (φ p).next svc (.email (.getJob id)) (.ok (some job)) = .reading id job := by
          rw [hp]
          exact (if_pos rfl).trans (if_pos (hcarried.jobs id job hrow).1)
        rw [hnext]
        exact {
          grows := .refl _
          calm := fun hreading => by cases hreading
          tokens := fun email token ht => absurd ht (htoken email token)
          created := fun id' old hold => .inl ⟨old, hold, .refl old⟩
          queue := fun id' hid => .inl hid
          carried := fun id' hid => .inl (eq_of_carries (.inl hp) hid ▸ .inr ⟨job, .inl rfl⟩)
          reads := fun id' job' hreads => by
            rcases hreads with hreads | hreads <;> cases hreads
            exact .inr ⟨job, hrow, .refl job⟩
          keys := fun idem hkey => .inl hkey
          sending := fun id' job' hs => absurd hs (hsending id' job') }
  · have hnext : (φ p).next svc (.email (.getJob id)) (.ok (b.email.db.jobs.lookup id)) = φ p := by
      cases hφ : φ p with
      | holding id' => exact if_neg fun hid => hp (by rw [hφ, hid])
      | _ => rfl
    rw [hnext]
    exact .stay (hcarried.calm p) (.refl _)

/-- A job is taken from the queue by who is free. -/
theorem Handover.zpopmin {popped : Option (Email.Uuid × Int)}
    (hp : φ p = .free) (hexec : Email.exec c.email e (.zpopmin .queue) = some (popped, e')) :
    Handover h svc φ p ((φ p).next svc (.email (.zpopmin .queue)) (.ok popped)) e e' := by
  have hnext : (φ p).next svc (.email (.zpopmin .queue)) (.ok popped) = dutyOf (popped.map Prod.fst) := by
    rw [hp]
    rcases popped with _ | popped <;> rfl
  rw [hnext]
  exact {
    grows := Email.grows_of_exec hexec
    calm := fun htroubled => by cases popped <;> cases htroubled
    tokens := fun email token ht => by
      rw [hp] at ht
      cases ht
    created := fun id job hjob => .inl ⟨job, by rwa [Email.rows_of_exec hexec rfl] at hjob, .refl job⟩
    queue := fun id hid => by
      rcases Email.mem_jobs_of_exec hexec hid with (hqueue | hqueue) | ⟨-, hhead⟩ | hq
      · exact .inl hqueue
      · exact .inl hqueue
      · obtain ⟨score, rfl⟩ := Email.popped_of_exec hexec hhead
        exact .inr (.inl rfl)
      · cases hq
    carried := fun id hid => absurd (hp ▸ hid) (Duty.not_carries_free id)
    reads := fun id job hreads => by
      cases popped <;> rcases hreads with hreads | hreads <;> cases hreads
    keys := fun idem hkey => .inl (by rwa [(Email.strings_of_exec_of_not hexec rfl).2] at hkey)
    sending := fun id job hs => by
      rw [hp] at hs
      cases hs }

/-- The job of a token is created. -/
theorem Handover.createJob {jobType email token : String} {priority : Int} {id : Email.Uuid}
    (hp : φ p = .token email token)
    (hok : (svc.payload email confirmationTemplate (h.templateData email token)).isOk = true)
    (hexec : Email.exec c.email e (.createJob jobType email confirmationTemplate (h.templateData email token) priority)
      = some (id, e')) :
    Handover h svc φ p (.holding id) e e' := by
  have hgrows := Email.grows_of_exec hexec
  obtain ⟨-, -, job, rfl, rfl⟩ := Email.createJob_of_exec hexec
  exact {
    grows := hgrows
    calm := fun htroubled => by cases htroubled
    tokens := fun email' token' ht => by
      rw [hp] at ht
      cases ht
      exact .inr ⟨id, _, (Store.lookup_insert_eq ..).trans (if_pos rfl), rfl, rfl, rfl⟩
    created := fun id' job' hjob => by
      have hjob : (if id' = id then some _ else e.db.jobs.lookup id') = some job' :=
        (Store.lookup_insert_eq ..).symm.trans hjob
      by_cases hid : id' = id
      · rw [if_pos hid] at hjob
        cases hjob
        exact .inr ⟨hok, .inl (by rw [hid])⟩
      · rw [if_neg hid] at hjob
        exact .inl ⟨job', hjob, .refl job'⟩
    queue := fun id' hid => .inl hid
    carried := fun id' hid => absurd (hp ▸ hid) (Duty.not_carries_token email token id')
    reads := fun id' job hreads => by rcases hreads with hreads | hreads <;> cases hreads
    keys := fun idem hkey => .inl hkey
    sending := fun id' job hs => by
      rw [hp] at hs
      cases hs }

/-- The email of a job is accepted. -/
theorem Handover.post {payload : Email.Payload} {response : Email.Response} (hcarried : Carried h svc φ b)
    (hexec : Email.exec c.email b.email (.post payload) = some (response, e')) (hsuccess : response.isSuccess = true)
    (hallows : (φ p).allows h svc (.email (.post payload))) :
    Handover h svc φ p ((φ p).next svc (.email (.post payload)) (.ok response)) b.email e' := by
  have hd := hcarried.calm p
  have hkept : Preserves b.email e' := preserves_of_exec hexec hallows hd (fun _ _ _ _ _ hq => by cases hq)
    (fun hq => by cases hq) fun _ _ hq => by cases hq
  obtain ⟨id, job, hmay, hpayload⟩ : ∃ id job, (φ p).MayPost svc id job ∧ svc.payloadOf job = .ok payload := by
    cases hp : φ p <;> rw [hp] at hallows <;> first | exact absurd hp hd | exact hallows
  have hreads : (φ p).Reads id job := hmay.elim .inr fun hmay => .inl hmay.2
  have hnext : (φ p).next svc (.email (.post payload)) (.ok response) = .free := by
    rcases hreads with hp | hp
    all_goals
      rw [hp]
      exact if_pos hsuccess
  have haccepted : ∀ row, e'.db.jobs.lookup id = some row → svc.HasAccepted e' row := by
    intro row hrow
    obtain ⟨old, hold, hmail⟩ := hcarried.rows p id job hreads
    obtain ⟨row', hrow', hmail'⟩ := hkept.grows.rows id old hold
    obtain rfl := Option.some.inj (hrow'.symm.trans hrow)
    exact ⟨payload, Email.accepted_of_post hexec hsuccess, (payloadOf_of_sameMail (hmail.trans hmail')).trans hpayload⟩
  rw [hnext]
  refine .drop calm_free Duty.not_carries_free hkept (fun email token ht => ?_)
    (fun id' hid => .inr (.inr ?_)) fun id' job' hs => ?_
  · rcases hreads with hp | hp <;> rw [hp] at ht <;> cases ht
  · obtain rfl := eq_of_carries (.inr ⟨job, hreads⟩) hid
    exact haccepted
  · obtain rfl := eq_of_carries (.inr ⟨job, hreads⟩) (.inr ⟨job', .inr hs⟩)
    exact haccepted

/-- Two jobs have the key that one of them finds taken: they are one. -/
theorem eq_of_ownKey {key : String} {seconds : Nat} {id id' : Email.Uuid} {row row' : Email.EmailJob}
    (hown : ownKey svc b (.email (.setNxEx key seconds)) = true) (hget : b.email.redis.get b.email.now key ≠ none)
    (hrow : b.email.db.jobs.lookup id = some row) (hkey : svc.redisKeyOf row = key)
    (hrow' : b.email.db.jobs.lookup id' = some row') (hkey' : svc.redisKeyOf row' = key) : id = id' := by
  rcases Bool.or_eq_true_iff.mp hown with hnone | hall
  · exact absurd (Option.isNone_iff_eq_none.mp hnone) hget
  · have hpair := List.all_eq_true.mp (List.all_eq_true.mp hall ⟨id, row⟩ (Store.mem_entries.mpr hrow)) ⟨id', row'⟩
      (Store.mem_entries.mpr hrow')
    simpa [hkey, hkey'] using hpair

/-- A key is taken for the job that is read, or is found taken. -/
theorem Handover.setNxEx {key : String} {seconds : Nat} {acquired : Bool} (hcarried : Carried h svc φ b)
    (hexec : Email.exec c.email b.email (.setNxEx key seconds) = some (acquired, e'))
    (hallows : (φ p).allows h svc (.email (.setNxEx key seconds)))
    (hown : ownKey svc b (.email (.setNxEx key seconds)) = true) :
    Handover h svc φ p ((φ p).next svc (.email (.setNxEx key seconds)) (.ok acquired)) b.email e' := by
  obtain ⟨id, job, hp, rfl⟩ : ∃ id job, φ p = .reading id job ∧ key = svc.redisKeyOf job := by
    have hd := hcarried.calm p
    cases hp : φ p <;> rw [hp] at hallows <;> first | exact absurd hp hd | exact hallows
  obtain ⟨row, hrow, hmail⟩ := hcarried.rows p id job (.inl hp)
  have htoken : ∀ email token, φ p ≠ .token email token := by
    rintro email token ht
    rw [hp] at ht
    cases ht
  have hsending : ∀ id' job', φ p ≠ .sending id' job' := by
    rintro id' job' hs
    rw [hp] at hs
    cases hs
  rcases Email.setNxEx_of_exec hexec with ⟨rfl, rfl, hget⟩ | ⟨rfl, -, rfl⟩
  · -- the key is that of a job that is sent or about to be, and so of this one
    have hnext : (φ p).next svc (.email (.setNxEx (svc.redisKeyOf job) seconds)) (.ok false) = .free := by
      rw [hp]
      rfl
    have hlookup : b.email.redis.strings.lookup (Email.idempotencyRedisKey (svc.idempotencyKeyOf job)) ≠ none := by
      intro hnone
      unfold Email.Redis.get at hget
      rw [show svc.redisKeyOf job = Email.idempotencyRedisKey (svc.idempotencyKeyOf job) from rfl, hnone] at hget
      exact hget rfl
    obtain ⟨id', row', hrow', hkey', hsent⟩ := hcarried.keys _ hlookup
    obtain rfl := eq_of_ownKey hown hget hrow (hmail.redisKeyOf svc) hrow' hkey'
    obtain rfl := Option.some.inj (hrow.symm.trans hrow')
    rw [hnext]
    refine .drop calm_free Duty.not_carries_free (.refl _) htoken (fun id' hid => .inr ?_)
      fun id' job' hs => absurd hs (hsending id' job')
    obtain rfl := eq_of_carries (.inr ⟨job, .inl hp⟩) hid
    rcases hsent with haccepted | ⟨p', job', hp'⟩
    · refine .inr fun row' hrow' => ?_
      obtain rfl := Option.some.inj (hrow.symm.trans hrow')
      exact haccepted
    · refine .inl ⟨p', ?_, .inr ⟨job', .inr hp'⟩⟩
      rintro rfl
      exact hsending _ job' hp'
  · have hnext : (φ p).next svc (.email (.setNxEx (svc.redisKeyOf job) seconds)) (.ok true) = .sending id job := by
      rw [hp]
      rfl
    rw [hnext]
    exact {
      grows := Email.grows_of_exec hexec
      calm := fun htroubled => by cases htroubled
      tokens := fun email token ht => absurd ht (htoken email token)
      created := fun id' old hold => .inl ⟨old, hold, .refl old⟩
      queue := fun id' hid => .inl hid
      carried := fun id' hid => .inl (eq_of_carries (.inr ⟨job, .inl hp⟩) hid ▸ .inr ⟨job, .inr rfl⟩)
      reads := fun id' job' hreads => by
        rcases hreads with hreads | hreads <;> cases hreads
        exact .inl (.inl hp)
      keys := fun idem hkey => by
        by_cases hidem : Email.idempotencyRedisKey idem = svc.redisKeyOf job
        · exact .inr ⟨id, job, rfl, hidem.symm⟩
        · exact .inl (ne_none_of_lookup_eq ((Store.lookup_insert_eq ..).trans (if_neg hidem)) hkey)
      sending := fun id' job' hs => absurd hs (hsending id' job') }

/-- **A command of the email service** drops nothing. -/
theorem Carried.email (hcarried : Carried h svc φ b) (hexec : Email.exec c.email b.email q = some (v, e'))
    (hallows : (φ p).allows h svc (.email q)) (hsucceeds : succeeds svc b c (.email q) = true)
    (hmakes : makesEmail svc (.email q) = true) (hown : ownKey svc b (.email q) = true) :
    Handover h svc φ p ((φ p).next svc (.email q) (.ok v)) b.email e' := by
  have hd := hcarried.calm p
  cases q with
  | createJob jobType recipient templateName data priority =>
      obtain ⟨email, token, hp, rfl, rfl, rfl⟩ : ∃ email token, φ p = .token email token ∧ recipient = email
          ∧ templateName = confirmationTemplate ∧ data = h.templateData email token := by
        cases hp : φ p <;> rw [hp] at hallows <;> first | exact absurd hp hd | exact hallows
      have hnext : (φ p).next svc (.email (.createJob jobType recipient confirmationTemplate (h.templateData recipient token)
          priority)) (.ok v) = .holding v := by
        rw [hp]
        rfl
      rw [hnext]
      exact .createJob hp hmakes hexec
  | zadd key job score => exact .zadd hd hexec hallows
  | zpopmin key =>
      obtain ⟨rfl, hp⟩ : key = .queue ∧ φ p = .free := by
        cases hp : φ p <;> rw [hp] at hallows <;> first | exact absurd hp hd | exact hallows
      exact .zpopmin hp hexec
  | getJob id => exact .getJob hcarried hexec
  | setNxEx key seconds => exact .setNxEx hcarried hexec hallows hown
  | post payload =>
      refine .post hcarried hexec ?_ hallows
      cases hexec
      exact hsucceeds
  | _ => exact .of_not_movesDuty rfl hd hexec hallows hsucceeds

/-- A token is stored by who is free. -/
theorem Handover.store (hp : φ p = .free) (email token : String) : Handover h svc φ p (.token email token) e e := by
  refine .drop (fun htoken => by cases htoken) (Duty.not_carries_token email token) (.refl e) (fun email' token' ht => ?_)
    (fun id hid => absurd (hp ▸ hid) (Duty.not_carries_free id)) fun id job hs => ?_
  · rw [hp] at ht
    cases ht
  · rw [hp] at hs
    cases hs

/-- A suppression touches no job. -/
theorem preserves_suppress (b : Backend) (email : String) : Preserves b.email (b.suppress email).email := by
  unfold Backend.suppress
  split
  · exact .refl _
  · exact ⟨⟨fun _ job hjob => ⟨job, hjob, .refl job⟩, fun _ hmem => List.mem_cons_of_mem _ hmem, fun _ hmem => hmem⟩,
      fun _ job hjob => ⟨job, hjob, .refl job⟩, fun _ hid => hid, fun _ hkey => hkey⟩

/-- The table of subscribers changes: a row that waits was there before, or its token is in hand. -/
theorem Carried.subscribers (hcarried : Carried h svc φ b) {rows : Newsletter.Subscribers}
    (hrows : ∀ email row, rows.lookup email = some row → Waits row → b.subscribers.lookup email = some row
      ∨ ∃ token ∈ row.confirmationToken, ∃ p, φ p = .token email token) :
    Carried h svc φ { b with subscribers := rows } where
  calm := hcarried.calm
  tokens email row hrow hwaits := by
    rcases hrows email row hrow hwaits with hrow | ⟨token, htoken, hp⟩
    · exact hcarried.tokens email row hrow hwaits
    · exact ⟨token, htoken, .inl hp⟩
  jobs := hcarried.jobs
  rows := hcarried.rows
  keys := hcarried.keys

/-- A subscription is stored. -/
theorem waits_upsertPending {now : Int} {email source token email' : String} {rows rows' : Newsletter.Subscribers}
    {row : Newsletter.NewsletterSubscriber}
    (hstore : Newsletter.newsletterUpsertPending now email source token rows = some rows')
    (hrow : rows'.lookup email' = some row) :
    rows.lookup email' = some row ∨ email' = email ∧ row.confirmationToken = some token := by
  rw [Newsletter.lookup_upsertPending hstore] at hrow
  split at hrow
  · rename_i hemail
    cases hrow
    exact .inr ⟨hemail, rfl⟩
  · exact .inl hrow

/-- Who is confirmed does not wait. -/
theorem waits_confirmByToken {now : Int} {token email : String} {ttl : UInt64} {rows rows' : Newsletter.Subscribers}
    {updated : Bool} {row : Newsletter.NewsletterSubscriber}
    (hconfirm : Newsletter.newsletterConfirmByToken now token ttl rows = some (updated, rows'))
    (hrow : rows'.lookup email = some row) (hwaits : Waits row) : rows.lookup email = some row := by
  obtain ⟨cutoff, -, hrows⟩ := Option.map_eq_some_iff.mp hconfirm
  cases hrows
  rw [Store.lookup_updateWhere] at hrow
  obtain ⟨old, hold, hnew⟩ := Option.map_eq_some_iff.mp hrow
  split at hnew
  · subst hnew
    cases hwaits.1
  · rwa [← hnew]

/-- Who has unsubscribed does not wait. -/
theorem waits_unsubscribe {now : Int} {email email' : String} {rows : Newsletter.Subscribers}
    {row : Newsletter.NewsletterSubscriber}
    (hrow : (Newsletter.newsletterUnsubscribe now email rows).2.lookup email' = some row) (hwaits : Waits row) :
    rows.lookup email' = some row := by
  unfold Newsletter.newsletterUnsubscribe Newsletter.updateByEmail at hrow
  split at hrow
  · rw [Store.lookup_insert_eq] at hrow
    split at hrow
    · cases hrow
      cases hwaits.2
    · exact hrow
  · exact hrow

/-- **An answer drops nothing.** -/
theorem Carried.answer {q : Command} {v : Reply q} (hcarried : Carried h svc φ b)
    (hexec : exec c b q = some (v, b')) (hallows : (φ p).allows h svc q) (hsucceeds : succeeds svc b c q = true)
    (hmakes : makesEmail svc q = true) (hown : ownKey svc b q = true) :
    Carried h svc (Function.update φ p ((φ p).next svc q (.ok v))) b' := by
  have hd := hcarried.calm p
  -- what does not concern the duty
  have hstay : ∀ {b'}, (φ p).next svc q (.ok v) = φ p → Preserves b.email b'.email → b'.subscribers = b.subscribers →
      Carried h svc (Function.update φ p ((φ p).next svc q (.ok v))) b' := by
    intro b' hnext hkept hsame
    rw [hnext]
    exact hcarried.handover (.stay hd hkept) hsame
  have hrows : ∀ {rows}, (φ p).next svc q (.ok v) = φ p →
      (∀ email row, rows.lookup email = some row → Waits row → b.subscribers.lookup email = some row) →
      Carried h svc (Function.update φ p ((φ p).next svc q (.ok v))) { b with subscribers := rows } := by
    intro rows hnext hkept
    rw [hnext, Function.update_eq_self]
    exact hcarried.subscribers fun email row hrow hwaits => .inl (hkept email row hrow hwaits)
  cases q with
  | email q =>
      obtain ⟨⟨v', e'⟩, hemail, hb⟩ := Option.map_eq_some_iff.mp hexec
      cases hb
      exact hcarried.handover (hcarried.email hemail hallows hsucceeds hmakes hown) rfl
  | newsletterUpsertPending email source token =>
      obtain ⟨rows, hstore, hb⟩ := Option.map_eq_some_iff.mp hexec
      cases hb
      have hp : φ p = .free := by
        cases hp : φ p with
        | free => rfl
        | troubled => exact absurd hp hd
        | _ =>
            rw [hp] at hallows
            cases hallows
      have hnext : (φ p).next svc (.newsletterUpsertPending email source token) (.ok ()) = .token email token := by
        rw [hp]
        rfl
      rw [hnext]
      refine (hcarried.handover (.store hp email token) rfl).subscribers fun email' row hrow _ => ?_
      rcases waits_upsertPending hstore hrow with hrow | ⟨rfl, htoken⟩
      · exact .inl hrow
      · exact .inr ⟨token, htoken, p, Function.update_self ..⟩
  | newsletterConfirmByToken token ttl =>
      obtain ⟨⟨updated, rows⟩, hconfirm, hb⟩ := Option.map_eq_some_iff.mp hexec
      cases hb
      exact hrows (by cases φ p <;> rfl) fun email row => waits_confirmByToken hconfirm
  | newsletterUnsubscribe email =>
      cases hexec
      exact hrows (by cases φ p <;> rfl) fun email row => waits_unsubscribe
  | emailAddSuppression email =>
      cases hexec
      refine hstay (by cases φ p <;> rfl) (preserves_suppress b email) ?_
      unfold Backend.suppress
      split <;> rfl
  | _ =>
      cases hexec
      exact hstay (by cases φ p <;> rfl) (.refl _) rfl

end Answers

/-! ## §4. Runs. -/

section Runs

variable {h : NewsletterHandler} {svc : Email.EmailService} {m : Newsletters} {a : NewsletterAction} {p : Email.Uuid}

theorem next_of_idle {d : Duty} {q : Command} {r : Except String (Reply q)} (hd : Done d) (hidle : takesUp q r = false) :
    Done (d.next svc q r) := by
  rcases hd with rfl | rfl
  · exact .inl (by cases r <;> rfl)
  · cases r with
    | error e => exact .inl (next_error ..)
    | ok v =>
        cases q with
        | newsletterUpsertPending => cases hidle
        | email q =>
            cases q with
            | breakerAllow =>
                cases v
                · exact .inl rfl
                · exact .inr rfl
            | zpopmin key =>
                cases key with
                | queue =>
                    cases v with
                    | none => exact .inr rfl
                    | some popped => cases hidle
                | retry | deadLetter => exact .inr rfl
            | zadd key => cases key <;> exact .inr rfl
            | _ => exact .inr rfl
        | _ => exact .inr rfl

/-- Who has taken nothing up is free. -/
theorem Carried.free_of_idle (hcarried : Carried h svc (m.phase (dutyMonitor h svc)) m.store)
    (hidle : ∀ l ∈ m.procs p, ∀ x ∈ l.heard, takesUp x.question x.answer = false) :
    m.phase (dutyMonitor h svc) p = .free := by
  have hdone : Done (m.phase (dutyMonitor h svc) p) := by
    unfold Machine.phase
    split
    · rename_i l hl
      exact List.foldlRecOn (motive := Done) l.heard _ (.inr rfl) fun d hd x hx => next_of_idle hd (hidle l hl x hx)
    · exact .inr rfl
  exact hdone.resolve_left (hcarried.calm p)

/-- **One step** drops nothing. -/
theorem Carried.step (hm : Machine.MonitoredTo (dutyMonitor h svc) (fun d _ => Done d) m)
    (hcarried : Carried h svc (m.phase (dutyMonitor h svc)) m.store)
    (hcalls : CallSucceeds svc ⟨m, a, Newsletters.step h svc m a⟩) (hmakes : Deliverable svc ⟨m, a, Newsletters.step h svc m a⟩)
    (hown : OwnKey svc ⟨m, a, Newsletters.step h svc m a⟩) (hcrash : CrashesIdle ⟨m, a, Newsletters.step h svc m a⟩) :
    Carried h svc ((Newsletters.step h svc m a).phase (dutyMonitor h svc)) (Newsletters.step h svc m a).store := by
  unfold Newsletters.step
  refine Machine.phases_step_to (I := fun φ b _ => Carried h svc φ b) hm hcarried (fun φ b _ p res hI hend => ?_)
    (fun p q b' r ha hq hallows hr => ?_) (fun p ha => ?_) fun w _ => ?_
  · have hfree : φ p = .free := hend.resolve_left (hI.calm p)
    rw [← show φ p = (dutyMonitor h svc).start from hfree, Function.update_eq_self]
    exact hI
  · obtain ⟨l, hl, rfl⟩ := Option.map_eq_some_iff.mp hq
    rcases Machine.reply_cases server ha hr with ⟨c, v, rfl, rfl, hexec⟩ | ⟨e, rfl, -, -⟩ | ⟨c, e, v, rfl, -, -⟩
    · exact hcarried.answer hexec hallows (hcalls l hl) (hmakes p ha l hl) (hown p ha l hl)
    · exact hcalls.elim
    · exact hcalls.elim
  · have hfree := hcarried.free_of_idle (hcrash p ha)
    rw [← show m.phase (dutyMonitor h svc) p = (dutyMonitor h svc).start from hfree, Function.update_eq_self]
    exact hcarried
  · cases w with
    | tick seconds => exact ⟨hcarried.calm, hcarried.tokens, hcarried.jobs, hcarried.rows, hcarried.keys⟩

theorem carried_launch (now : Int) :
    Carried h svc ((Machine.idle (.launch now) : Newsletters).phase (dutyMonitor h svc)) (.launch now) where
  calm p htroubled := by cases htroubled
  tokens email row hrow := by cases hrow
  jobs id job hjob := by cases hjob
  rows p id job hreads := by rcases hreads with hreads | hreads <;> cases hreads
  keys idem hkey := absurd rfl hkey

/-- Nothing is dropped in a run. -/
theorem carried_run {now : Int} (as : List NewsletterAction)
    (hsteps : ∀ t ∈ trace (Newsletters.step h svc) (.idle (.launch now)) as,
      CallSucceeds svc t ∧ Deliverable svc t ∧ OwnKey svc t ∧ CrashesIdle t) :
    Carried h svc ((run (Newsletters.step h svc) (.idle (.launch now)) as).phase (dutyMonitor h svc))
      (run (Newsletters.step h svc) (.idle (.launch now)) as).store := by
  refine (run_invariant_of (Newsletters.step h svc)
    (fun m => Machine.MonitoredTo (dutyMonitor h svc) (fun d _ => Done d) m
      ∧ Carried h svc (m.phase (dutyMonitor h svc)) m.store) _
    ⟨Machine.monitoredTo_idle _, carried_launch now⟩ ?_ as hsteps).2
  intro m a hm hstep
  obtain ⟨hcalls, hmakes, hown, hcrash⟩ := hstep
  exact ⟨hm.1.step (obeys_newsletterBody h svc) a, hm.2.step hm.1 hcalls hmakes hown hcrash⟩

end Runs

/-- **A pending subscription can be confirmed** in every run in which the jobs
can be made into emails, none is turned away for the key of another, and who
crashes has nothing in hand. -/
theorem pending_can_be_confirmed (h : NewsletterHandler) (svc : Email.EmailService) (now : Int) (as : List NewsletterAction)
    (hsteps : ∀ t ∈ trace (Newsletters.step h svc) (.idle (.launch now)) as,
      Deliverable svc t ∧ OwnKey svc t ∧ CrashesIdle t) : PendingConfirmable h svc now as := by
  intro hcalls bs hbs hdrained email row hrow hpending
  have hcarried := carried_run bs fun t ht =>
    ⟨hcalls t (mem_trace_of_isPrefix _ hbs ht), hsteps t (mem_trace_of_isPrefix _ hbs ht)⟩
  generalize run (Newsletters.step h svc) (.idle (.launch now)) bs = m at *
  have hfree : ∀ p, m.phase (dutyMonitor h svc) p = .free := fun p => hcarried.free_of_idle (hdrained.inFlight p)
  obtain ⟨token, htoken, ⟨p, hp⟩ | ⟨id, job, hjob, hconfirmation⟩⟩ :=
    hcarried.tokens email row hrow ⟨hpending.unconfirmed, hpending.subscribed⟩
  · rw [hfree p] at hp
    cases hp
  · rcases (hcarried.jobs id job hjob).2 with hqueue | ⟨p, hp⟩ | ⟨payload, haccepted, hpayload⟩
    · exact absurd hqueue (hdrained.queue id)
    · rw [hfree p] at hp
      exact absurd hp (Duty.not_carries_free id)
    · refine ⟨token, htoken, payload, haccepted, ?_⟩
      rw [← hconfirmation.templateData, ← hconfirmation.templateName, ← hconfirmation.recipientEmail]
      exact hpayload

/-- A drained state of the run in which a pending row's token has not been mailed. -/
theorem not_pendingConfirmable {h : NewsletterHandler} {svc : Email.EmailService} {now : Int} {as : List NewsletterAction}
    {m : Newsletters} {email : String} {row : Newsletter.NewsletterSubscriber}
    (hm : run (Newsletters.step h svc) (.idle (.launch now)) as = m)
    (hcalls : ∀ t ∈ trace (Newsletters.step h svc) (.idle (.launch now)) as, CallSucceeds svc t) (hdrained : Drained m)
    (hrow : m.store.subscribers.lookup email = some row) (hpending : Pending h m.store row)
    (hunsent : ∀ token ∈ row.confirmationToken, ¬Mailed h svc m.store email token) : ¬PendingConfirmable h svc now as := by
  subst hm
  intro hconfirmable
  obtain ⟨token, htoken, hmailed⟩ := hconfirmable hcalls as List.prefix_rfl hdrained email row hrow hpending
  exact hunsent token htoken hmailed

/-! ## §5. Two subscriptions within an hour. -/

def sampleNewsletter : NewsletterHandler where
  crates := {
    toLowercase := String.toLower
    validateEmail := fun address => address.toList.contains '@'
    json := fun fields => "\x7b" ++ ",".intercalate ((fields.insertionSort fun a b => a.1 ≤ b.1).map fun field =>
      "\"" ++ field.1 ++ "\":\"" ++ field.2 ++ "\"") ++ "\x7d"
    generateUnsubscribeToken := fun _ _ => none
    validateUnsubscribeToken := fun _ _ => none }
  baseUrl := "https://example.com"
  unsubscribeSigningSecret := none
  newsletterTokenTtlSecs := 86400

def sampleSecondJobId : Email.Uuid := ⟨"44444444-4444-4444-8444-444444444444", by decide +kernel⟩

/-- A request of `user@example.com` to its end, and a worker's turn. -/
def sampleSubscription (id : Email.Uuid) (token : String) : List NewsletterAction :=
  .start Email.sampleApiId (.subscribe "user@example.com" none)
    :: List.replicate 10 (.answer Email.sampleApiId ⟨Email.sampleChoice id, token⟩)
    ++ .start Email.sampleWorkerId .workerTurn
      :: List.replicate 40 (.answer Email.sampleWorkerId ⟨Email.sampleChoice id, token⟩)

abbrev sampleAfter (as : List NewsletterAction) : Newsletters :=
  run (Newsletters.step sampleNewsletter Email.sampleService) (.idle (.launch 1000)) as

abbrev sampleTrace (as : List NewsletterAction) : List (Transition Newsletters NewsletterAction) :=
  trace (Newsletters.step sampleNewsletter Email.sampleService) (.idle (.launch 1000)) as

/-- No call fails in the step, and no process crashes. -/
def isCalm (t : Transition Newsletters NewsletterAction) : Bool :=
  match t.act with
  | .answer p c => (t.pre.procs p).all fun l => succeeds Email.sampleService t.pre.store c l.question
  | .start .. | .outside _ => true
  | .refuse .. | .lose .. | .crash _ => false

theorem callSucceeds_of_isCalm {t : Transition Newsletters NewsletterAction} (h : isCalm t = true) :
    CallSucceeds Email.sampleService t := by
  unfold isCalm at h
  unfold CallSucceeds
  cases hact : t.act with
  | answer p c =>
      rw [hact] at h
      exact (Option.all_eq_true _ _).mp h
  | start p task => trivial
  | outside w => trivial
  | refuse | lose | crash =>
      rw [hact] at h
      cases h

theorem crashesIdle_of_isCalm {t : Transition Newsletters NewsletterAction} (h : isCalm t = true) : CrashesIdle t := by
  intro p hact
  unfold isCalm at h
  rw [hact] at h
  cases h

/-- A job that is created can be made into an email, and none is turned away for the key of another. -/
def isMailable (t : Transition Newsletters NewsletterAction) : Bool :=
  t.act.asker.all fun p => (t.pre.procs p).all fun l =>
    makesEmail Email.sampleService l.question && ownKey Email.sampleService t.pre.store l.question

theorem deliverable_of_isMailable {t : Transition Newsletters NewsletterAction} (h : isMailable t = true) :
    Deliverable Email.sampleService t ∧ OwnKey Email.sampleService t := by
  have hall : ∀ p ∈ t.act.asker, ∀ l ∈ t.pre.procs p, makesEmail Email.sampleService l.question = true
      ∧ ownKey Email.sampleService t.pre.store l.question = true := by
    intro p hp l hl
    have hask := (Option.all_eq_true _ _).mp ((Option.all_eq_true _ _).mp h p hp) l hl
    exact Bool.and_eq_true_iff.mp hask
  exact ⟨fun p hp l hl => (hall p hp l hl).1, fun p hp l hl => (hall p hp l hl).2⟩

/-- **One subscription**: its token is mailed. -/
theorem sampleSubscription_confirmable :
    (sampleAfter (sampleSubscription Email.sampleJobId "token-1")).store.email.accepted.map (·.toEmail) = ["user@example.com"]
      ∧ PendingConfirmable sampleNewsletter Email.sampleService 1000 (sampleSubscription Email.sampleJobId "token-1") := by
  have hsteps : (sampleTrace (sampleSubscription Email.sampleJobId "token-1")).all
      (fun t => isCalm t && isMailable t) = true := by
    decide +kernel
  refine ⟨by decide +kernel, pending_can_be_confirmed _ _ _ _ fun t ht => ?_⟩
  obtain ⟨hcalm, hmailable⟩ := Bool.and_eq_true_iff.mp (List.all_eq_true.mp hsteps t ht)
  obtain ⟨hmakes, hown⟩ := deliverable_of_isMailable hmailable
  exact ⟨hmakes, hown, crashesIdle_of_isCalm hcalm⟩

/-- The address subscribes again within the hour. -/
def sampleTwice : List NewsletterAction :=
  sampleSubscription Email.sampleJobId "token-1" ++ sampleSubscription sampleSecondJobId "token-2"

theorem procs_sampleAfter {as : List NewsletterAction} {p : Email.Uuid} (h : ∀ a ∈ as, ∀ task, a ≠ .start p task) :
    (sampleAfter as).procs p = none :=
  Machine.procs_run_eq_none server (newsletterBody sampleNewsletter Email.sampleService) outside h _

/-- Whether the action starts a process other than the two. -/
def startsOther : NewsletterAction → Bool
  | .start p _ => p ≠ Email.sampleApiId && p ≠ Email.sampleWorkerId
  | _ => false

theorem sampleTwice_drained : Drained (sampleAfter sampleTwice) := by
  have hstate : (((sampleAfter sampleTwice).store.email.redis.jobs .queue).zrange = []
        ∧ ((sampleAfter sampleTwice).store.email.redis.jobs .retry).zrange = [])
      ∧ ((sampleAfter sampleTwice).procs Email.sampleApiId).isNone = true
      ∧ ((sampleAfter sampleTwice).procs Email.sampleWorkerId).isNone = true := by
    decide +kernel
  obtain ⟨hempty, hidle⟩ := hstate
  have hstarts : sampleTwice.any startsOther = false := by decide +kernel
  have hnone : ∀ p, (sampleAfter sampleTwice).procs p = none := by
    intro p
    by_cases hp : p = Email.sampleApiId ∨ p = Email.sampleWorkerId
    · rcases hp with rfl | rfl
      · exact Option.isNone_iff_eq_none.mp hidle.1
      · exact Option.isNone_iff_eq_none.mp hidle.2
    · have hnever : ∀ a ∈ sampleTwice, ∀ task, a ≠ .start p task := by
        rintro a ha task rfl
        have hother := List.any_eq_false.mp hstarts _ ha
        simp only [startsOther, Bool.and_eq_true, decide_eq_true_eq, not_and_or, not_not] at hother
        exact hp hother
      exact procs_sampleAfter hnever
  refine ⟨fun j hj => ?_, fun j hj => ?_, fun p l hl => ?_⟩
  · rw [SortedSet.mem_def, hempty.1] at hj
    cases hj
  · rw [SortedSet.mem_def, hempty.2] at hj
    cases hj
  · rw [hnone p] at hl
    cases hl

/-- The token in the row is the second one, and no email has its link. -/
theorem sampleTwice_unconfirmable :
    ¬PendingConfirmable sampleNewsletter Email.sampleService 1000 sampleTwice := by
  have hcalm : (sampleTrace sampleTwice).all isCalm = true := by decide +kernel
  have hstate : (sampleAfter sampleTwice).store.subscribers.lookup "user@example.com"
        = some ⟨"user@example.com", "direct", false, some "token-2", 1000000000, none, none, none⟩
      ∧ (sampleAfter sampleTwice).store.nowMicros = 1000000000
      ∧ ∀ payload ∈ (sampleAfter sampleTwice).store.email.accepted,
        (Email.sampleService.payload "user@example.com" confirmationTemplate
          (sampleNewsletter.templateData "user@example.com" "token-2")).toOption ≠ some payload := by
    decide +kernel
  obtain ⟨hrow, hnow, hunsent⟩ := hstate
  refine not_pendingConfirmable (rfl : _ = sampleAfter sampleTwice)
    (fun t ht => callSucceeds_of_isCalm (List.all_eq_true.mp hcalm t ht)) sampleTwice_drained hrow ⟨rfl, rfl, rfl, ?_⟩
    fun token htoken hmailed => ?_
  · rw [hnow]
    decide
  · obtain ⟨payload, haccepted, hpayload⟩ := hmailed
    obtain rfl := Option.some.inj htoken
    refine hunsent payload haccepted ?_
    rw [hpayload]
    rfl

end PredictIQ.Api
