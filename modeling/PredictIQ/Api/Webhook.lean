/-
  PredictIQ.Api.Webhook: the events of SendGrid, and their redelivery.

  `processEvent` counts the event's nonce, looks for the event's row, writes
  that row, and then suppresses the address and counts the event.  A delivery
  that fails in between has been seen by the two guards, and they turn the
  next one away with `Ok`.  `answered_ok_iff` says of any deliveries of an
  event that each one answered with `Ok` leaves its effects, exactly once, if
  and only if no guard turns one away before another has counted the event;
  `sampleBounce_lost` are two deliveries that leave nothing.
-/
import PredictIQ.Api.Requests

namespace PredictIQ.Api

open Foundation

/-! ## §1. The handler (`email/webhook.rs`). -/

/-- `counter_type` of `email_increment_analytics_counter`. -/
def columnOf (counterType : String) : Option AnalyticsColumn :=
  match counterType with
  | "sent" => some .sent
  | "delivered" => some .delivered
  | "opened" => some .opened
  | "clicked" => some .clicked
  | "bounced" => some .bounced
  | "complained" => some .complained
  | "unsubscribed" => some .unsubscribed
  | _ => none

def emailIncrementAnalyticsCounter (counterType : String) (templateName : Option String) : ApiM Unit := do
  let template := templateName.getD "unknown"
  let now ← request (.email .utcNow)
  match columnOf counterType with
  | some column => request (.emailIncrementAnalyticsCounter column ⟨template, "default", now / 86400⟩)
  | none => return ()

def emailAddSuppression (email : String) (suppressionType : SuppressionType) (reason bounceType : Option String) :
    ApiM Unit :=
  request (.emailAddSuppression email suppressionType.asStr reason bounceType)

def handleBounce (event : SendGridEvent) : ApiM Unit := do
  let bounceType := (event.bounceClassification.or event.status).getD "unknown"
  let reason := (event.reason.or event.response).getD "No reason provided"
  emailAddSuppression event.email .bounce (some reason) (some bounceType)
  emailIncrementAnalyticsCounter "bounced" none

def handleComplaint (event : SendGridEvent) : ApiM Unit := do
  let reason := event.reason.getD "Spam complaint"
  emailAddSuppression event.email .complaint (some reason) none
  emailIncrementAnalyticsCounter "complained" none

def handleUnsubscribe (event : SendGridEvent) : ApiM Unit := do
  emailAddSuppression event.email .unsubscribe (some "User unsubscribed via email link") none
  let _ ← (request (.newsletterUnsubscribe event.email)).attempt
  emailIncrementAnalyticsCounter "unsubscribed" none

/-- What an event does, by its type. -/
def handleEvent (event : SendGridEvent) : ApiM Unit :=
  match event.event with
  | "delivered" => emailIncrementAnalyticsCounter "delivered" none
  | "open" => emailIncrementAnalyticsCounter "opened" none
  | "click" => emailIncrementAnalyticsCounter "clicked" none
  | "bounce" => handleBounce event
  | "dropped" => handleBounce event
  | "spamreport" => handleComplaint event
  | "unsubscribe" => handleUnsubscribe event
  | _ => return ()

/-- `cache` holds the cache's `retry_attempts`; `toValue` is `serde_json::to_value`. -/
structure WebhookHandler where
  cache : Nat
  replayWindowSecs : Nat
  toValue : SendGridEvent → Except String Email.Value

def nonceKey (event : SendGridEvent) : String :=
  "webhook_nonce:" ++ event.messageId.getD "" ++ ":" ++ event.event ++ ":" ++ event.email

namespace WebhookHandler

variable (h : WebhookHandler)

/-- The nonce of the event, counted with the retries of the cache; an error counts as one. -/
def seenCount (event : SendGridEvent) : ApiM Int := do
  match ← (lift (Email.cacheExec h.cache
      (Email.request (.incrWithTtl (nonceKey event) h.replayWindowSecs)))).attempt with
  | .ok count => return count
  | .error _ => return 1

/-- The event has got past the guards. -/
def handleNew (event : SendGridEvent) : ApiM Unit := do
  let metadata ← Prog.done (h.toValue event)
  request (.email (.createEvent ⟨none, event.messageId, event.event, event.email, metadata⟩))
  handleEvent event

def processEvent (event : SendGridEvent) : ApiM Unit := do
  let seen ← h.seenCount event
  if seen > 1 then return ()
  match ← (request (.emailEventExists event.messageId event.event event.email)).attempt with
  | .ok true => return ()
  | .ok false => h.handleNew event
  | .error _ => return ()

/-- One delivery of an event, to its answer. -/
def deliver (event : SendGridEvent) : ApiM Unit := do
  let result ← (h.processEvent event).attempt
  request (.respondEvent event result)

end WebhookHandler

/-! ## §2. What an event should do. -/

/-- The counter of an event's type. -/
def counterOf (eventType : String) : Option AnalyticsColumn :=
  match eventType with
  | "delivered" => some .delivered
  | "open" => some .opened
  | "click" => some .clicked
  | "bounce" => some .bounced
  | "dropped" => some .bounced
  | "spamreport" => some .complained
  | "unsubscribe" => some .unsubscribed
  | _ => none

/-- The types that suppress the address. -/
def suppresses (eventType : String) : Bool :=
  eventType ∈ ["bounce", "dropped", "spamreport", "unsubscribe"]

/-! ## §3. One delivery. -/

/-- How far a delivery has come. -/
inductive Delivery where
  /-- The guards have not let it through. -/
  | guarded
  /-- There was no row of the event. -/
  | passed
  /-- The row is written. -/
  | stored
  | suppressed
  | counted
  | failed
  deriving DecidableEq

namespace Delivery

/-- A call of the handler succeeds, or ends the delivery. -/
def orFailed {α : Type} (r : Except String α) (next : Delivery) : Delivery :=
  match r with
  | .ok _ => next
  | .error _ => failed

def next (φ : Delivery) : (q : Command) → Except String (Reply q) → Delivery
  | .emailEventExists .., .ok false => passed
  | .email (.createEvent _), r => orFailed r stored
  | .emailAddSuppression .., r => orFailed r suppressed
  | .emailIncrementAnalyticsCounter .., r => orFailed r counted
  | _, _ => φ

/-- The steps come in order, each about the event, and a delivery is answered
with `Ok` by a guard or when the event is counted. -/
def allows (e : SendGridEvent) (φ : Delivery) : Command → Prop
  | .email .utcNow | .email .breakerAllow | .email .poolGet | .email (.incrWithTtl ..) => True
  | .emailEventExists messageId eventType email =>
      φ = guarded ∧ messageId = e.messageId ∧ eventType = e.event ∧ email = e.email
  | .email (.createEvent row) =>
      φ = passed ∧ row.messageId = e.messageId ∧ row.eventType = e.event ∧ row.recipientEmail = e.email
  | .emailAddSuppression email _ _ _ => φ = stored ∧ email = e.email
  | .newsletterUnsubscribe _ => True
  | .emailIncrementAnalyticsCounter column _ =>
      counterOf e.event = some column ∧ (φ = suppressed ∨ φ = stored ∧ suppresses e.event = false)
  | .respondEvent e' result =>
      e' = e ∧ (result = .ok () → φ = guarded ∨ φ = counted)
  | _ => False

end Delivery

def deliveryMonitor (e : SendGridEvent) : Monitor Reply String Delivery :=
  ⟨.guarded, Delivery.next, Delivery.allows e⟩

section Delivers

open Monitor

variable {e : SendGridEvent} {φ : Delivery}

/-- The event is counted, or the delivery has failed. -/
def Counts (φ : Delivery) (r : Except String Unit) : Prop := r = .ok () → φ = .counted

theorem obeys_emailIncrementAnalyticsCounter {counterType : String} (column : AnalyticsColumn)
    (hcolumn : columnOf counterType = some column) (hcounter : counterOf e.event = some column)
    (hφ : φ = .suppressed ∨ φ = .stored ∧ suppresses e.event = false) :
    (deliveryMonitor e).Obeys Counts φ (emailIncrementAnalyticsCounter counterType none) := by
  refine obeys_call_bind.mpr ⟨trivial, fun now => ?_, fun _ h => by cases h⟩
  show (deliveryMonitor e).Obeys Counts φ _
  rw [hcolumn]
  refine ⟨⟨hcounter, hφ⟩, fun r => ?_⟩
  cases r with
  | error e => exact fun h => by cases h
  | ok v => exact fun _ => rfl

theorem obeys_emailAddSuppression {rest : ApiM Unit} (suppressionType : SuppressionType)
    (reason bounceType : Option String)
    (hrest : (deliveryMonitor e).Obeys Counts .suppressed rest) :
    (deliveryMonitor e).Obeys Counts .stored (do
      emailAddSuppression e.email suppressionType reason bounceType
      rest) :=
  obeys_call_bind.mpr ⟨⟨rfl, rfl⟩, fun _ => hrest, fun _ h => by cases h⟩

/-- What an event with a counter does, once its row is written. -/
theorem obeys_handleEvent (hcounter : counterOf e.event ≠ none) :
    (deliveryMonitor e).Obeys Counts .stored (handleEvent e) := by
  have hcount : ∀ {counterType : String} {column : AnalyticsColumn}, columnOf counterType = some column →
      counterOf e.event = some column → suppresses e.event = false →
      (deliveryMonitor e).Obeys Counts .stored (emailIncrementAnalyticsCounter counterType none) :=
    fun hcolumn hcounter hno => obeys_emailIncrementAnalyticsCounter _ hcolumn hcounter (.inr ⟨rfl, hno⟩)
  unfold handleEvent
  split <;> rename_i hevent
  · exact hcount rfl (by rw [hevent]; rfl) (by rw [hevent]; decide)
  · exact hcount rfl (by rw [hevent]; rfl) (by rw [hevent]; decide)
  · exact hcount rfl (by rw [hevent]; rfl) (by rw [hevent]; decide)
  · exact obeys_emailAddSuppression _ _ _
      (obeys_emailIncrementAnalyticsCounter .bounced rfl (by rw [hevent]; rfl) (.inl rfl))
  · exact obeys_emailAddSuppression _ _ _
      (obeys_emailIncrementAnalyticsCounter .bounced rfl (by rw [hevent]; rfl) (.inl rfl))
  · exact obeys_emailAddSuppression _ _ _
      (obeys_emailIncrementAnalyticsCounter .complained rfl (by rw [hevent]; rfl) (.inl rfl))
  · refine obeys_emailAddSuppression _ _ _ (obeys_bind.mpr (obeys_attempt.mpr ⟨trivial, fun r => ?_⟩))
    -- whether or not the newsletter knows the address
    show (deliveryMonitor e).Obeys Counts .suppressed (emailIncrementAnalyticsCounter "unsubscribed" none)
    exact obeys_emailIncrementAnalyticsCounter .unsubscribed rfl (by rw [hevent]; rfl) (.inl rfl)
  · refine absurd ?_ hcounter
    unfold counterOf
    split <;> first | rfl | (rename_i h; exact absurd h ‹_›)

theorem obeys_handleNew (h : WebhookHandler) (hcounter : counterOf e.event ≠ none) :
    (deliveryMonitor e).Obeys Counts .passed (h.handleNew e) := by
  unfold WebhookHandler.handleNew
  cases h.toValue e with
  | error err => exact fun h => by cases h
  | ok metadata =>
      exact obeys_call_bind.mpr ⟨⟨rfl, rfl, rfl, rfl⟩, fun _ => obeys_handleEvent hcounter, fun _ h => by cases h⟩

/-- The commands by which the nonce is counted. -/
def countsNonce : Command → Prop
  | .email .breakerAllow | .email .poolGet | .email (.incrWithTtl ..) => True
  | _ => False

theorem uses_seenCount (h : WebhookHandler) (e : SendGridEvent) : (h.seenCount e).Uses countsNonce := by
  have hexec : (Email.cacheExec h.cache
      (Email.request (.incrWithTtl (nonceKey e) h.replayWindowSecs))).Uses fun q => countsNonce (.email q) := by
    refine Prog.Uses.bind (Prog.uses_call.mpr trivial) fun closed => ?_
    split
    · refine Email.retrying_uses (Prog.Uses.bind (Prog.Uses.mapError ?_ _) fun _ => ?_) _
      · exact Prog.uses_call.mpr trivial
      · exact Prog.uses_call.mpr trivial
    · exact Prog.uses_fail _
  refine Prog.Uses.bind (Uses.lift hexec).attempt fun counted => ?_
  cases counted with
  | ok count => exact Prog.uses_pure count
  | error err => exact Prog.uses_pure 1

/-- Counting the nonce leaves a delivery where it is. -/
theorem countsNonce_quiet {q : Command} (hq : countsNonce q) (φ : Delivery) :
    φ.allows e q ∧ ∀ r, φ.next q r = φ := by
  cases q with
  | email q => cases q <;> first | exact ⟨trivial, fun _ => rfl⟩ | exact absurd hq id
  | _ => exact absurd hq id

open WebhookHandler in
/-- **A delivery** goes through its stages in order. -/
theorem obeys_deliver (h : WebhookHandler) (hcounter : counterOf e.event ≠ none) :
    (deliveryMonitor e).Obeys (fun _ _ => True) .guarded (h.deliver e) := by
  -- what `processEvent` must establish for the answer
  have hanswer : ∀ {φ : Delivery} {p : ApiM Unit},
      (deliveryMonitor e).Obeys (fun φ r => r = .ok () → φ = .guarded ∨ φ = .counted) φ p →
      (deliveryMonitor e).Obeys (fun _ _ => True) φ (p.attempt >>= fun r => request (.respondEvent e r)) := by
    intro φ p hp
    refine obeys_bind.mpr (obeys_attempt.mpr (hp.mono fun φ r hr => ?_))
    exact ⟨⟨rfl, hr⟩, fun _ => trivial⟩
  refine hanswer (obeys_bind_of_uses (uses_seenCount h e) (fun q hq => countsNonce_quiet hq _) (fun seen => ?_)
    fun _ h => by cases h)
  split
  · exact fun _ => .inl rfl
  · refine obeys_bind.mpr (obeys_attempt.mpr ⟨⟨rfl, rfl, rfl, rfl⟩, fun r => ?_⟩)
    rcases r with err | seenBefore
    · exact fun _ => .inl rfl
    · cases seenBefore with
      | true => exact fun _ => .inl rfl
      | false => exact (obeys_handleNew h hcounter).mono fun φ r hr hok => .inr (hr hok)

end Delivers

/-! ## §4. What deliveries leave. -/

section Books

variable (e : SendGridEvent) (column : AnalyticsColumn) (base : Int)

/-- The event has a row. -/
def Recorded (b : Backend) : Prop := b.eventExists e.messageId e.event e.email = true

/-- The event's address is suppressed. -/
def IsSuppressed (b : Backend) : Prop := e.email ∈ b.email.db.suppressions

/-- The event is not counted, and the counter stands at `base`. -/
def Uncounted (b : Backend) : Prop := countOf column b.analytics = base

/-- The event is counted once, after everything else it does. -/
structure Complete (b : Backend) : Prop where
  counted : countOf column b.analytics = base + 1
  recorded : Recorded e b
  suppressed : suppresses e.event = true → IsSuppressed e b

/-- What a stage says of the tables. -/
def Delivery.Holds (b : Backend) : Delivery → Prop
  | .passed => Uncounted column base b
  | .stored => Uncounted column base b ∧ Recorded e b
  | .suppressed => Uncounted column base b ∧ Recorded e b ∧ IsSuppressed e b
  | .counted => Complete e column base b
  | .guarded | .failed => True

variable {e column base} {c : Choice} {b b' : Backend} {q : Command} {v : Reply q} {φ : Delivery}

/-- Rows of events and suppressed addresses stay. -/
theorem rows_of_exec (h : exec c b q = some (v, b')) (hallows : φ.allows e q) :
    (Recorded e b → Recorded e b') ∧ (IsSuppressed e b → IsSuppressed e b') := by
  cases q with
  | email q =>
      obtain ⟨⟨r, b₁⟩, hq, hb'⟩ := Option.map_eq_some_iff.mp h
      cases hb'
      cases q with
      | createEvent row =>
          cases hq
          refine ⟨fun hrow => ?_, id⟩
          unfold Recorded Backend.eventExists at hrow ⊢
          rw [List.any_append, hrow, Bool.true_or]
      | utcNow => cases hq; exact ⟨id, id⟩
      | breakerAllow => cases hq; exact ⟨id, id⟩
      | poolGet => cases hq; exact ⟨id, id⟩
      | incrWithTtl key seconds => cases hq; exact ⟨id, id⟩
      | _ => exact absurd hallows id
  | emailAddSuppression email suppressionType reason bounceType =>
      cases h
      unfold Backend.suppress
      split
      · exact ⟨id, id⟩
      · exact ⟨id, fun hs => List.mem_cons_of_mem _ hs⟩
  | newsletterConfirmByToken token ttl => exact absurd hallows id
  | newsletterUpsertPending email source token => exact absurd hallows id
  | _ =>
      cases h
      exact ⟨id, id⟩

/-- The counters stay, but for the event's own. -/
theorem counter_of_exec (hcounter : counterOf e.event = some column) (h : exec c b q = some (v, b'))
    (hallows : φ.allows e q) :
    (∃ key, q = .emailIncrementAnalyticsCounter column key ∧ b'.analytics = increment column key b.analytics)
      ∨ b'.analytics = b.analytics := by
  cases q with
  | email q =>
      obtain ⟨⟨r, b₁⟩, -, hb'⟩ := Option.map_eq_some_iff.mp h
      cases hb'
      exact .inr rfl
  | emailIncrementAnalyticsCounter column' key =>
      cases h
      obtain rfl : column = column' := Option.some.inj (hcounter.symm.trans hallows.1)
      exact .inl ⟨key, rfl, rfl⟩
  | emailAddSuppression email suppressionType reason bounceType =>
      cases h
      unfold Backend.suppress
      split <;> exact .inr rfl
  | newsletterConfirmByToken token ttl => exact absurd hallows id
  | newsletterUpsertPending email source token => exact absurd hallows id
  | _ =>
      cases h
      exact .inr rfl

/-- What a stage says of the tables, the rest of them unchanged, it goes on saying. -/
theorem Delivery.Holds.mono (h : φ.Holds e column base b) (hsame : b'.analytics = b.analytics)
    (hrow : Recorded e b → Recorded e b') (haddress : IsSuppressed e b → IsSuppressed e b') :
    φ.Holds e column base b' := by
  have hcount : countOf column b'.analytics = countOf column b.analytics := congrArg (countOf column) hsame
  cases φ with
  | passed => exact hcount.trans h
  | stored => exact ⟨hcount.trans h.1, hrow h.2⟩
  | suppressed => exact ⟨hcount.trans h.1, hrow h.2.1, haddress h.2.2⟩
  | counted => exact ⟨hcount.trans h.counted, hrow h.recorded, fun hs => haddress (h.suppressed hs)⟩
  | guarded => trivial
  | failed => trivial

/-- A delivery that counts the event has done everything else it does. -/
theorem Delivery.Holds.complete {key : AnalyticsKey} (h : φ.Holds e column base b)
    (hallows : φ.allows e (.emailIncrementAnalyticsCounter column key)) :
    Complete e column base { b with analytics := increment column key b.analytics } := by
  obtain ⟨-, rfl | ⟨rfl, hno⟩⟩ := hallows
  · exact ⟨(countOf_increment ..).trans (congrArg (· + 1) h.1), h.2.1, fun _ => h.2.2⟩
  · exact ⟨(countOf_increment ..).trans (congrArg (· + 1) h.1), h.2, fun hs => absurd (hs.symm.trans hno) (by decide)⟩

/-- A delivery that is told of an error has failed, or goes on as it is. -/
theorem Delivery.Holds.next_error (h : φ.Holds e column base b) (q : Command) (err : String) :
    (φ.next q (.error err)).Holds e column base b := by
  cases q with
  | email q => cases q <;> first | exact h | trivial
  | emailAddSuppression => trivial
  | emailIncrementAnalyticsCounter => trivial
  | _ => exact h

/-- **One answer** that is no increment. -/
theorem Delivery.Holds.next_ok (h : φ.Holds e column base b')
    (hbooks : Complete e column base b ∨ Uncounted column base b) (hexec : exec c b q = some (v, b'))
    (hallows : φ.allows e q) (hq : ¬∃ column key, q = .emailIncrementAnalyticsCounter column key) :
    (φ.next q (.ok v)).Holds e column base b' := by
  cases q with
  | email q =>
      cases q with
      | createEvent row =>
          obtain ⟨rfl, hid, htype, haddress⟩ := hallows
          refine ⟨h, ?_⟩
          cases hexec
          unfold Recorded Backend.eventExists
          simp [hid, htype, haddress]
      | _ => exact h
  | emailEventExists messageId eventType email =>
      obtain ⟨rfl, rfl, rfl, rfl⟩ := hallows
      cases hexec
      cases hfound : b.eventExists e.messageId e.event e.email with
      | true => exact h
      | false =>
          refine hbooks.resolve_left fun hcomplete => ?_
          exact absurd (hcomplete.recorded.symm.trans hfound) (by decide)
  | emailAddSuppression email suppressionType reason bounceType =>
      obtain ⟨rfl, rfl⟩ := hallows
      refine ⟨h.1, h.2, ?_⟩
      cases hexec
      unfold IsSuppressed Backend.suppress
      split
      · assumption
      · exact List.mem_cons_self
  | emailIncrementAnalyticsCounter column' key => exact absurd ⟨column', key, rfl⟩ hq
  | _ => exact h

/-- The next delivery starts from nothing. -/
theorem Delivery.Holds.phaseOf (h : φ.Holds e column base b) (rest : ApiM Unit) :
    (Machine.phaseOf (deliveryMonitor e) rest φ).Holds e column base b := by
  cases rest with
  | done res => trivial
  | ask q k => exact h

end Books

/-! ## §5. Deliveries one after another. -/

/-- The deliveries of an event, one at a time: one is started when the one
before it has been answered, or dropped. -/
abbrev Deliveries : Type := Machine Unit Reply String Backend

abbrev DeliveryAction : Type := Act Unit Unit String Choice Outside

abbrev DeliveryHistory : Type := List (Transition Deliveries DeliveryAction)

def Deliveries.step (h : WebhookHandler) (e : SendGridEvent) : Deliveries → DeliveryAction → Deliveries :=
  Machine.step server (fun _ _ => h.deliver e) outside

/-- The delivery is answered with `Ok`. -/
def AnsweredOk (e : SendGridEvent) (m : Deliveries) : Prop :=
  ∃ l, m.procs () = some l ∧ l.question = .respondEvent e (.ok ())

/-- The delivery is answered with `Ok` by a guard: it has not counted the event itself. -/
def TurnedAway (e : SendGridEvent) (m : Deliveries) : Prop :=
  ∃ l, m.procs () = some l ∧ l.question = .respondEvent e (.ok ())
    ∧ ∀ column key, ⟨.emailIncrementAnalyticsCounter column key, .ok ()⟩ ∉ l.heard

/-- A delivery has got through to its last call, the increment of the counter. -/
def GotThrough (history : DeliveryHistory) : Prop :=
  ∃ t ∈ history, ∃ column key, t.pre.performs t.act = some (.emailIncrementAnalyticsCounter column key)

/-- The address is suppressed, where the event's type says so, and the counter
has been incremented exactly once. -/
def Effective (e : SendGridEvent) (column : AnalyticsColumn) (b m : Backend) : Prop :=
  (suppresses e.event = true → IsSuppressed e m) ∧ countOf column m.analytics = countOf column b.analytics + 1

section Runs

variable {h : WebhookHandler} {e : SendGridEvent} {column : AnalyticsColumn} {base : Int}
  {history : DeliveryHistory} {m : Deliveries} {a : DeliveryAction}

/-- Where the deliveries stand with the tables. -/
structure Standing (e : SendGridEvent) (column : AnalyticsColumn) (base : Int) (history : DeliveryHistory)
    (m : Deliveries) : Prop where
  books : GotThrough history ∧ Complete e column base m.store
    ∨ ¬GotThrough history ∧ Uncounted column base m.store
  stage : (m.phase (deliveryMonitor e) ()).Holds e column base m.store

theorem gotThrough_concat {t : Transition Deliveries DeliveryAction} : GotThrough (history ++ [t]) ↔
    GotThrough history ∨ ∃ column key, t.pre.performs t.act = some (.emailIncrementAnalyticsCounter column key) := by
  simp only [GotThrough, List.mem_append, List.mem_singleton, or_and_right, exists_or, exists_eq_left]

/-- What is carried out is allowed at the stage of the delivery. -/
theorem allows_of_performs (hm : Machine.Monitored (deliveryMonitor e) m) {q : Command}
    (hq : m.performs a = some q) : (m.phase (deliveryMonitor e) ()).allows e q := by
  obtain ⟨⟨⟩, -, hallows⟩ := hm.allows_of_performs hq
  exact hallows

/-- **A step that counts the event.** -/
theorem Standing.step_of_increment (hs : Standing e column base history m)
    (hm : Machine.Monitored (deliveryMonitor e) m) (hcounter : counterOf e.event = some column)
    {column' : AnalyticsColumn} {key : AnalyticsKey}
    (hq : m.performs a = some (.emailIncrementAnalyticsCounter column' key)) :
    Standing e column base (history ++ [⟨m, a, Deliveries.step h e m a⟩]) (Deliveries.step h e m a) := by
  have hallows := allows_of_performs hm hq
  obtain rfl : column = column' := Option.some.inj (hcounter.symm.trans hallows.1)
  obtain ⟨p, l, c, v, s, r, -, hl, hlq, hexec, hstep⟩ :=
    Machine.deliver_of_performs server (fun _ _ => h.deliver e) outside hq rfl fun _ => rfl
  obtain ⟨q, rest, heard⟩ := l
  obtain rfl : q = .emailIncrementAnalyticsCounter column key := hlq
  have hcomplete : Complete e column base s := by
    cases hexec
    exact hs.stage.complete hallows
  rw [show Deliveries.step h e m a = _ from hstep]
  refine ⟨.inl ⟨gotThrough_concat.mpr (.inr ⟨column, key, hq⟩), hcomplete⟩, ?_⟩
  rw [Machine.phase_deliver _ hl, Function.update_self]
  refine Delivery.Holds.phaseOf ?_ _
  -- the delivery has counted the event, or does not know
  cases r with
  | error err => trivial
  | ok v' => exact hcomplete

/-- **Any other step.** -/
theorem Standing.step_of_other (hs : Standing e column base history m)
    (hm : Machine.Monitored (deliveryMonitor e) m) (hcounter : counterOf e.event = some column)
    (hq : ¬∃ column key, m.performs a = some (.emailIncrementAnalyticsCounter column key)) :
    Standing e column base (history ++ [⟨m, a, Deliveries.step h e m a⟩]) (Deliveries.step h e m a) := by
  have hthrough : GotThrough (history ++ [⟨m, a, Deliveries.step h e m a⟩]) ↔ GotThrough history := by
    rw [gotThrough_concat]
    exact or_iff_left hq
  -- the counters stay, and no row or suppression goes
  have htables : (Deliveries.step h e m a).store.analytics = m.store.analytics
      ∧ (Recorded e m.store → Recorded e (Deliveries.step h e m a).store)
      ∧ (IsSuppressed e m.store → IsSuppressed e (Deliveries.step h e m a).store) := by
    rcases m.store_step_cases server (fun _ _ => h.deliver e) outside a with
      hsame | ⟨q, c, v, hq', hexec, -⟩ | ⟨w, -, hstore⟩
    · rw [show (Deliveries.step h e m a).store = _ from hsame]
      exact ⟨rfl, id, id⟩
    · have hallows := allows_of_performs hm hq'
      refine ⟨(counter_of_exec hcounter hexec hallows).resolve_left ?_, rows_of_exec hexec hallows⟩
      rintro ⟨key, rfl, -⟩
      exact hq ⟨column, key, hq'⟩
    · rw [show (Deliveries.step h e m a).store = _ from hstore]
      cases w
      exact ⟨rfl, id, id⟩
  obtain ⟨hsame, hrow, haddress⟩ := htables
  have hcount : countOf column (Deliveries.step h e m a).store.analytics = countOf column m.store.analytics :=
    congrArg (countOf column) hsame
  refine ⟨?_, ?_⟩
  · rw [hthrough]
    refine hs.books.imp (fun hb => ⟨hb.1, ?_⟩) fun hb => ⟨hb.1, hcount.trans hb.2⟩
    exact ⟨hcount.trans hb.2.counted, hrow hb.2.recorded, fun hsup => haddress (hb.2.suppressed hsup)⟩
  · have hkept : (m.phase (deliveryMonitor e) ()).Holds e column base (Deliveries.step h e m a).store :=
      hs.stage.mono hsame hrow haddress
    rcases Machine.phase_step_cases (M := deliveryMonitor e) server (fun _ _ => h.deliver e) outside m a () with
      hphase | hphase | ⟨l, s, r, ha, hl, hr, hstore, hphase⟩ <;>
      rw [show (Deliveries.step h e m a).phase (deliveryMonitor e) () = _ from hphase]
    · exact hkept
    · trivial
    · rcases Machine.reply_cases server ha hr with ⟨c, v, rfl, rfl, hexec⟩ | ⟨err, rfl, rfl, -⟩ | ⟨c, err, v, rfl, rfl, -⟩
      · refine hkept.next_ok (hs.books.imp And.right And.right) (hstore ▸ hexec) (hm () l hl).1 ?_
        rintro ⟨column', key, hlq⟩
        exact hq ⟨column', key, by simp [Machine.performs, hl, hlq]⟩
      · exact hkept.next_error _ err
      · exact hkept.next_error _ err

theorem standing_run (h : WebhookHandler) (hcounter : counterOf e.event = some column) (b : Backend)
    (as : List DeliveryAction) :
    Standing e column (countOf column b.analytics) (trace (Deliveries.step h e) (Machine.idle b) as)
      (run (Deliveries.step h e) (Machine.idle b) as) := by
  have hidle : Standing e column (countOf column b.analytics) [] (Machine.idle b) := by
    refine ⟨.inr ⟨fun hthrough => ?_, rfl⟩, trivial⟩
    obtain ⟨t, ht, -⟩ := hthrough
    cases ht
  refine history_invariant (Deliveries.step h e) (Standing e column (countOf column b.analytics)) (fun _ => True)
    hidle (fun as a hs _ => ?_) as fun _ _ => trivial
  have hm : Machine.Monitored (deliveryMonitor e) (run (Deliveries.step h e) (Machine.idle b) as) :=
    Machine.monitored_run (fun _ _ => obeys_deliver h (by simp [hcounter])) b as
  by_cases hq : ∃ column key, (run (Deliveries.step h e) (Machine.idle b) as).performs a
      = some (.emailIncrementAnalyticsCounter column key)
  · obtain ⟨column', key, hq⟩ := hq
    exact hs.step_of_increment hm hcounter hq
  · exact hs.step_of_other hm hcounter hq

/-- Nothing leads back to the guards. -/
theorem Delivery.next_eq_guarded {φ : Delivery} {q : Command} {r : Except String (Reply q)}
    (hφ : φ.next q r = .guarded) :
    φ = .guarded ∧ ∀ column key, q ≠ .emailIncrementAnalyticsCounter column key := by
  cases q with
  | email q =>
      cases q with
      | createEvent row => cases r <;> cases hφ
      | _ => exact ⟨hφ, fun _ _ h => by cases h⟩
  | emailEventExists messageId eventType email =>
      refine ⟨?_, fun _ _ h => by cases h⟩
      cases r with
      | error err => exact hφ
      | ok found =>
          cases found with
          | true => exact hφ
          | false => cases hφ
  | emailAddSuppression email suppressionType reason bounceType => cases r <;> cases hφ
  | emailIncrementAnalyticsCounter column key => cases r <;> cases hφ
  | _ => exact ⟨hφ, fun _ _ h => by cases h⟩

/-- A delivery at the guards has not counted the event. -/
theorem not_heard_of_guarded {heard : List (Exchange Reply String)}
    (hφ : Machine.phaseAfter (deliveryMonitor e) heard = .guarded) (column : AnalyticsColumn) (key : AnalyticsKey) :
    ⟨.emailIncrementAnalyticsCounter column key, .ok ()⟩ ∉ heard := by
  induction heard using List.reverseRecOn with
  | nil => exact List.not_mem_nil
  | append_singleton heard x ih =>
      rw [Machine.phaseAfter_concat] at hφ
      obtain ⟨hbefore, hx⟩ := Delivery.next_eq_guarded hφ
      intro hmem
      rcases List.mem_append.mp hmem with hmem | hmem
      · exact ih hbefore hmem
      · exact hx column key (congrArg Exchange.question (List.mem_singleton.mp hmem)).symm

/-- A delivery that is answered with `Ok` is turned away, or has counted the event. -/
theorem turnedAway_or_complete (hs : Standing e column base history m)
    (hm : Machine.Monitored (deliveryMonitor e) m) (hok : AnsweredOk e m) :
    TurnedAway e m ∨ Complete e column base m.store := by
  obtain ⟨l, hl, hq⟩ := hok
  have hallows := (hm () l hl).1
  rw [hq] at hallows
  rcases hallows.2 rfl with hguarded | hcounted
  · refine .inl ⟨l, hl, hq, fun column key => not_heard_of_guarded (e := e) ?_ column key⟩
    unfold Machine.phase at hguarded
    rwa [hl] at hguarded
  · have hstage := hs.stage
    rw [hcounted] at hstage
    exact .inr hstage

/-- **Exactly once**: every delivery that is answered with `Ok` leaves the
effects of the event, if and only if none is turned away before one has got
through. -/
theorem answered_ok_iff (h : WebhookHandler) (e : SendGridEvent) (column : AnalyticsColumn)
    (hcounter : counterOf e.event = some column) (b : Backend) (as : List DeliveryAction) :
    (∀ bs, bs <+: as → AnsweredOk e (run (Deliveries.step h e) (Machine.idle b) bs) →
        Effective e column b (run (Deliveries.step h e) (Machine.idle b) bs).store)
      ↔ ∀ bs, bs <+: as → TurnedAway e (run (Deliveries.step h e) (Machine.idle b) bs) →
        GotThrough (trace (Deliveries.step h e) (Machine.idle b) bs) := by
  constructor
  · intro heffective bs hbs haway
    obtain ⟨l, hl, hq, -⟩ := haway
    have hcount := (heffective bs hbs ⟨l, hl, hq⟩).2
    rcases (standing_run h hcounter b bs).books with ⟨hthrough, -⟩ | ⟨-, huncounted⟩
    · exact hthrough
    · have hbase : countOf column b.analytics = countOf column b.analytics + 1 := huncounted.symm.trans hcount
      omega
  · intro hthrough bs hbs hok
    have hs := standing_run h hcounter b bs
    have hm : Machine.Monitored (deliveryMonitor e) (run (Deliveries.step h e) (Machine.idle b) bs) :=
      Machine.monitored_run (fun _ _ => obeys_deliver h (by simp [hcounter])) b bs
    have hcomplete : Complete e column (countOf column b.analytics) (run (Deliveries.step h e) (Machine.idle b) bs).store := by
      rcases turnedAway_or_complete hs hm hok with haway | hcomplete
      · exact (hs.books.resolve_right fun hb => hb.1 (hthrough bs hbs haway)).2
      · exact hcomplete
    exact ⟨hcomplete.suppressed, hcomplete.counted⟩

end Runs

/-! ## §6. A bounce that is delivered twice. -/

def isAnsweredOk (e : SendGridEvent) : Command → Bool
  | .respondEvent e' (.ok ()) => e' = e
  | _ => false

theorem answeredOk_of_any {e : SendGridEvent} {m : Deliveries}
    (h : (m.procs ()).any (fun l => isAnsweredOk e l.question) = true) : AnsweredOk e m := by
  obtain ⟨l, hl, hq⟩ := (Option.any_eq_true _ _).mp h
  refine ⟨l, hl, ?_⟩
  generalize l.question = q at hq
  cases q with
  | respondEvent e' result =>
      cases result with
      | error err => cases hq
      | ok u => rw [of_decide_eq_true hq]
  | _ => cases hq

def sampleBounce : SendGridEvent where
  email := "user@example.com"
  event := "bounce"
  timestamp := 1700000000
  messageId := some "message-1"
  reason := some "mailbox full"
  status := none
  response := none
  bounceClassification := none
  url := none

def sampleHandler : WebhookHandler := ⟨3, 300, fun _ => .ok "\x7b\x7d"⟩

def sampleBackend : Backend where
  email := { now := 1700000000 }

/-- The answers to a delivery. -/
def sampleAnswers (n : Nat) : List DeliveryAction :=
  List.replicate n (.answer () ⟨Email.sampleChoice Email.sampleJobId, "token"⟩)

/-- The first delivery gets through, and the second is turned away. -/
def sampleRepeated : List DeliveryAction :=
  .start () () :: sampleAnswers 9 ++ .start () () :: sampleAnswers 3

theorem sampleRepeated_effective :
    ((∀ bs, bs <+: sampleRepeated →
          AnsweredOk sampleBounce (run (Deliveries.step sampleHandler sampleBounce) (Machine.idle sampleBackend) bs) →
          Effective sampleBounce .bounced sampleBackend
            (run (Deliveries.step sampleHandler sampleBounce) (Machine.idle sampleBackend) bs).store)
        ↔ ∀ bs, bs <+: sampleRepeated →
          TurnedAway sampleBounce (run (Deliveries.step sampleHandler sampleBounce) (Machine.idle sampleBackend) bs) →
          GotThrough (trace (Deliveries.step sampleHandler sampleBounce) (Machine.idle sampleBackend) bs))
      ∧ countOf .bounced
          (run (Deliveries.step sampleHandler sampleBounce) (Machine.idle sampleBackend) sampleRepeated).store.analytics = 1 :=
  ⟨answered_ok_iff sampleHandler sampleBounce .bounced rfl sampleBackend sampleRepeated, by decide +kernel⟩

/-- The row of the first delivery cannot be written, and SendGrid is told of an
error; the second delivery finds the nonce counted. -/
def sampleLost : List DeliveryAction :=
  .start () () :: sampleAnswers 4 ++ .refuse () "pool timed out" :: sampleAnswers 1
    ++ .start () () :: sampleAnswers 3

/-- The second delivery is answered with `Ok`, and the event has done nothing. -/
theorem sampleLost_drops :
    ¬∀ as, AnsweredOk sampleBounce (run (Deliveries.step sampleHandler sampleBounce) (Machine.idle sampleBackend) as) →
      Effective sampleBounce .bounced sampleBackend
        (run (Deliveries.step sampleHandler sampleBounce) (Machine.idle sampleBackend) as).store := by
  intro h
  have hok : AnsweredOk sampleBounce
      (run (Deliveries.step sampleHandler sampleBounce) (Machine.idle sampleBackend) sampleLost) :=
    answeredOk_of_any (by decide +kernel)
  have hnone : countOf .bounced (run (Deliveries.step sampleHandler sampleBounce) (Machine.idle sampleBackend)
      sampleLost).store.analytics ≠ countOf .bounced sampleBackend.analytics + 1 := by
    decide +kernel
  exact hnone (h sampleLost hok).2

end PredictIQ.Api
