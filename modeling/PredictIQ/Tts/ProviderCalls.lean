/-
  PredictIQ.Tts.ProviderCalls: the calls of the providers, request by request.

  A job calls one provider and then perhaps the other, each through a circuit
  breaker whose action is the loop of `withRetry`.  The breaker is that of
  `opossum`, and what is relied on of it stands in `Opossum`.  Providers answer
  what and when they please; time passes between the events, but past no
  deadline: a request ends within `timeoutMs`, and so does a call, for its
  breaker rejects it.  Other timers may be late.  `requests` and `failures` are
  not in the code: they count what a call has sent and what a breaker has heard.
-/
import PredictIQ.Foundation.Run
import PredictIQ.Tts.Service
import Mathlib.Data.List.Infix
import Mathlib.Logic.Function.Basic

namespace PredictIQ.Tts.ProviderCalls

open Foundation

/-! ## §1. What a provider answers. -/

/-- The status codes of gRPC. -/
inductive RpcCode where
  | cancelled
  | unknown
  | invalidArgument
  | deadlineExceeded
  | notFound
  | alreadyExists
  | permissionDenied
  | resourceExhausted
  | failedPrecondition
  | aborted
  | outOfRange
  | unimplemented
  | internal
  | unavailable
  | dataLoss
  | unauthenticated
  deriving DecidableEq

/-- The end of a request, with the text of its error or of its response; where
the status is ok, `audio` is the body, or the error of reading it. -/
inductive ElevenLabsAnswer where
  | networkError (text : String)
  | aborted
  | response (status : Nat) (text : String) (audio : Except String Buffer)

inductive GoogleAnswer where
  | failed (code : RpcCode) (text : String)
  | response (audio : Except String Buffer)

/-- A `TTSProviderError`, or any other error. -/
inductive CallError where
  | provider (p : TTSProvider) (message : String) (statusCode : Nat)
  | other (message : String)

def CallError.message : CallError → String
  | .provider p message _ => "[" ++ p.name ++ "] " ++ message
  | .other message => message

/-- The status code that `TTSProviderError` has by default. -/
def defaultStatusCode : Nat := 502

def isOk (status : Nat) : Bool := 200 ≤ status && status ≤ 299

def generateElevenLabs (timeoutMs : Nat) : ElevenLabsAnswer → Except CallError Buffer
  | .networkError text =>
      .error (.provider .elevenlabs ("Network error calling ElevenLabs: " ++ text) defaultStatusCode)
  | .aborted =>
      .error (.provider .elevenlabs
        ("ElevenLabs request aborted after exceeding timeout of " ++ toString timeoutMs ++ "ms") defaultStatusCode)
  | .response status text audio =>
      if isOk status then audio.mapError .other
      else
        .error (.provider .elevenlabs ("ElevenLabs HTTP " ++ toString status ++ ": " ++ text)
          (if status ≥ 500 then 502 else status))

def generateGoogle : GoogleAnswer → Except CallError Buffer
  | .failed _ text => .error (.provider .google ("Google TTS error: " ++ text) defaultStatusCode)
  | .response audio => audio.mapError .other

/-- The answer to a request to either provider. -/
inductive Answer where
  | elevenlabs (a : ElevenLabsAnswer)
  | google (a : GoogleAnswer)

def Answer.provider : Answer → TTSProvider
  | .elevenlabs _ => .elevenlabs
  | .google _ => .google

def Answer.result (timeoutMs : Nat) : Answer → Except CallError Buffer
  | .elevenlabs a => generateElevenLabs timeoutMs a
  | .google a => generateGoogle a

/-! ## §2. Retries and the breaker. -/

def isRetryable : CallError → Bool
  | .provider _ _ code => if code = 400 || code = 401 || code = 403 then false else code = 429 || code ≥ 500
  | .other _ => true

structure RetryConfig where
  maxRetries : Nat
  maxDelayMs : Nat

/-- `elevenlabs` and `google` say which providers are configured. -/
structure CallConfig where
  elevenlabs : Bool
  google : Bool
  retry : RetryConfig
  timeoutMs : Nat

def CallConfig.isConfigured (C : CallConfig) : TTSProvider → Bool
  | .elevenlabs => C.elevenlabs
  | .google => C.google

/-- The configuration with both providers and nothing else. -/
def CallConfig.default : CallConfig := ⟨true, true, ⟨3, 60000⟩, 10000⟩

/-- The milliseconds to sleep; `random` chooses among them. -/
def backoffDelay (attempt maxDelayMs random : Nat) : Nat := random % (min maxDelayMs (1000 * 2 ^ attempt) + 1)

/-- What the loop of `withRetry` does when an attempt has ended. -/
inductive Turn where
  | returns (result : Except CallError Buffer)
  | sleeps (ms : Nat)

/-- The body of the loop of `withRetry`, after its `fn`. -/
def withRetry (retry : RetryConfig) (attempt random : Nat) : Except CallError Buffer → Turn
  | .ok audio => .returns (.ok audio)
  | .error err =>
      if !isRetryable err || attempt = retry.maxRetries then .returns (.error err)
      else .sleeps (backoffDelay attempt retry.maxDelayMs random)

/-- The `errorFilter` of both breakers: an error that it accepts is no failure. -/
def errorFilter : CallError → Bool
  | .provider _ _ code => code ≥ 400 && code < 500
  | .other _ => false

/-- The errors of `opossum`'s own. -/
def openError : CallError := .other "Breaker is open"

def timedOut (timeoutMs : Nat) : CallError := .other ("Timed out after " ++ toString timeoutMs ++ "ms")

/-- The `catch` of `_fireBreaker`. -/
def fireBreaker (p : TTSProvider) (err : CallError) : CallError :=
  if "open".toList <:+: err.message.toList then .provider p ("Circuit breaker OPEN: " ++ err.message) 503 else err

/-- `opossum` seen from outside: whether `fire` runs the action, and what the
breaker becomes when it is fired, when a call has ended, in a failure or not,
and as time passes.  It does not open without failures. -/
structure Opossum where
  State : Type
  initial : State
  closed : State → Bool
  admits : State → Bool
  fired : State → State
  record : State → Bool → State
  elapse : State → Nat → State
  closed_initial : closed initial = true
  closed_fired : ∀ s, closed s = true → closed (fired s) = true
  closed_record : ∀ s, closed s = true → closed (record s false) = true
  closed_elapse : ∀ s ms, closed s = true → closed (elapse s ms) = true

/-- The counts of a breaker. -/
structure Tally where
  fires : Nat
  failures : Nat
  opened : Bool

/-- `opossum` with an `errorThresholdPercentage` of 50, as long as neither
`rollingCountTimeout` nor `resetTimeout` has passed. -/
def Opossum.early (volumeThreshold : Nat) : Opossum where
  State := Tally
  initial := ⟨0, 0, false⟩
  closed s := !s.opened
  admits s := !s.opened
  fired s := { s with fires := s.fires + 1 }
  record s failure :=
    if failure then
      { s with
        failures := s.failures + 1
        opened := s.opened || (volumeThreshold ≤ s.fires && s.fires < 2 * (s.failures + 1)) }
    else s
  elapse s _ := s
  closed_initial := rfl
  closed_fired _ h := h
  closed_record _ h := h
  closed_elapse _ _ h := h

/-! ## §3. The calls of a job. -/

/-- Where the loop of `withRetry` is. -/
inductive Loop where
  | requesting (attempt startedAt : Nat)
  | backingOff (attempt wakeAt : Nat)
  | returned
  deriving DecidableEq

/-- The promise that `fire` has given. -/
inductive Fire where
  | pending
  | fulfilled
  | rejected
  deriving DecidableEq

structure Call where
  firedAt : Nat
  loop : Loop
  fire : Fire
  requests : Nat
  deriving DecidableEq

/-- Where `_process` is: before its providers, waiting for one, between them, or with the audio. -/
inductive Phase where
  | preparing
  | primary
  | failed (primaryErr : CallError)
  | fallback (primaryErr : CallError)
  | saving (audio : Buffer)
  | done
  | error (message : String)

structure Job where
  spec : JobSpec
  phase : Phase
  calls : TTSProvider → Option Call

/-- What a breaker hears of an event: that it is fired, or that a call has ended. -/
inductive Signal where
  | none
  | fired (p : TTSProvider)
  | recorded (p : TTSProvider) (failure : Bool)

/-- The cache has the audio, or not; the fallback begins; the audio is saved; the
job fails elsewhere; a request is answered; a sleep is over; a breaker's timer fires. -/
inductive Event where
  | hit (audio : Buffer)
  | miss
  | fallBack
  | saved
  | failed (message : String)
  | answer (a : Answer) (random : Nat)
  | wake (p : TTSProvider)
  | timeout (p : TTSProvider)

namespace Job

variable (C : CallConfig)

def setCall (job : Job) (p : TTSProvider) (c : Call) : Job := { job with calls := Function.update job.calls p (some c) }

/-- The `catch` blocks of `_generateWithFallback`, with what `_callProvider` has thrown. -/
def caught (job : Job) (err : CallError) : Job :=
  { job with phase :=
      match job.phase with
      | .primary =>
          if C.isConfigured job.spec.provider.fallback then .failed err
          else
            .error (match err with
              | .provider .. => err
              | .other message => .provider job.spec.provider message defaultStatusCode).message
      | .fallback primaryErr =>
          .error (CallError.provider job.spec.provider.fallback ("Both providers failed. Primary ("
            ++ job.spec.provider.name ++ "): " ++ primaryErr.message ++ ". Fallback ("
            ++ job.spec.provider.fallback.name ++ "): " ++ err.message) defaultStatusCode).message
      | phase => phase }

/-- The breaker rejects the call. -/
def reject (job : Job) (p : TTSProvider) (c : Call) (err : CallError) : Job × Signal :=
  ((job.setCall p { c with fire := .rejected }).caught C (fireBreaker p err), .recorded p !(errorFilter err))

/-- The action of the breaker ends; where the call has been rejected, nobody hears of it. -/
def finish (job : Job) (p : TTSProvider) (c : Call) (result : Except CallError Buffer) : Job × Signal :=
  match c.fire, result with
  | .pending, .ok audio =>
      ({ job.setCall p { c with loop := .returned, fire := .fulfilled } with phase := .saving audio },
        .recorded p false)
  | .pending, .error err => job.reject C p { c with loop := .returned } err
  | _, _ => (job.setCall p { c with loop := .returned }, .none)

/-- `_callProvider`, up to the first request. -/
def callProvider (admitted : Bool) (now : Nat) (job : Job) (p : TTSProvider) : Job × Signal :=
  if C.isConfigured p then
    if admitted then (job.setCall p ⟨now, .requesting 0 now, .pending, 1⟩, .fired p)
    else ((job.setCall p ⟨now, .returned, .rejected, 0⟩).caught C (fireBreaker p openError), .fired p)
  else
    (job.caught C (.provider p (match p with
      | .elevenlabs => "ElevenLabs config missing"
      | .google => "Google TTS config missing") defaultStatusCode), .none)

/-- An event that the job does not wait for is none. -/
def step (admits : TTSProvider → Bool) (now : Nat) (job : Job) : Event → Job × Signal
  | .hit audio =>
      match job.phase with
      | .preparing => if job.spec.bypassCache then (job, .none) else ({ job with phase := .saving audio }, .none)
      | _ => (job, .none)
  | .miss =>
      match job.phase with
      | .preparing => { job with phase := .primary }.callProvider C (admits job.spec.provider) now job.spec.provider
      | _ => (job, .none)
  | .fallBack =>
      match job.phase with
      | .failed primaryErr =>
          { job with phase := .fallback primaryErr }.callProvider C (admits job.spec.provider.fallback) now
            job.spec.provider.fallback
      | _ => (job, .none)
  | .saved =>
      match job.phase with
      | .saving _ => ({ job with phase := .done }, .none)
      | _ => (job, .none)
  | .failed message =>
      match job.phase with
      -- the job can still fail when it is done: the shared store does not take it
      | .preparing | .saving _ | .done => ({ job with phase := .error message }, .none)
      | _ => (job, .none)
  | .answer a random =>
      match job.calls a.provider with
      | some c =>
          match c.loop with
          | .requesting n _ =>
              match withRetry C.retry n random (a.result C.timeoutMs) with
              | .sleeps ms => (job.setCall a.provider { c with loop := .backingOff n (now + ms) }, .none)
              | .returns result => job.finish C a.provider c result
          | _ => (job, .none)
      | none => (job, .none)
  | .wake p =>
      match job.calls p with
      | some c =>
          match c.loop with
          | .backingOff n wakeAt =>
              if wakeAt ≤ now then
                (job.setCall p { c with loop := .requesting (n + 1) now, requests := c.requests + 1 }, .none)
              else (job, .none)
          | _ => (job, .none)
      | none => (job, .none)
  | .timeout p =>
      match job.calls p with
      | some c =>
          if c.fire = .pending ∧ c.firedAt + C.timeoutMs ≤ now then job.reject C p c (timedOut C.timeoutMs)
          else (job, .none)
      | none => (job, .none)

end Job

/-! ## §4. The service. -/

structure System (O : Opossum) where
  now : Nat
  breakers : TTSProvider → O.State
  failures : TTSProvider → Nat
  jobs : List Job

inductive Action where
  | enqueue (spec : JobSpec)
  | job (j : Nat) (e : Event)
  | tick (ms : Nat)

/-- No deadline of the call is before `t`. -/
def Call.onTime (timeoutMs t : Nat) (c : Call) : Bool :=
  (match c.loop with
    | .requesting _ startedAt => t ≤ startedAt + timeoutMs
    | _ => true)
  && (c.fire ≠ .pending || t ≤ c.firedAt + timeoutMs)

def Job.onTime (timeoutMs t : Nat) (job : Job) : Bool :=
  [.elevenlabs, .google].all fun p => (job.calls p).all (·.onTime timeoutMs t)

namespace System

variable {O : Opossum} (C : CallConfig)

/-- `_initCircuitBreakers`. -/
def init : System O := ⟨0, fun _ => O.initial, fun _ => 0, []⟩

/-- The breaker hears of an event. -/
def hear (s : System O) : Signal → System O
  | .none => s
  | .fired p => { s with breakers := Function.update s.breakers p (O.fired (s.breakers p)) }
  | .recorded p failure =>
      { s with
        breakers := Function.update s.breakers p (O.record (s.breakers p) failure)
        failures := if failure then Function.update s.failures p (s.failures p + 1) else s.failures }

def admits (s : System O) (p : TTSProvider) : Bool := O.admits (s.breakers p)

def step (s : System O) : Action → System O
  | .enqueue spec => { s with jobs := s.jobs ++ [⟨spec, .preparing, fun _ => none⟩] }
  | .job j e =>
      match s.jobs[j]? with
      | some job =>
          let r := job.step C s.admits s.now e
          { s with jobs := s.jobs.set j r.1 }.hear r.2
      | none => s
  | .tick ms =>
      if s.jobs.all (·.onTime C.timeoutMs (s.now + ms)) then
        { s with now := s.now + ms, breakers := fun p => O.elapse (s.breakers p) ms }
      else s

/-- The state after a list of actions. -/
def after (actions : List Action) : System O := Foundation.run (step C) init actions

def call (s : System O) (j : Nat) (p : TTSProvider) : Option Call := s.jobs[j]?.bind (·.calls p)

/-- The requests that the job has sent to the provider. -/
def requests (s : System O) (j : Nat) (p : TTSProvider) : Nat := (s.call j p).elim 0 Call.requests

end System

/-! ## §5. What an event does to a call. -/

theorem fallback_ne (p : TTSProvider) : p.fallback ≠ p := by cases p <;> nofun

/-- What becomes of the promise when the action of the breaker ends. -/
def Fire.settle : Fire → Except CallError Buffer → Fire
  | .pending, .ok _ => .fulfilled
  | .pending, .error _ => .rejected
  | fire, _ => fire

/-- How a call can change: its request is answered, and the loop sleeps or
returns; a sleep is over; the breaker's timer fires. -/
inductive Call.Moves (C : CallConfig) (now : Nat) (c : Call) : Event → TTSProvider → Call → Prop
  | sleeps {a : Answer} {random n startedAt ms : Nat} : c.loop = .requesting n startedAt →
      withRetry C.retry n random (a.result C.timeoutMs) = .sleeps ms →
      Moves C now c (.answer a random) a.provider { c with loop := .backingOff n (now + ms) }
  | returns {a : Answer} {random n startedAt : Nat} {result : Except CallError Buffer} :
      c.loop = .requesting n startedAt → withRetry C.retry n random (a.result C.timeoutMs) = .returns result →
      Moves C now c (.answer a random) a.provider { c with loop := .returned, fire := c.fire.settle result }
  | wakes {p : TTSProvider} {n wakeAt : Nat} : c.loop = .backingOff n wakeAt → wakeAt ≤ now →
      Moves C now c (.wake p) p { c with loop := .requesting (n + 1) now, requests := c.requests + 1 }
  | timesOut {p : TTSProvider} : c.fire = .pending → c.firedAt + C.timeoutMs ≤ now →
      Moves C now c (.timeout p) p { c with fire := .rejected }

namespace Job

variable {C : CallConfig} {admits : TTSProvider → Bool} {now : Nat} {job : Job} {e : Event} {p q : TTSProvider}
  {c : Call}

@[simp] theorem setCall_self (job : Job) (p : TTSProvider) (c : Call) : (job.setCall p c).calls p = some c :=
  Function.update_self ..

theorem setCall_other (h : q ≠ p) (job : Job) (c : Call) : (job.setCall p c).calls q = job.calls q :=
  Function.update_of_ne h ..

/-- A call is the one that was set, or was there before. -/
theorem of_setCall {d : Call} (h : (job.setCall p c).calls q = some d) :
    q = p ∧ d = c ∨ q ≠ p ∧ job.calls q = some d := by
  by_cases hq : q = p
  · subst hq
    rw [setCall_self] at h
    exact .inl ⟨rfl, (Option.some.inj h).symm⟩
  · rw [setCall_other hq] at h
    exact .inr ⟨hq, h⟩

@[simp] theorem setCall_phase (job : Job) (p : TTSProvider) (c : Call) : (job.setCall p c).phase = job.phase := rfl

@[simp] theorem setCall_spec (job : Job) (p : TTSProvider) (c : Call) : (job.setCall p c).spec = job.spec := rfl

@[simp] theorem caught_calls (job : Job) (err : CallError) : (job.caught C err).calls = job.calls := rfl

@[simp] theorem caught_spec (job : Job) (err : CallError) : (job.caught C err).spec = job.spec := rfl

theorem reject_calls (job : Job) (p : TTSProvider) (c : Call) (err : CallError) :
    (job.reject C p c err).1.calls = (job.setCall p { c with fire := .rejected }).calls := rfl

theorem finish_calls (job : Job) (p : TTSProvider) (c : Call) (result : Except CallError Buffer) :
    (job.finish C p c result).1.calls
      = (job.setCall p { c with loop := .returned, fire := c.fire.settle result }).calls := by
  unfold finish
  cases hfire : c.fire <;> cases result <;> rfl

/-- What an event does to its job, with what its breaker hears. -/
inductive Does (C : CallConfig) (admits : TTSProvider → Bool) (now : Nat) (job : Job) : Event → Job × Signal → Prop
  | stays {e : Event} : Does C admits now job e (job, .none)
  | hits {audio : Buffer} : job.phase = .preparing →
      Does C admits now job (.hit audio) ({ job with phase := .saving audio }, .none)
  | misses : job.phase = .preparing →
      Does C admits now job .miss
        ({ job with phase := .primary }.callProvider C (admits job.spec.provider) now job.spec.provider)
  | fallsBack {err : CallError} : job.phase = .failed err →
      Does C admits now job .fallBack
        ({ job with phase := .fallback err }.callProvider C (admits job.spec.provider.fallback) now
          job.spec.provider.fallback)
  | saves {audio : Buffer} : job.phase = .saving audio → Does C admits now job .saved ({ job with phase := .done }, .none)
  | fails {message : String} : job.phase = .preparing ∨ (∃ audio, job.phase = .saving audio) ∨ job.phase = .done →
      Does C admits now job (.failed message) ({ job with phase := .error message }, .none)
  | sleeps {a : Answer} {random n startedAt ms : Nat} {c : Call} : job.calls a.provider = some c →
      c.loop = .requesting n startedAt → withRetry C.retry n random (a.result C.timeoutMs) = .sleeps ms →
      Does C admits now job (.answer a random) (job.setCall a.provider { c with loop := .backingOff n (now + ms) }, .none)
  | returns {a : Answer} {random n startedAt : Nat} {c : Call} {result : Except CallError Buffer} :
      job.calls a.provider = some c → c.loop = .requesting n startedAt →
      withRetry C.retry n random (a.result C.timeoutMs) = .returns result →
      Does C admits now job (.answer a random) (job.finish C a.provider c result)
  | wakes {p : TTSProvider} {n wakeAt : Nat} {c : Call} : job.calls p = some c → c.loop = .backingOff n wakeAt →
      wakeAt ≤ now →
      Does C admits now job (.wake p)
        (job.setCall p { c with loop := .requesting (n + 1) now, requests := c.requests + 1 }, .none)
  | timesOut {p : TTSProvider} {c : Call} : job.calls p = some c → c.fire = .pending → c.firedAt + C.timeoutMs ≤ now →
      Does C admits now job (.timeout p) (job.reject C p c (timedOut C.timeoutMs))

theorem does_step (C : CallConfig) (admits : TTSProvider → Bool) (now : Nat) (job : Job) (e : Event) :
    job.Does C admits now e (job.step C admits now e) := by
  cases e with
  | hit audio =>
      simp only [step]
      split
      · next hphase =>
          split
          · exact .stays
          · exact .hits hphase
      · exact .stays
  | miss =>
      simp only [step]
      split
      · next hphase => exact .misses hphase
      · exact .stays
  | fallBack =>
      simp only [step]
      split
      · next err hphase => exact .fallsBack hphase
      · exact .stays
  | saved =>
      simp only [step]
      split
      · next audio hphase => exact .saves hphase
      · exact .stays
  | failed message =>
      simp only [step]
      split
      · next hphase => exact .fails (.inl hphase)
      · next audio hphase => exact .fails (.inr (.inl ⟨audio, hphase⟩))
      · next hphase => exact .fails (.inr (.inr hphase))
      · exact .stays
  | answer a random =>
      simp only [step]
      split
      · next c hcall =>
          split
          · next n startedAt hloop =>
              split
              · next ms hturn => exact .sleeps hcall hloop hturn
              · next result hturn => exact .returns hcall hloop hturn
          · exact .stays
      · exact .stays
  | wake p =>
      simp only [step]
      split
      · next c hcall =>
          split
          · next n wakeAt hloop =>
              split
              · next hdue => exact .wakes hcall hloop hdue
              · exact .stays
          · exact .stays
      · exact .stays
  | timeout p =>
      simp only [step]
      split
      · next c hcall =>
          split
          · next hdue => exact .timesOut hcall hdue.1 hdue.2
          · exact .stays
      · exact .stays

/-- The job begins to call a provider. -/
def Begins (job : Job) (e : Event) (p : TTSProvider) : Prop :=
  e = .miss ∧ job.phase = .preparing ∧ p = job.spec.provider
    ∨ e = .fallBack ∧ (∃ err, job.phase = .failed err) ∧ p = job.spec.provider.fallback

/-- The ways in which an event can touch the call to `p`. -/
inductive Touches (C : CallConfig) (now : Nat) (job : Job) (e : Event) (p : TTSProvider) : Option Call → Prop
  | same : Touches C now job e p (job.calls p)
  | begins : job.Begins e p → Touches C now job e p (some ⟨now, .requesting 0 now, .pending, 1⟩)
  | refused : job.Begins e p → Touches C now job e p (some ⟨now, .returned, .rejected, 0⟩)
  | moves {c c' : Call} : job.calls p = some c → c.Moves C now e p c' → Touches C now job e p (some c')

theorem touches_setCall {c' : Call} (hcall : job.calls p = some c) (hmove : c.Moves C now e p c') (q : TTSProvider) :
    job.Touches C now e q ((job.setCall p c').calls q) := by
  by_cases h : q = p
  · subst h
    rw [setCall_self]
    exact .moves hcall hmove
  · rw [setCall_other h]
    exact .same

theorem touches_callProvider {phase : Phase} {admitted : Bool} (hbegins : job.Begins e p) (q : TTSProvider) :
    job.Touches C now e q (({ job with phase }.callProvider C admitted now p).1.calls q) := by
  unfold callProvider
  by_cases hconfigured : C.isConfigured p = true
  · rw [if_pos hconfigured]
    by_cases h : q = p
    · subst h
      cases admitted with
      | true => simpa using .begins hbegins
      | false => simpa using .refused hbegins
    · cases admitted <;> simpa [setCall_other h] using .same
  · rw [if_neg hconfigured]
    exact .same

/-- Every event touches a call in one of these ways. -/
theorem touches_of_does {r : Job × Signal} (hdoes : job.Does C admits now e r) (p : TTSProvider) :
    job.Touches C now e p (r.1.calls p) := by
  cases hdoes with
  | stays | hits | saves | fails => exact .same
  | misses hphase => exact touches_callProvider (.inl ⟨rfl, hphase, rfl⟩) p
  | fallsBack hphase => exact touches_callProvider (.inr ⟨rfl, ⟨_, hphase⟩, rfl⟩) p
  | sleeps hcall hloop hturn => exact touches_setCall hcall (.sleeps hloop hturn) p
  | returns hcall hloop hturn =>
      rw [finish_calls]
      exact touches_setCall hcall (.returns hloop hturn) p
  | wakes hcall hloop hdue => exact touches_setCall hcall (.wakes hloop hdue) p
  | timesOut hcall hpending hdue => exact touches_setCall hcall (.timesOut hpending hdue) p

theorem touches_step (C : CallConfig) (admits : TTSProvider → Bool) (now : Nat) (job : Job) (e : Event)
    (p : TTSProvider) : job.Touches C now e p ((job.step C admits now e).1.calls p) :=
  touches_of_does (job.does_step C admits now e) p

end Job

/-! ## §6. What holds of every job. -/

/-- The attempts that the loop has made are counted, and are no more than the
retries allow; a call whose promise is fulfilled is over, and one that is over
is not pending. -/
structure Call.Inv (C : CallConfig) (c : Call) : Prop where
  requesting : ∀ n startedAt, c.loop = .requesting n startedAt → c.requests = n + 1 ∧ n ≤ C.retry.maxRetries
  backingOff : ∀ n wakeAt, c.loop = .backingOff n wakeAt → c.requests = n + 1 ∧ n < C.retry.maxRetries
  bounded : c.requests ≤ C.retry.maxRetries + 1
  returned : c.loop = .returned → c.fire ≠ .pending
  fulfilled : c.fire = .fulfilled → c.loop = .returned

section Calls

variable {C : CallConfig} {now : Nat} {c c' : Call} {e : Event} {p : TTSProvider}

theorem Call.inv_begun (C : CallConfig) (now : Nat) : Call.Inv C ⟨now, .requesting 0 now, .pending, 1⟩ where
  requesting n startedAt h := by
    obtain ⟨rfl, -⟩ := Loop.requesting.inj h
    exact ⟨rfl, Nat.zero_le _⟩
  backingOff := nofun
  bounded := by simp
  returned := nofun
  fulfilled := nofun

theorem Call.inv_refused (C : CallConfig) (now : Nat) : Call.Inv C ⟨now, .returned, .rejected, 0⟩ :=
  ⟨nofun, nofun, by simp, nofun, fun _ => rfl⟩

theorem withRetry_sleeps {retry : RetryConfig} {n random ms : Nat} {result : Except CallError Buffer}
    (h : withRetry retry n random result = .sleeps ms) :
    (∃ err, result = .error err ∧ isRetryable err = true) ∧ n ≠ retry.maxRetries
      ∧ ms = backoffDelay n retry.maxDelayMs random := by
  cases result with
  | ok audio => cases h
  | error err =>
      simp only [withRetry] at h
      split at h
      · cases h
      · next hagain =>
          have hboth : isRetryable err = true ∧ n ≠ retry.maxRetries := by simpa using hagain
          exact ⟨⟨err, rfl, hboth.1⟩, hboth.2, (Turn.sleeps.inj h).symm⟩

theorem withRetry_returns {retry : RetryConfig} {n random : Nat} {result result' : Except CallError Buffer}
    (h : withRetry retry n random result = .returns result') : result' = result := by
  cases result with
  | ok audio => exact (Turn.returns.inj h).symm
  | error err =>
      simp only [withRetry] at h
      split at h
      · exact (Turn.returns.inj h).symm
      · cases h

/-- A promise that the end of the action leaves pending there is none. -/
theorem Fire.settle_ne_pending (fire : Fire) (result : Except CallError Buffer) : fire.settle result ≠ .pending := by
  cases fire <;> cases result <;> nofun

theorem Call.Inv.moves (hinv : c.Inv C) (h : c.Moves C now e p c') : c'.Inv C := by
  cases h with
  | @sleeps a random n startedAt ms hloop hturn =>
      obtain ⟨hcount, hle⟩ := hinv.requesting n startedAt hloop
      refine ⟨nofun, ?_, hinv.bounded, nofun, ?_⟩
      · intro n' wakeAt h
        obtain ⟨rfl, -⟩ := Loop.backingOff.inj h
        -- the loop has not made its last attempt
        exact ⟨hcount, Nat.lt_of_le_of_ne hle (withRetry_sleeps hturn).2.1⟩
      · intro hfulfilled
        have := hinv.fulfilled hfulfilled
        simp [hloop] at this
  | returns => exact ⟨nofun, nofun, hinv.bounded, fun _ => Fire.settle_ne_pending _ _, fun _ => rfl⟩
  | @wakes p n wakeAt hloop hdue =>
      obtain ⟨hcount, hlt⟩ := hinv.backingOff n wakeAt hloop
      refine ⟨?_, nofun, ?_, nofun, ?_⟩
      · intro n' startedAt h
        obtain ⟨rfl, -⟩ := Loop.requesting.inj h
        exact ⟨by simp [hcount], hlt⟩
      · show c.requests + 1 ≤ _
        omega
      · intro hfulfilled
        have := hinv.fulfilled hfulfilled
        simp [hloop] at this
  | timesOut hpending => exact ⟨hinv.requesting, hinv.backingOff, hinv.bounded, nofun, nofun⟩

end Calls

namespace Job

variable {C : CallConfig} {admits : TTSProvider → Bool} {now : Nat} {job : Job} {e : Event} {p q : TTSProvider}
  {c c' : Call}

/-- The job waits for its call to `p`. -/
def Awaits (job : Job) (p : TTSProvider) : Prop :=
  job.phase = .primary ∧ p = job.spec.provider
    ∨ (∃ err, job.phase = .fallback err) ∧ p = job.spec.provider.fallback

/-- A call is not made before its time, and its job waits while it is pending. -/
structure Inv (C : CallConfig) (job : Job) : Prop where
  early : job.phase = .preparing → ∀ p, job.calls p = none
  first : (job.phase = .primary ∨ ∃ err, job.phase = .failed err) → job.calls job.spec.provider.fallback = none
  waits : ∀ p c, job.calls p = some c → c.fire = .pending → job.Awaits p
  call : ∀ p c, job.calls p = some c → c.Inv C

/-- No promise of the job is pending. -/
def Silent (job : Job) : Prop := ∀ p c, job.calls p = some c → c.fire ≠ .pending

theorem Awaits.unique (hp : job.Awaits p) (hq : job.Awaits q) : q = p := by
  obtain ⟨hphase, rfl⟩ | ⟨⟨err, hphase⟩, rfl⟩ := hp
  all_goals
    obtain ⟨hphase', rfl⟩ | ⟨⟨err', hphase'⟩, rfl⟩ := hq
    · simp_all
    · simp_all

theorem Inv.silent (hinv : job.Inv C) (h : ∀ p, ¬ job.Awaits p) : job.Silent :=
  fun p c hcall hpending => h p (hinv.waits p c hcall hpending)

/-- A provider is not called twice. -/
theorem Inv.not_begins (hinv : job.Inv C) (hcall : job.calls p = some c) : ¬ job.Begins e p := by
  rintro (⟨-, hphase, rfl⟩ | ⟨-, ⟨err, hphase⟩, rfl⟩)
  · simp [hinv.early hphase] at hcall
  · simp [hinv.first (.inr ⟨err, hphase⟩)] at hcall

/-- With no promise pending, a job may go where it begins no call anew. -/
theorem Inv.goTo (hinv : job.Inv C) (hsilent : job.Silent) {phase : Phase} (hearly : phase ≠ .preparing)
    (hfirst : (phase = .primary ∨ ∃ err, phase = .failed err) → job.calls job.spec.provider.fallback = none) :
    { job with phase }.Inv C :=
  ⟨fun h => absurd h hearly, hfirst, fun p c hcall hpending => absurd hpending (hsilent p c hcall), hinv.call⟩

theorem Inv.caught (hinv : job.Inv C) (hsilent : job.Silent) (err : CallError) : (job.caught C err).Inv C := by
  unfold Job.caught
  cases hphase : job.phase with
  | primary =>
      refine hinv.goTo hsilent ?_ fun _ => hinv.first (.inl hphase)
      dsimp only
      split <;> nofun
  | fallback primaryErr =>
      refine hinv.goTo hsilent nofun ?_
      rintro (h | ⟨err, h⟩) <;> cases h
  | preparing | failed primaryErr | saving audio | done | error message => simpa only [← hphase] using hinv

/-- A call moves, and its job stays. -/
theorem Inv.setCall (hinv : job.Inv C) (hcall : job.calls p = some c) (hc' : c'.Inv C)
    (hpending : c'.fire = .pending → c.fire = .pending) : (job.setCall p c').Inv C := by
  -- a provider that has not been called yet is another one
  have hnone : ∀ q, job.calls q = none → (job.setCall p c').calls q = none := by
    intro q hq
    have hne : q ≠ p := by
      rintro rfl
      simp [hcall] at hq
    rw [setCall_other hne, hq]
  refine ⟨fun h q => hnone q (hinv.early h q), fun h => hnone _ (hinv.first h), ?_, ?_⟩
  · intro q d hd hq
    obtain ⟨rfl, rfl⟩ | ⟨-, hd⟩ := of_setCall hd
    · exact hinv.waits q c hcall (hpending hq)
    · exact hinv.waits q d hd hq
  · intro q d hd
    obtain ⟨rfl, rfl⟩ | ⟨-, hd⟩ := of_setCall hd
    · exact hc'
    · exact hinv.call q d hd

/-- When the promise that a job waits for is settled, none is pending. -/
theorem Inv.silent_setCall (hinv : job.Inv C) (hcall : job.calls p = some c) (hpending : c.fire = .pending)
    (hc' : c'.fire ≠ .pending) : (job.setCall p c').Silent := by
  intro q d hd hq
  obtain ⟨rfl, rfl⟩ | ⟨hne, hd⟩ := of_setCall hd
  · exact hc' hq
  · exact hne ((hinv.waits p c hcall hpending).unique (hinv.waits q d hd hq))

theorem Inv.reject (hinv : job.Inv C) (hcall : job.calls p = some c) (hpending : c.fire = .pending) (err : CallError)
    (hc' : Call.Inv C { c' with fire := .rejected }) : (job.reject C p c' err).1.Inv C :=
  (hinv.setCall hcall hc' nofun).caught (hinv.silent_setCall hcall hpending nofun) _

theorem Inv.finish (hinv : job.Inv C) (hcall : job.calls p = some c) (result : Except CallError Buffer)
    (hc' : Call.Inv C { c with loop := .returned, fire := c.fire.settle result }) :
    (job.finish C p c result).1.Inv C := by
  unfold Job.finish
  cases hfire : c.fire with
  | pending =>
      rw [hfire] at hc'
      cases result with
      | ok audio =>
          refine (hinv.setCall hcall hc' nofun).goTo (hinv.silent_setCall hcall hfire nofun) nofun ?_
          rintro (h | ⟨err, h⟩) <;> cases h
      | error err => exact hinv.reject hcall hfire err hc'
  | fulfilled | rejected =>
      rw [hfire] at hc'
      exact hinv.setCall hcall hc' nofun

/-- A provider is called that has not been called yet. -/
theorem Inv.callProvider (hcalls : ∀ q c, job.calls q = some c → c.Inv C ∧ c.fire ≠ .pending)
    (hphase : job.phase ≠ .preparing) (hawaits : job.Awaits p)
    (hfirst : (job.phase = .primary ∨ ∃ err, job.phase = .failed err) →
      p ≠ job.spec.provider.fallback ∧ job.calls job.spec.provider.fallback = none)
    (admitted : Bool) (now : Nat) : (job.callProvider C admitted now p).1.Inv C := by
  have hinv : job.Inv C :=
    ⟨fun h => absurd h hphase, fun h => (hfirst h).2, fun q c hq h => absurd h (hcalls q c hq).2,
      fun q c hq => (hcalls q c hq).1⟩
  -- the call that is made, and what is then known of the job
  have hmade : ∀ c', c'.Inv C → (job.setCall p c').Inv C := by
    intro c' hc'
    refine ⟨fun h => absurd h hphase, fun h => ?_, ?_, ?_⟩
    · exact (setCall_other (hfirst h).1.symm job c').trans (hfirst h).2
    · intro q d hd hq
      obtain ⟨rfl, -⟩ | ⟨-, hd⟩ := of_setCall hd
      · exact hawaits
      · exact absurd hq (hcalls q d hd).2
    · intro q d hd
      obtain ⟨-, rfl⟩ | ⟨-, hd⟩ := of_setCall hd
      · exact hc'
      · exact hinv.call q d hd
  unfold Job.callProvider
  split
  · split
    · exact hmade _ (Call.inv_begun C now)
    · refine (hmade _ (Call.inv_refused C now)).caught ?_ _
      intro q d hd
      obtain ⟨-, rfl⟩ | ⟨-, hd⟩ := of_setCall hd
      · nofun
      · exact (hcalls q d hd).2
  · exact hinv.caught (fun q c hq => (hcalls q c hq).2) _

/-- A job that is neither waiting nor about to call again may end up with audio, done or in error. -/
theorem Inv.settle (hinv : job.Inv C) (hphase : ∀ p, ¬ job.Awaits p) {phase : Phase} (hearly : phase ≠ .preparing)
    (hprimary : phase ≠ .primary) (hfailed : ∀ err, phase ≠ .failed err) : { job with phase }.Inv C := by
  refine hinv.goTo (hinv.silent hphase) hearly ?_
  rintro (h | ⟨err, h⟩)
  · exact absurd h hprimary
  · exact absurd h (hfailed err)

theorem not_awaits {job : Job} (hprimary : job.phase ≠ .primary) (hfallback : ∀ err, job.phase ≠ .fallback err)
    (p : TTSProvider) : ¬ job.Awaits p := by
  rintro (⟨h, -⟩ | ⟨⟨err, h⟩, -⟩)
  · exact hprimary h
  · exact hfallback err h

theorem Inv.after {r : Job × Signal} (hinv : job.Inv C) (hdoes : job.Does C admits now e r) : r.1.Inv C := by
  cases hdoes with
  | stays => exact hinv
  | hits hphase | saves hphase =>
      exact hinv.settle (not_awaits (by simp [hphase]) (by simp [hphase])) nofun nofun nofun
  | fails hphase =>
      obtain hphase | ⟨audio, hphase⟩ | hphase := hphase
      all_goals exact hinv.settle (not_awaits (by simp [hphase]) (by simp [hphase])) nofun nofun nofun
  | misses hphase =>
      have hnone := hinv.early hphase
      apply Inv.callProvider
      · simp [hnone]
      · nofun
      · exact .inl ⟨rfl, rfl⟩
      · exact fun _ => ⟨(fallback_ne _).symm, hnone _⟩
  | fallsBack hphase =>
      -- the primary call is over, and there is no other
      have hsilent := hinv.silent (not_awaits (by simp [hphase]) (by simp [hphase]))
      apply Inv.callProvider
      · exact fun q c hq => ⟨hinv.call q c hq, hsilent q c hq⟩
      · nofun
      · exact .inr ⟨⟨_, rfl⟩, rfl⟩
      · rintro (h | ⟨err, h⟩) <;> cases h
  | @sleeps a random n startedAt ms c hcall hloop hturn =>
      have hmoves : c.Moves C now (.answer a random) a.provider _ := .sleeps hloop hturn
      exact hinv.setCall hcall ((hinv.call _ c hcall).moves hmoves) id
  | @returns a random n startedAt c result hcall hloop hturn =>
      have hmoves : c.Moves C now (.answer a random) a.provider _ := .returns hloop hturn
      exact hinv.finish hcall result ((hinv.call _ c hcall).moves hmoves)
  | @wakes p n wakeAt c hcall hloop hdue =>
      have hmoves : c.Moves C now (.wake p) p _ := .wakes hloop hdue
      exact hinv.setCall hcall ((hinv.call _ c hcall).moves hmoves) id
  | @timesOut p c hcall hpending hdue =>
      have hmoves : c.Moves C now (.timeout p) p _ := .timesOut hpending hdue
      exact hinv.reject hcall hpending _ ((hinv.call _ c hcall).moves hmoves)

theorem Inv.step (hinv : job.Inv C) (admits : TTSProvider → Bool) (now : Nat) (e : Event) :
    (job.step C admits now e).1.Inv C := hinv.after (job.does_step C admits now e)

end Job

/-! ## §7. Runs of the service. -/

namespace System

variable {O : Opossum} {C : CallConfig} {s : System O} {a : Action} {j : Nat} {p : TTSProvider} {job job' : Job}

@[simp] theorem hear_jobs (s : System O) (signal : Signal) : (s.hear signal).jobs = s.jobs := by cases signal <;> rfl

@[simp] theorem hear_now (s : System O) (signal : Signal) : (s.hear signal).now = s.now := by cases signal <;> rfl

theorem step_job {e : Event} (hjob : s.jobs[j]? = some job) :
    s.step C (.job j e)
      = { s with jobs := s.jobs.set j (job.step C s.admits s.now e).1 }.hear (job.step C s.admits s.now e).2 := by
  simp only [step, hjob]

theorem getElem?_lt (hjob : s.jobs[j]? = some job) : j < s.jobs.length := (List.getElem?_eq_some_iff.mp hjob).1

/-- A job that is there stays there, and changes by its own events. -/
theorem jobs_step (C : CallConfig) (hjob : s.jobs[j]? = some job) (a : Action) :
    (∀ e, a ≠ .job j e) ∧ (s.step C a).jobs[j]? = some job
      ∨ ∃ e, a = .job j e ∧ (s.step C a).jobs[j]? = some (job.step C s.admits s.now e).1 := by
  cases a with
  | enqueue spec =>
      refine .inl ⟨nofun, ?_⟩
      exact (List.getElem?_append_left (getElem?_lt hjob)).trans hjob
  | tick ms =>
      refine .inl ⟨nofun, ?_⟩
      simp only [step]
      split <;> exact hjob
  | job j' e =>
      by_cases h : j' = j
      · subst h
        refine .inr ⟨e, rfl, ?_⟩
        rw [step_job hjob, hear_jobs]
        exact List.getElem?_set_self (getElem?_lt hjob)
      · refine .inl ⟨fun e' he => h (Action.job.inj he).1, ?_⟩
        cases hjob' : s.jobs[j']? with
        | none => simpa only [step, hjob'] using hjob
        | some other =>
            rw [step_job hjob', hear_jobs]
            exact (List.getElem?_set_ne h).trans hjob

/-- A job is new, or was there before. -/
theorem jobs_of_step (hjob : (s.step C a).jobs[j]? = some job) :
    s.jobs[j]? = none ∧ (∃ spec, job = ⟨spec, .preparing, fun _ => none⟩) ∨ ∃ job, s.jobs[j]? = some job := by
  cases hbefore : s.jobs[j]? with
  | some before => exact .inr ⟨before, rfl⟩
  | none =>
      have hlen := List.getElem?_eq_none_iff.mp hbefore
      refine .inl ⟨rfl, ?_⟩
      cases a with
      | enqueue spec =>
          have hmem : (s.jobs ++ [⟨spec, .preparing, fun _ => none⟩])[j]? = some job := hjob
          rw [List.getElem?_append_right hlen] at hmem
          exact ⟨spec, (List.mem_singleton.mp (List.mem_of_getElem? hmem))⟩
      | tick ms =>
          simp only [step] at hjob
          split at hjob <;> simp [hbefore] at hjob
      | job j' e =>
          cases hjob' : s.jobs[j']? with
          | none => simp [step, hjob', hbefore] at hjob
          | some other =>
              rw [step_job hjob', hear_jobs, List.getElem?_eq_none (by simpa using hlen)] at hjob
              cases hjob

/-- A property of jobs that new ones have and events keep holds of all. -/
theorem forall_jobs_step {P : Job → Prop} (hnew : ∀ spec, P ⟨spec, .preparing, fun _ => none⟩)
    (hold : ∀ (j : Nat) (job : Job), s.jobs[j]? = some job → P job)
    (hevent : ∀ (j : Nat) (e : Event) (job : Job), a = .job j e → s.jobs[j]? = some job →
      P (job.step C s.admits s.now e).1)
    (j : Nat) (job : Job) (hjob : (s.step C a).jobs[j]? = some job) : P job := by
  obtain ⟨-, spec, rfl⟩ | ⟨before, hbefore⟩ := jobs_of_step hjob
  · exact hnew spec
  · obtain ⟨-, hsame⟩ | ⟨e, rfl, hstep⟩ := jobs_step C hbefore a
    · obtain rfl := Option.some.inj (hsame.symm.trans hjob)
      exact hold j before hbefore
    · obtain rfl := Option.some.inj (hstep.symm.trans hjob)
      exact hevent j e before rfl hbefore

theorem Job.inv_new (C : CallConfig) (spec : JobSpec) : Job.Inv C ⟨spec, .preparing, fun _ => none⟩ :=
  ⟨fun _ _ => rfl, fun _ => rfl, nofun, nofun⟩

def Inv (C : CallConfig) (s : System O) : Prop := ∀ (j : Nat) (job : Job), s.jobs[j]? = some job → job.Inv C

theorem inv_init : (init : System O).Inv C := fun j job h => by simp [init] at h

theorem Inv.step (hinv : s.Inv C) (a : Action) : (s.step C a).Inv C :=
  forall_jobs_step (Job.inv_new C) hinv fun j e job _ hjob => (hinv j job hjob).step s.admits s.now e

theorem Inv.run (hinv : s.Inv C) (actions : List Action) : (Foundation.run (System.step C) s actions).Inv C :=
  run_invariant_of (System.step C) (System.Inv C) (fun _ => True) hinv (fun _ a h _ => h.step a) actions
    fun _ _ => trivial

theorem inv_after (actions : List Action) : (after C actions : System O).Inv C := inv_init.run actions

theorem call_eq (hjob : s.jobs[j]? = some job) (p : TTSProvider) : s.call j p = job.calls p := by simp [call, hjob]

theorem exists_job {c : Call} (hcall : s.call j p = some c) : ∃ job, s.jobs[j]? = some job ∧ job.calls p = some c :=
  Option.bind_eq_some_iff.mp hcall

theorem call_job {e : Event} (hjob : s.jobs[j]? = some job) (p : TTSProvider) :
    (s.step C (.job j e)).call j p = (job.step C s.admits s.now e).1.calls p := by
  rw [step_job hjob]
  simp [call, List.getElem?_set_self (getElem?_lt hjob)]

/-- A call is left alone, or an event of its job touches it. -/
theorem call_step (C : CallConfig) (s : System O) (a : Action) (j : Nat) (p : TTSProvider) :
    (s.step C a).call j p = s.call j p
      ∨ ∃ e job, a = .job j e ∧ s.jobs[j]? = some job ∧ job.Touches C s.now e p ((s.step C a).call j p) := by
  cases hjob : s.jobs[j]? with
  | none =>
      left
      have hbefore : s.call j p = none := by simp [call, hjob]
      rw [hbefore]
      cases hafter : (s.step C a).jobs[j]? with
      | none => simp [call, hafter]
      | some job =>
          obtain ⟨-, spec, rfl⟩ | ⟨job, hjob'⟩ := jobs_of_step hafter
          · exact call_eq hafter p
          · simp [hjob] at hjob'
  | some job =>
      obtain ⟨-, hsame⟩ | ⟨e, rfl, hstep⟩ := jobs_step C hjob a
      · exact .inl ((call_eq hsame p).trans (call_eq hjob p).symm)
      · refine .inr ⟨e, job, rfl, rfl, ?_⟩
        rw [call_eq hstep]
        exact job.touches_step C s.admits s.now e p

/-- However the providers answer, a job sends each of them at most one request more than it may retry. -/
theorem requests_le (actions : List Action) (j : Nat) (p : TTSProvider) :
    (after C actions : System O).requests j p ≤ C.retry.maxRetries + 1 := by
  unfold requests
  cases hcall : (after C actions : System O).call j p with
  | none => exact Nat.zero_le _
  | some c =>
      obtain ⟨job, hjob, hc⟩ := exists_job hcall
      exact ((inv_after actions j job hjob).call p c hc).bounded

end System

end PredictIQ.Tts.ProviderCalls
