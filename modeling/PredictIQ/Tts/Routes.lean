/-
  PredictIQ.Tts.Routes: the HTTP routes of the TTS server.

  The handlers hand the fields of a request to the service by position and read
  the fields of its jobs by name; the bodies are untyped, so that nothing
  objects to a wrong place or a wrong name.  `enqueue` and `getJob` are the
  service as far as the routes see it: every change that a background task
  makes to a job is one event here.

  `delivers_iff` says which runs deliver audio as documented: those in which
  nobody with a valid credential asks for any, and nobody without one calls
  from an address that is a valid credential.
-/
import PredictIQ.Foundation.Run
import PredictIQ.Tts.Service

namespace PredictIQ.Tts.Routes

open Foundation

/-! ## §1. The service behind the routes. -/

/-- What a call passes as a voice: a voice, or a string. -/
inductive VoiceArg where
  | voice (voice : TTSVoice)
  | text (value : String)
  deriving DecidableEq

structure Job where
  id : String
  text : String
  voice : VoiceArg
  provider : TTSProvider
  status : JobStatus
  outputPath : Option String
  error : Option String
  owner : String
  deriving DecidableEq

/-- An `AuthError`, or an error that the routes do not tell apart from others. -/
inductive ServiceError where
  | auth (message : String)
  | other (message : String)
  deriving DecidableEq

/-- The keys of `TTS_API_KEY`, where it is set. -/
structure Config where
  provider : TTSProvider
  outputDir : String
  keys : Option (List String)

structure ServerState where
  jobStore : Store String Job
  files : Store String Buffer

def ANONYMOUS_OWNER : String := "anonymous"

def VOICES : String → Option TTSVoice
  | "el-rachel-en" => some ⟨"21m00Tcm4TlvDq8ikWAM", "en-US", "Rachel (EN)"⟩
  | "el-adam-en" => some ⟨"pNInz6obpgDQGcFmaJgB", "en-US", "Adam (EN)"⟩
  | "el-bella-en" => some ⟨"EXAVITQu4vr4xnSDxMaL", "en-US", "Bella (EN)"⟩
  | "gcp-en-us-f" => some ⟨"en-US-Neural2-F", "en-US", "Google EN-F"⟩
  | "gcp-es-es-f" => some ⟨"es-ES-Neural2-A", "es-ES", "Google ES-F"⟩
  | "gcp-fr-fr-f" => some ⟨"fr-FR-Neural2-A", "fr-FR", "Google FR-F"⟩
  | "gcp-de-de-f" => some ⟨"de-DE-Neural2-F", "de-DE", "Google DE-F"⟩
  | _ => none

/-- `Buffer.from`, filled up with zeros to a length. -/
def padded (len : Nat) (s : String) : List UInt8 :=
  let bytes := s.toList.flatMap String.utf8EncodeChar
  bytes ++ List.replicate (len - bytes.length) 0

/-- `timingSafeEqual` of two strings, filled up to one length. -/
def paddedEqual (s s' : String) : Bool :=
  let len := max (padded 0 s).length (padded 0 s').length
  padded len s == padded len s'

/-- `authenticate` with API keys: the owner is the credential itself. -/
def authenticate (credential : Option String) (keys : List String) : Except ServiceError String :=
  match credential with
  | none | some "" => .error (.auth "Missing credential")
  | some credential =>
      if keys.any (paddedEqual credential) then .ok credential else .error (.auth "Invalid API key")

/-- `_resolveOwner`. -/
def resolveOwner (cfg : Config) (credential : Option String) : Except ServiceError String :=
  match cfg.keys with
  | none => .ok ANONYMOUS_OWNER
  | some keys => authenticate credential keys

def sanitize (text : String) : Except ServiceError String := (sanitizeInput text).mapError fun e => .other e.message

/-- `_createJob`. -/
def createJob (cfg : Config) (id text : String) (voice : VoiceArg) (provider : Option TTSProvider) (owner : String) :
    Except ServiceError Job := do
  let sanitized ← sanitize text
  pure ⟨id, sanitized, voice, provider.getD cfg.provider, .pending, none, none, owner⟩

/-- `enqueue`, with the id that it draws. -/
def enqueue (cfg : Config) (s : ServerState) (newId text : String) (voice : VoiceArg) (provider : Option TTSProvider)
    (credential : Option String) : Except ServiceError (String × ServerState) := do
  let owner ← resolveOwner cfg credential
  let job ← createJob cfg newId text voice provider owner
  pure (job.id, { s with jobStore := s.jobStore.insert job.id job })

def getJob (cfg : Config) (s : ServerState) (id : String) (credential : Option String) : Except ServiceError (Option Job) := do
  let owner ← resolveOwner cfg credential
  pure ((s.jobStore.lookup id).filter fun job => job.owner == owner)

/-! ## §2. The routes. -/

/-- A documented body of `POST /tts/enqueue`. -/
structure EnqueueBody where
  text : String
  voiceId : String
  provider : Option TTSProvider

/-- `req.body.options`: a documented body has no such field. -/
def EnqueueBody.options (_ : EnqueueBody) : Option TTSProvider := none

/-- `job.audioPath`: a job has no such field. -/
def Job.audioPath (_ : Job) : Option String := none

inductive Route where
  | enqueue (body : EnqueueBody)
  | job (id : String)
  | audio (id : String)

/-- A request, with its bearer credential and the address that it comes from. -/
structure Request where
  credential : Option String
  ip : Option String
  route : Route

inductive Response where
  | accepted (id : String)
  | job (job : Job)
  | audio (file : Option Buffer)
  | error (status : Nat) (message : String)
  deriving DecidableEq

def Response.status : Response → Nat
  | .accepted _ => 202
  | .job _ | .audio _ => 200
  | .error status _ => status

def statusName : JobStatus → String
  | .pending => "pending"
  | .processing => "processing"
  | .done => "done"
  | .error => "error"

def providerErrorMessage : ServiceError → String
  | .auth message => message
  | .other _ => "Internal server error"

def errorStatus : ServiceError → Nat
  | .auth _ => 401
  | .other _ => 500

def sendError (error : ServiceError) : Response := .error (errorStatus error) (providerErrorMessage error)

section Server

variable (cfg : Config)

def postEnqueue (s : ServerState) (r : Request) (body : EnqueueBody) (newId : String) : Response × ServerState :=
  -- service.enqueue(text, voiceId, options, req.ip): the address stands where the credential belongs
  match enqueue cfg s newId body.text (.text body.voiceId) body.options r.ip with
  | .ok (id, s') => (.accepted id, s')
  | .error error => (sendError error, s)

def getJobRoute (s : ServerState) (id : String) : Response :=
  match getJob cfg s id none with
  | .ok (some job) => .job job
  | .ok none => .error 404 "Job not found"
  | .error error => sendError error

def getAudioRoute (s : ServerState) (id : String) : Response :=
  match getJob cfg s id none with
  | .ok (some job) =>
      match job.audioPath with
      | some path =>
          if statusName job.status = "completed" then .audio (s.files.lookup path)
          else .error 409 "Audio not available for this job"
      | none => .error 409 "Audio not available for this job"
  | .ok none => .error 404 "Job not found"
  | .error error => sendError error

def handle (s : ServerState) (r : Request) (newId : String) : Response × ServerState :=
  match r.route with
  | .enqueue body => postEnqueue cfg s r body newId
  | .job id => (getJobRoute cfg s id, s)
  | .audio id => (getAudioRoute cfg s id, s)

/-- What a background task does to its job. -/
inductive JobEvent where
  | processing
  | saved (buffer : Buffer)
  | failed (message : String)

def audioFile (id : String) : String := cfg.outputDir ++ "/" ++ id ++ ".mp3"

def progress (s : ServerState) (id : String) (event : JobEvent) : ServerState :=
  match s.jobStore.lookup id with
  | none => s
  | some job =>
      match event, job.status with
      | .processing, .pending => { s with jobStore := s.jobStore.insert id { job with status := .processing } }
      | .saved buffer, .processing =>
          ⟨s.jobStore.insert id { job with status := .done, outputPath := some (audioFile cfg id) },
            s.files.insert (audioFile cfg id) buffer⟩
      | .failed message, _ =>
          { s with jobStore := s.jobStore.insert id { job with status := .error, error := some message } }
      | _, _ => s

/-- A request, with the id that an enqueue draws, or an event of a background task. -/
inductive Action where
  | request (r : Request) (newId : String)
  | progress (id : String) (event : JobEvent)

def step (s : ServerState) : Action → ServerState
  | .request r newId => (handle cfg s r newId).2
  | .progress id event => progress cfg s id event

def ServerState.initial : ServerState := ⟨∅, ∅⟩

/-! ## §3. The documented service. -/

/-- The job that a request asks for: that of an enqueue with a valid credential,
an acceptable text and a voice of the catalogue. -/
def asked (r : Request) (newId : String) : Option Job :=
  match r.route with
  | .enqueue body =>
      match resolveOwner cfg r.credential, sanitize body.text, VOICES body.voiceId with
      | .ok owner, .ok sanitized, some voice =>
          some ⟨newId, sanitized, .voice voice, body.provider.getD cfg.provider, .pending, none, none, owner⟩
      | _, _, _ => none
  | _ => none

/-- The state in which a request finds the server after some actions. -/
def before (bs : List Action) : ServerState := run (step cfg) .initial bs

/-- Finished audio reaches its owner and nobody else. -/
structure Delivers (as : List Action) : Prop where
  created : ∀ bs r newId job, bs ++ [.request r newId] <+: as → asked cfg r newId = some job →
    (handle cfg (before cfg bs) r newId).1 = .accepted newId
      ∧ (handle cfg (before cfg bs) r newId).2.jobStore.lookup newId = some job
  served : ∀ bs r newId job bs' r' newId' done, asked cfg r newId = some job → bs ++ [.request r newId] <+: bs' →
    bs' ++ [.request r' newId'] <+: as → r'.credential = r.credential → r'.route = .audio newId →
    (before cfg bs').jobStore.lookup newId = some done → done.status = .done →
    ∃ file, (before cfg bs').files.lookup (audioFile cfg newId) = some file
      ∧ (handle cfg (before cfg bs') r' newId').1 = .audio (some file)
  hidden : ∀ bs r newId job bs' r' newId' owner, asked cfg r newId = some job → bs ++ [.request r newId] <+: bs' →
    bs' ++ [.request r' newId'] <+: as → resolveOwner cfg r'.credential = .ok owner → owner ≠ job.owner →
    r'.route = .job newId ∨ r'.route = .audio newId → (handle cfg (before cfg bs') r' newId').1.status = 404
  refused : ∀ bs r newId error, bs ++ [.request r newId] <+: as → resolveOwner cfg r.credential = .error error →
    (handle cfg (before cfg bs) r newId).1.status = 401

/-! ## §4. What the routes answer. -/

variable {cfg} {s : ServerState} {r : Request} {newId id : String}

theorem handle_enqueue {body : EnqueueBody} (h : r.route = .enqueue body) :
    handle cfg s r newId = postEnqueue cfg s r body newId := by
  unfold handle
  rw [h]

theorem handle_job (h : r.route = .job id) : handle cfg s r newId = (getJobRoute cfg s id, s) := by
  unfold handle
  rw [h]

theorem handle_audio (h : r.route = .audio id) : handle cfg s r newId = (getAudioRoute cfg s id, s) := by
  unfold handle
  rw [h]

theorem resolveOwner_error {credential : Option String} {error : ServiceError}
    (h : resolveOwner cfg credential = .error error) : ∃ message, error = .auth message := by
  unfold resolveOwner at h
  split at h
  · cases h
  · unfold authenticate at h
    split at h
    · cases h
      exact ⟨_, rfl⟩
    · cases h
      exact ⟨_, rfl⟩
    · split at h <;> cases h
      exact ⟨_, rfl⟩

/-- A request that the service refuses is answered with a 401. -/
theorem status_sendError {credential : Option String} {error : ServiceError}
    (h : resolveOwner cfg credential = .error error) : (sendError error).status = 401 := by
  obtain ⟨message, rfl⟩ := resolveOwner_error h
  rfl

/-- Where keys are configured, nobody is let in without a credential. -/
theorem resolveOwner_none {credential : Option String} {error : ServiceError}
    (h : resolveOwner cfg credential = .error error) :
    resolveOwner cfg none = .error (.auth "Missing credential") := by
  unfold resolveOwner at *
  cases hkeys : cfg.keys with
  | none =>
      rw [hkeys] at h
      cases h
  | some keys => rfl

theorem getJob_of_error {credential : Option String} {error : ServiceError}
    (h : resolveOwner cfg credential = .error error) : getJob cfg s id credential = .error error := by
  unfold getJob
  rw [h]
  rfl

/-- The job routes answer nobody where keys are configured: they hand on no credential. -/
theorem status_get {credential : Option String} {error : ServiceError}
    (h : resolveOwner cfg credential = .error error) (hroute : r.route = .job id ∨ r.route = .audio id) :
    (handle cfg s r newId).1.status = 401 := by
  have hjob : getJob cfg s id none = .error (.auth "Missing credential") := getJob_of_error (resolveOwner_none h)
  rcases hroute with hroute | hroute
  · rw [handle_job hroute]
    unfold getJobRoute
    rw [hjob]
    rfl
  · rw [handle_audio hroute]
    unfold getAudioRoute
    rw [hjob]
    rfl

/-- **No audio is ever served**: the route reads a field that no job has. -/
theorem handle_ne_audio (s : ServerState) (r : Request) (newId : String) (file : Option Buffer) :
    (handle cfg s r newId).1 ≠ .audio file := by
  cases hroute : r.route with
  | enqueue body =>
      rw [handle_enqueue hroute]
      unfold postEnqueue
      split <;> exact fun h => (by cases h)
  | job id =>
      rw [handle_job hroute]
      unfold getJobRoute
      split <;> exact fun h => (by cases h)
  | audio id =>
      rw [handle_audio hroute]
      unfold getAudioRoute
      split <;> exact fun h => (by cases h)

/-- An enqueue that is accepted stores a job whose voice is the key of one. -/
theorem voice_of_accepted {body : EnqueueBody} {job : Job} (hroute : r.route = .enqueue body)
    (haccepted : (handle cfg s r newId).1 = .accepted newId)
    (hjob : (handle cfg s r newId).2.jobStore.lookup newId = some job) : job.voice = .text body.voiceId := by
  rw [handle_enqueue hroute] at haccepted hjob
  unfold postEnqueue enqueue createJob at haccepted hjob
  cases howner : resolveOwner cfg r.ip with
  | error error =>
      rw [howner] at haccepted
      cases haccepted
  | ok owner =>
      cases htext : sanitize body.text with
      | error error =>
          rw [howner, htext] at haccepted
          cases haccepted
      | ok sanitized =>
          rw [howner, htext] at hjob
          have hjob : (s.jobStore.insert newId ⟨newId, sanitized, .text body.voiceId, body.options.getD cfg.provider, .pending,
            none, none, owner⟩).lookup newId = some job := hjob
          rw [AList.lookup_insert] at hjob
          obtain rfl := Option.some.inj hjob
          rfl

/-- The enqueue route answers 401 exactly to the addresses that are no credential. -/
theorem status_enqueue {body : EnqueueBody} (hroute : r.route = .enqueue body) :
    (handle cfg s r newId).1.status = 401 ↔ ∃ error, resolveOwner cfg r.ip = .error error := by
  rw [handle_enqueue hroute]
  unfold postEnqueue enqueue createJob
  cases howner : resolveOwner cfg r.ip with
  | error error => exact iff_of_true (status_sendError howner) ⟨error, rfl⟩
  | ok owner =>
      refine iff_of_false ?_ fun h => ?_
      · unfold sanitize
        cases sanitizeInput body.text with
        | error error => exact fun h => by cases h
        | ok sanitized => exact fun h => by cases h
      · obtain ⟨error, h⟩ := h
        cases h

end Server

/-- The action is no enqueue that the service would have to honour, and none
that the address of its caller lets in. -/
def Idle (cfg : Config) : Action → Prop
  | .request r newId => asked cfg r newId = none ∧ ∀ body, r.route = .enqueue body →
      ∀ error, resolveOwner cfg r.credential = .error error → ∃ error', resolveOwner cfg r.ip = .error error'
  | .progress .. => True

/-- **The runs that deliver audio as documented** are those in which no enqueue
with a valid credential is acceptable, and no caller without one has an address
that is a valid credential. -/
theorem delivers_iff (cfg : Config) (as : List Action) : Delivers cfg as ↔ ∀ a ∈ as, Idle cfg a := by
  constructor
  · intro h a ha
    obtain ⟨bs, cs, rfl⟩ := List.append_of_mem ha
    cases a with
    | progress => trivial
    | request r newId =>
        have hbegin : bs ++ [.request r newId] <+: bs ++ .request r newId :: cs := ⟨cs, by simp⟩
        refine ⟨?_, fun body hroute error herror => ?_⟩
        · cases hasked : asked cfg r newId with
          | none => rfl
          | some job =>
              exfalso
              obtain ⟨haccepted, hjob⟩ := h.created bs r newId job hbegin hasked
              -- only an enqueue asks for a job, and it asks for a voice of the catalogue
              unfold asked at hasked
              split at hasked
              · rename_i body hroute
                split at hasked
                · obtain rfl := Option.some.inj hasked
                  cases voice_of_accepted hroute haccepted hjob
                · cases hasked
              · cases hasked
        · exact (status_enqueue hroute).mp (h.refused bs r newId error hbegin herror)
  · intro h
    have hidle : ∀ bs r newId, bs ++ [.request r newId] <+: as → Idle cfg (.request r newId) := fun bs r newId hbegin =>
      h _ (hbegin.subset (List.mem_append_right _ List.mem_cons_self))
    have hnever : ∀ bs r newId job, bs ++ [.request r newId] <+: as → asked cfg r newId ≠ some job := by
      intro bs r newId job hbegin hasked
      rw [(hidle bs r newId hbegin).1] at hasked
      cases hasked
    refine ⟨fun bs r newId job hbegin hasked => (hnever bs r newId job hbegin hasked).elim,
      fun bs r newId job bs' r' newId' done hasked hbefore hbegin => ?_,
      fun bs r newId job bs' r' newId' owner hasked hbefore hbegin => ?_, fun bs r newId error hbegin herror => ?_⟩
    · exact (hnever bs r newId job ((hbefore.trans (List.prefix_append bs' _)).trans hbegin) hasked).elim
    · exact (hnever bs r newId job ((hbefore.trans (List.prefix_append bs' _)).trans hbegin) hasked).elim
    · cases hroute : r.route with
      | enqueue body => exact (status_enqueue hroute).mpr ((hidle bs r newId hbegin).2 body hroute error herror)
      | job id => exact status_get herror (.inl hroute)
      | audio id => exact status_get herror (.inr hroute)

/-- The audio of a finished job is asked for, without keys. -/
def download : List Action :=
  [.request ⟨none, some "127.0.0.1", .enqueue ⟨"hello world", "el-rachel-en", none⟩⟩ "tts_1_a",
    .progress "tts_1_a" .processing, .progress "tts_1_a" (.saved [1, 2, 3]),
    .request ⟨none, some "127.0.0.1", .audio "tts_1_a"⟩ "tts_2_b"]

theorem download_not_delivered : ¬ Delivers ⟨.elevenlabs, "/tmp/tts-output", none⟩ download := by
  intro h
  obtain ⟨file, -, haudio⟩ := h.served [] _ "tts_1_a" _ (download.take 3) _ "tts_2_b" _ rfl ⟨_, rfl⟩ ⟨[], rfl⟩ rfl rfl rfl rfl
  exact handle_ne_audio _ _ _ _ haudio

end PredictIQ.Tts.Routes
