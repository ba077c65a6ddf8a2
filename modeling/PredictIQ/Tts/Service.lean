/-
  PredictIQ.Tts.Service: the jobs of the TTS service, from a request to the
  audio file.

  A process is one call of `enqueue` or `enqueueAsync` together with the
  background task it starts, or one tick of the timer of `_waitForJob`.  Every
  await is one question, and so is every stretch of synchronous code on the
  shared maps; the latter cannot fail.  A call of a provider is one question
  too: circuit breaker and retries only decide whether it is answered.
  Providers are functions of what they are sent; SHA-256 is injective.
-/
import PredictIQ.Foundation.Process
import PredictIQ.Foundation.Table
import PredictIQ.Tts.AudioCache

namespace PredictIQ.Tts

open Foundation
open Prog (attempt)

/-! ## §1. Requests and jobs. -/

inductive TTSProvider where
  | elevenlabs
  | google
  deriving DecidableEq

def TTSProvider.name : TTSProvider → String
  | .elevenlabs => "elevenlabs"
  | .google => "google"

structure TTSVoice where
  voiceId : String
  language : String
  label : String
  deriving DecidableEq

inductive JobStatus where
  | pending
  | processing
  | done
  | error
  deriving DecidableEq

/-- What a job is asked to do; it does not change. -/
structure JobSpec where
  text : String
  voice : TTSVoice
  provider : TTSProvider
  bypassCache : Bool
  owner : String
  deriving DecidableEq

structure TTSJob where
  id : String
  spec : JobSpec
  status : JobStatus
  outputPath : Option String
  error : Option String
  createdAt : Int
  updatedAt : Int
  deriving DecidableEq

/-- An error of a provider, or any other. -/
inductive TtsError where
  | provider (p : TTSProvider) (message : String)
  | other (message : String)
  deriving DecidableEq

def TtsError.message : TtsError → String
  | .provider p message => "[" ++ p.name ++ "] " ++ message
  | .other message => message

/-- `\s` of a regular expression. -/
def isSpace (c : Char) : Bool :=
  (9 ≤ c.toNat && c.toNat ≤ 13) || c = ' ' || c.toNat = 0xa0 || c.toNat = 0x1680
    || (0x2000 ≤ c.toNat && c.toNat ≤ 0x200a) || c.toNat = 0x2028 || c.toNat = 0x2029 || c.toNat = 0x202f
    || c.toNat = 0x205f || c.toNat = 0x3000 || c.toNat = 0xfeff

/-- The length of a string in UTF-16 code units. -/
def utf16Length (text : List Char) : Nat := (text.map fun c => if c.toNat < 0x10000 then 1 else 2).sum

/-- `replace(/<[^>]*>/g, "")`; `inTag` says that a tag has been opened. -/
def stripTags : Bool → List Char → List Char
  | _, [] => []
  | true, c :: rest => stripTags (c != '>') rest
  | false, c :: rest => if c = '<' && rest.contains '>' then stripTags true rest else c :: stripTags false rest

/-- `replace(/\s+/g, " ")`; `after` says that a space was written last. -/
def collapseSpaces : Bool → List Char → List Char
  | _, [] => []
  | after, c :: rest =>
      if isSpace c then if after then collapseSpaces true rest else ' ' :: collapseSpaces true rest
      else c :: collapseSpaces false rest

def trim (text : List Char) : List Char := ((text.dropWhile isSpace).reverse.dropWhile isSpace).reverse

def maxInputLength : Nat := 5000

def sanitizeInput (text : String) : Except TtsError String :=
  if (trim text.toList).isEmpty then .error (.other "Input text must be a non-empty string")
  else if utf16Length text.toList > maxInputLength then
    .error (.other ("Input text exceeds maximum length of " ++ toString maxInputLength ++ " characters"))
  else .ok (String.ofList (trim (collapseSpaces false (stripTags false text.toList))))

/-! ## §2. Configuration. -/

structure RateLimitConfig where
  maxRequests : Int
  windowMs : Int

/-- Which stores are shared between the replicas. -/
structure SharedStoreConfig where
  jobStore : Bool
  rateLimitStore : Bool
  cacheStore : Bool

/-- `elevenlabs` and `google` say which providers are configured. -/
structure TTSConfig where
  provider : TTSProvider
  elevenlabs : Bool
  google : Bool
  outputDir : String
  auth : Option (Option String → Except TtsError String)
  rateLimit : Option RateLimitConfig
  cache : Option CacheConfig
  sharedStore : SharedStoreConfig
  jobTtlMs : Int

/-- A provider answers with a function of what it is sent: ElevenLabs is sent
the text and the voice, Google the language too. -/
structure Setting where
  sha256Hex : String → String
  sha256Hex_injective : Function.Injective sha256Hex
  elevenlabs : String → String → Buffer
  google : String → String → String → Buffer

/-- What a provider produces for a text and a voice. -/
def Setting.audio (W : Setting) (provider : TTSProvider) (text : String) (voice : TTSVoice) : Buffer :=
  match provider with
  | .elevenlabs => W.elevenlabs text voice.voiceId
  | .google => W.google text voice.voiceId voice.language

/-- `AudioCache.key`. -/
def Setting.cacheKey (W : Setting) (text voiceId : String) (provider : TTSProvider) : String :=
  W.sha256Hex (provider.name ++ ":" ++ voiceId ++ ":" ++ text)

/-! ## §3. The stores. -/

structure RateLimitEntry where
  count : Nat
  windowStart : Int

/-- A counter in Redis, with its expiry once it has one. -/
structure Counter where
  value : Nat
  expiresAt : Option Int
  deriving DecidableEq

/-- A value in Redis under `PX`. -/
structure Expiring (α : Type) where
  value : α
  expiresAt : Int

structure Redis where
  jobs : Store String (Expiring TTSJob)
  cache : Store String (Expiring Buffer)
  counters : Store String Counter

/-- Jobs are objects, referred to by their place in `jobs`; `jobStore` finds them by id. -/
structure State where
  nowMs : Int
  jobs : List TTSJob
  jobStore : Store String Nat
  limiter : Store String RateLimitEntry
  cache : AudioCache
  files : Store String Buffer
  redis : Redis

/-- A counter that has not expired. -/
def State.counter (s : State) (key : String) : Option Counter :=
  (s.redis.counters.lookup key).filter fun counter => counter.expiresAt.all fun at' => s.nowMs < at'

def State.setCounter (s : State) (key : String) (counter : Counter) : State :=
  { s with redis.counters := s.redis.counters.insert key counter }

/-- The value of a shared cache entry that has not expired. -/
def State.sharedAudio (s : State) (key : String) : Option Buffer :=
  ((s.redis.cache.lookup key).filter fun entry => decide (s.nowMs < entry.expiresAt)).map Expiring.value

/-- The counter of a window, which starts anew when the old one is over. -/
def State.rateEntry (s : State) (windowMs : Int) (key : String) : RateLimitEntry :=
  match s.limiter.lookup key with
  | some entry => if s.nowMs - entry.windowStart ≥ windowMs then ⟨0, s.nowMs⟩ else entry
  | none => ⟨0, s.nowMs⟩

def State.updateJob (s : State) (ref : Nat) (f : TTSJob → TTSJob) : State := { s with jobs := s.jobs.modify ref f }

/-! ## §4. Questions. -/

inductive Command where
  | checkRate (key : String) (windowMs : Int)
  | incr (key : String)
  | pexpire (key : String) (windowMs : Int)
  | createJob (spec : JobSpec)
  | setJob (ref : Nat)
  | setProcessing (ref : Nat)
  | localCacheGet (key : String)
  | localCacheSet (key : String) (buffer : Buffer)
  | sharedCacheGet (key : String)
  | sharedCacheSet (key : String) (buffer : Buffer) (ttlMs : Int)
  | callProvider (provider : TTSProvider) (text : String) (voice : TTSVoice)
  | mkdir (path : String)
  | writeFile (path : String) (buffer : Buffer)
  | setDone (ref : Nat) (outputPath : String)
  | failJob (id : String) (message : String)
  | lookupJob (id : String)
  | resolve (id : String) (outputPath : Option String)
  deriving DecidableEq

@[reducible] def Reply : Command → Type
  | .checkRate .. | .incr _ => Nat
  | .createJob _ => Nat × TTSJob
  | .localCacheGet _ | .sharedCacheGet _ => Option Buffer
  | .callProvider .. => Buffer
  | .failJob .. => Option Nat
  | .lookupJob _ => Option TTSJob × Int
  | _ => Unit

/-- The random part of a new id, and the rounds that the loops of the local cache get. -/
structure Choice where
  random : String
  rounds : Nat

def makeId (now : Int) (random : String) : String := "tts_" ++ toString now ++ "_" ++ random

section Server

variable (W : Setting) (cfg : TTSConfig)

/-- The local cache, where one is configured. -/
def State.cacheCall (s : State) (call : CacheConfig → AudioCache → Option (Option Buffer × AudioCache)) :
    Option (Option Buffer × State) :=
  match cfg.cache with
  | none => some (none, s)
  | some cache => (call cache s.cache).map fun bc => (bc.1, { s with cache := bc.2 })

def exec (o : Choice) (s : State) : (q : Command) → Option (Reply q × State)
  | .checkRate key windowMs =>
      let entry := s.rateEntry windowMs key
      some (entry.count + 1, { s with limiter := s.limiter.insert key { entry with count := entry.count + 1 } })
  | .incr key =>
      match s.counter key with
      | some counter => some (counter.value + 1, s.setCounter key { counter with value := counter.value + 1 })
      | none => some (1, s.setCounter key ⟨1, none⟩)
  | .pexpire key windowMs =>
      match s.counter key with
      | some counter => some ((), s.setCounter key { counter with expiresAt := some (s.nowMs + windowMs) })
      | none => some ((), s)
  | .createJob spec =>
      let job : TTSJob := ⟨makeId s.nowMs o.random, spec, .pending, none, none, s.nowMs, s.nowMs⟩
      some ((s.jobs.length, job),
        { s with jobs := s.jobs ++ [job], jobStore := s.jobStore.insert job.id s.jobs.length })
  | .setJob ref =>
      match s.jobs[ref]? with
      | some job => some ((), { s with redis.jobs := s.redis.jobs.insert job.id ⟨job, s.nowMs + 86400000⟩ })
      | none => none
  | .setProcessing ref => some ((), s.updateJob ref fun job => { job with status := .processing, updatedAt := s.nowMs })
  | .localCacheGet key => s.cacheCall cfg fun cache c => c.call cache o.rounds (.get key s.nowMs)
  | .localCacheSet key buffer =>
      (s.cacheCall cfg fun cache c => c.call cache o.rounds (.set key buffer s.nowMs)).map fun bs => ((), bs.2)
  | .sharedCacheGet key => some (s.sharedAudio key, s)
  | .sharedCacheSet key buffer ttlMs =>
      some ((), { s with redis.cache := s.redis.cache.insert key ⟨buffer, s.nowMs + ttlMs⟩ })
  | .callProvider provider text voice => some (W.audio provider text voice, s)
  | .mkdir _ => some ((), s)
  | .writeFile path buffer => some ((), { s with files := s.files.insert path buffer })
  | .setDone ref outputPath =>
      some ((), s.updateJob ref fun job =>
        { job with outputPath := some outputPath, status := .done, updatedAt := s.nowMs })
  | .failJob id message =>
      match s.jobStore.lookup id with
      | some ref => some (some ref,
          s.updateJob ref fun job => { job with status := .error, error := some message, updatedAt := s.nowMs })
      | none => some (none, s)
  | .lookupJob id => some (((s.jobStore.lookup id).bind fun ref => s.jobs[ref]?, s.nowMs), s)
  | .resolve .. => some ((), s)

/-- The awaits can fail; synchronous code cannot. -/
def Command.isAwait : Command → Bool
  | .incr _ | .pexpire .. | .setJob _ | .sharedCacheGet _ | .sharedCacheSet .. | .callProvider .. | .mkdir _
  | .writeFile .. => true
  | _ => false

def server : Server Reply State Choice := ⟨exec W cfg, Command.isAwait⟩

/-- Time goes by; the timer of `evictExpiredJobs` fires. -/
inductive Outside where
  | tick (ms : Nat)
  | evictExpiredJobs

/-- A finished job whose last change is older than the time to live. -/
def TTSJob.isEvictable (job : TTSJob) (ttlMs now : Int) : Bool :=
  (job.status = .done || job.status = .error) && decide (now - job.updatedAt ≥ ttlMs)

def outside : Outside → State → State
  | .tick ms, s => { s with nowMs := s.nowMs + ms }
  | .evictExpiredJobs, s =>
      { s with jobStore := s.jobStore.deleteWhere fun ref => s.jobs[ref]?.any (·.isEvictable cfg.jobTtlMs s.nowMs) }

/-! ## §5. The service. -/

abbrev TtsM : Type → Type := Prog Reply TtsError

def ask (q : Command) : TtsM (Reply q) := .call q

/-- `_persistJob`. -/
def persistJob (ref : Nat) : TtsM Unit := if cfg.sharedStore.jobStore then ask (.setJob ref) else pure ()

/-- `_cacheGet`. -/
def cacheGet (key : String) : TtsM (Option Buffer) :=
  if cfg.sharedStore.cacheStore then ask (.sharedCacheGet key) else ask (.localCacheGet key)

/-- `_cacheSet`. -/
def cacheSet (key : String) (buffer : Buffer) : TtsM Unit :=
  if cfg.sharedStore.cacheStore then
    ask (.sharedCacheSet key buffer ((cfg.cache.map CacheConfig.ttlMs).getD 86400000))
  else ask (.localCacheSet key buffer)

def TTSConfig.isConfigured : TTSProvider → Bool
  | .elevenlabs => cfg.elevenlabs
  | .google => cfg.google

/-- `_callProvider`. -/
def callProvider (provider : TTSProvider) (text : String) (voice : TTSVoice) : TtsM Buffer :=
  if cfg.isConfigured provider then ask (.callProvider provider text voice)
  else
    .fail (.provider provider (match provider with
      | .elevenlabs => "ElevenLabs config missing"
      | .google => "Google TTS config missing"))

def TTSProvider.fallback : TTSProvider → TTSProvider
  | .elevenlabs => .google
  | .google => .elevenlabs

/-- `_generateWithFallback`. -/
def generateWithFallback (spec : JobSpec) : TtsM Buffer := do
  match ← attempt (callProvider cfg spec.provider spec.text spec.voice) with
  | .ok buffer => pure buffer
  | .error primaryErr =>
      if !cfg.isConfigured spec.provider.fallback then
        .fail (match primaryErr with
          | .provider .. => primaryErr
          | .other message => .provider spec.provider message)
      else
        match ← attempt (callProvider cfg spec.provider.fallback spec.text spec.voice) with
        | .ok buffer => pure buffer
        | .error fallbackErr =>
            .fail (.provider spec.provider.fallback ("Both providers failed. Primary (" ++ spec.provider.name ++ "): "
              ++ primaryErr.message ++ ". Fallback (" ++ spec.provider.fallback.name ++ "): " ++ fallbackErr.message))

/-- Where the audio of a job is stored. -/
def TTSConfig.audioPath (id : String) : String := cfg.outputDir ++ "/" ++ id ++ ".mp3"

def saveAudio (buffer : Buffer) (id : String) : TtsM String := do
  ask (.mkdir cfg.outputDir)
  ask (.writeFile (cfg.audioPath id) buffer)
  pure (cfg.audioPath id)

/-- The end of `_process`: the file, the status, the shared copy. -/
def finish (ref : Nat) (id : String) (buffer : Buffer) : TtsM Unit := do
  let outputPath ← saveAudio cfg buffer id
  ask (.setDone ref outputPath)
  persistJob cfg ref

/-- The key under which the audio of a job is cached, if it is. -/
def cacheKeyOf (spec : JobSpec) : Option String :=
  if (cfg.cache.isSome || cfg.sharedStore.cacheStore) && !spec.bypassCache then
    some (W.cacheKey spec.text spec.voice.voiceId spec.provider)
  else none

/-- `_process`. -/
def process (ref : Nat) (id : String) (spec : JobSpec) : TtsM Unit := do
  ask (.setProcessing ref)
  persistJob cfg ref
  match cacheKeyOf W cfg spec with
  | none =>
      let buffer ← generateWithFallback cfg spec
      finish cfg ref id buffer
  | some key =>
      match ← cacheGet cfg key with
      | some cached => finish cfg ref id cached
      | none =>
          let buffer ← generateWithFallback cfg spec
          cacheSet cfg key buffer
          finish cfg ref id buffer

/-- `_handleProcessError`; an error of its own `_persistJob` is logged. -/
def handleProcessError (id : String) (err : TtsError) : TtsM Unit := do
  match ← ask (.failJob id err.message) with
  | none => pure ()
  | some ref =>
      let _ ← attempt (persistJob cfg ref)
      pure ()

/-- `this._process(job).catch(...)`. -/
def background (ref : Nat) (id : String) (spec : JobSpec) : TtsM Unit := do
  match ← attempt (process W cfg ref id spec) with
  | .ok () => pure ()
  | .error err => handleProcessError cfg id err

/-! ## §6. Calls. -/

structure Request where
  text : String
  voice : TTSVoice
  provider : Option TTSProvider
  credential : Option String
  rateLimitKey : Option String
  bypassCache : Option Bool

/-- `_resolveOwner`. -/
def resolveOwner (credential : Option String) : TtsM String :=
  match cfg.auth with
  | none => pure "anonymous"
  | some authenticate => .done (authenticate credential)

/-- `_createJob`, and the job in the store. -/
def createJob (r : Request) (owner : String) : TtsM (Nat × TTSJob) := do
  let sanitized ← .done (sanitizeInput r.text)
  ask (.createJob ⟨sanitized, r.voice, r.provider.getD cfg.provider, r.bypassCache.getD false, owner⟩)

def rateLimitError (key : String) (count : Nat) (limit : RateLimitConfig) : TtsError :=
  .other ("Rate limit exceeded for key \"" ++ key ++ "\": " ++ toString count ++ "/" ++ toString limit.maxRequests
    ++ " in " ++ toString limit.windowMs ++ "ms")

/-- `RateLimiter.check`. -/
def checkRate (limit : RateLimitConfig) (key : String) : TtsM Unit := do
  let count ← ask (.checkRate key limit.windowMs)
  if (count : Int) > limit.maxRequests then .fail (rateLimitError key count limit)

/-- `RedisRateLimitStore.incr`. -/
def redisIncr (key : String) (windowMs : Int) : TtsM Nat := do
  let count ← ask (.incr ("tts:rl:" ++ key))
  if count = (1 : Nat) then
    ask (.pexpire ("tts:rl:" ++ key) windowMs)
  pure count

/-- The check of the shared counter in `enqueueAsync`. -/
def checkSharedRate (limit : RateLimitConfig) (key : String) : TtsM Unit := do
  let count ← redisIncr key limit.windowMs
  if (count : Int) > limit.maxRequests then .fail (rateLimitError key count limit)

def limitRate (isShared : Bool) : Option String → TtsM Unit
  | none => pure ()
  | some key =>
      match cfg.rateLimit with
      | none => pure ()
      | some limit => if isShared then checkSharedRate limit key else checkRate limit key

/-- `enqueue`, and its background task. -/
def enqueue (r : Request) : TtsM Unit := do
  let owner ← resolveOwner cfg r.credential
  limitRate cfg false r.rateLimitKey
  let created ← createJob cfg r owner
  background W cfg created.1 created.2.id created.2.spec

/-- `enqueueAsync`, and its background task. -/
def enqueueAsync (r : Request) : TtsM Unit := do
  let owner ← resolveOwner cfg r.credential
  limitRate cfg cfg.sharedStore.rateLimitStore r.rateLimitKey
  let created ← createJob cfg r owner
  persistJob cfg created.1
  background W cfg created.1 created.2.id created.2.spec

/-- One tick of the timer of `_waitForJob`, which was set at `start`. -/
def waitTick (id : String) (start timeoutMs : Int) : TtsM Unit := do
  let found ← ask (.lookupJob id)
  match found.1 with
  | none => .fail (.other ("Job " ++ id ++ " not found"))
  | some job =>
      match job.status with
      | .done => ask (.resolve id job.outputPath)
      | .error => .fail (.other (job.error.getD ""))
      | _ =>
          if found.2 - start > timeoutMs then .fail (.other ("Job " ++ id ++ " timed out after " ++ toString timeoutMs ++ "ms"))
          else pure ()

inductive Task where
  | enqueue (r : Request)
  | enqueueAsync (r : Request)
  | waitTick (id : String) (start timeoutMs : Int)

def body (_ : Nat) : Task → TtsM Unit
  | .enqueue r => enqueue W cfg r
  | .enqueueAsync r => enqueueAsync W cfg r
  | .waitTick id start timeoutMs => waitTick id start timeoutMs

abbrev System : Type := Machine Nat Reply TtsError State
abbrev Action : Type := Act Nat Task TtsError Choice Outside
abbrev Log : Type := List (Nat × Exchange Reply TtsError)

def step : System → Action → System := Machine.step (server W cfg) (body W cfg) (outside cfg)

/-- The service before any request. -/
def State.initial (now : Int) : State := ⟨now, [], ∅, ∅, .empty, ∅, ⟨∅, ∅, ∅⟩⟩

end Server

end PredictIQ.Tts
