/-
  PredictIQ.Tts.JobStages: where a process stands with its job.

  A process creates a job, works on it, hears its audio from the cache or from
  a provider, saves it and sets the job to done; before that it may fail it.
  `stranded` is where a process is when the shared copy of a job that is done
  could not be written; `excused` is where it would be if synchronous code
  failed, and from there it may ask anything.
-/
import PredictIQ.Foundation.Triple
import PredictIQ.Tts.Service

namespace PredictIQ.Tts

open Foundation Monitor
open Prog (attempt)

/-! ## §1. Stages. -/

/-- The job of a process: its place, its id, and what it is asked to do. -/
structure Work where
  ref : Nat
  id : String
  spec : JobSpec

/-- Where audio comes from. -/
inductive Source where
  | cache
  | provider (p : TTSProvider)

inductive Stage where
  | idle
  | created (w : Work)
  | working (w : Work) (heard : Option (Source × Buffer))
  | saved (w : Work) (heard : Source × Buffer)
  | finished (w : Work)
  | stranded (w : Work)
  | seen (id : String) (path : Option String)
  | failed
  | excused

namespace Stage

/-- The job that a process holds, and its status. -/
def work : Stage → Option (Work × JobStatus)
  | .created w => some (w, .pending)
  | .working w _ | .saved w _ => some (w, .processing)
  | .finished w => some (w, .done)
  | _ => none

/-- The job is being processed. -/
def IsUnderWay (w : Work) (φ : Stage) : Prop := (∃ heard, φ = .working w heard) ∨ ∃ heard, φ = .saved w heard

def take (made : Nat × TTSJob) : Stage → Stage
  | .idle => .created ⟨made.1, made.2.id, made.2.spec⟩
  | φ => φ

def begin : Stage → Stage
  | .created w => .working w none
  | φ => φ

def hear (source : Source) (buffer : Buffer) : Stage → Stage
  | .working w _ => .working w (some (source, buffer))
  | φ => φ

def save : Stage → Stage
  | .working w (some heard) => .saved w heard
  | φ => φ

def finish : Stage → Stage
  | .saved w _ => .finished w
  | φ => φ

def unpersisted : Stage → Stage
  | .finished w => .stranded w
  | φ => φ

def fail : Stage → Stage
  | .working .. | .saved .. | .stranded _ => .failed
  | φ => φ

def see (id : String) (found : Option TTSJob) : Stage → Stage
  | .idle =>
      match found with
      | some job => if job.status = .done then .seen id job.outputPath else .idle
      | none => .idle
  | φ => φ

/-- Synchronous code does not fail. -/
def next (φ : Stage) : (q : Command) → Except TtsError (Reply q) → Stage
  | .createJob _, .ok made => φ.take made
  | .setProcessing _, .ok () => φ.begin
  | .callProvider p _ _, .ok buffer => φ.hear (.provider p) buffer
  | .localCacheGet _, .ok (some buffer) => φ.hear .cache buffer
  | .sharedCacheGet _, .ok (some buffer) => φ.hear .cache buffer
  | .writeFile .., .ok () => φ.save
  | .setDone .., .ok () => φ.finish
  | .setJob _, .error _ => φ.unpersisted
  | .failJob .., .ok _ => φ.fail
  | .lookupJob id, .ok found => φ.see id found.1
  | q, .error _ => if q.isAwait then φ else .excused
  | _, .ok _ => φ

section Permits

variable (W : Setting) (cfg : TTSConfig)

def permits (φ : Stage) : Command → Prop
  | .createJob _ | .lookupJob _ => φ = .idle
  | .setProcessing ref => ∃ w, φ = .created w ∧ ref = w.ref
  | .setJob ref => ∀ w, φ = .finished w → ref = w.ref
  | .callProvider _ text voice => ∃ w heard, φ = .working w heard ∧ text = w.spec.text ∧ voice = w.spec.voice
  | .localCacheGet key | .sharedCacheGet key => ∃ w heard, φ = .working w heard ∧ cacheKeyOf W cfg w.spec = some key
  | .localCacheSet key buffer | .sharedCacheSet key buffer _ =>
      ∃ w p, φ = .working w (some (.provider p, buffer)) ∧ cacheKeyOf W cfg w.spec = some key
  | .writeFile path buffer => ∃ w source, φ = .working w (some (source, buffer)) ∧ path = cfg.audioPath w.id
  | .setDone ref path => ∃ w heard, φ = .saved w heard ∧ ref = w.ref ∧ path = cfg.audioPath w.id
  | .failJob id _ => ∃ w, (φ.IsUnderWay w ∨ φ = .stranded w) ∧ id = w.id
  | .resolve id path => φ = .seen id path
  | .checkRate .. | .incr _ | .pexpire .. | .mkdir _ => True

end Permits

end Stage

variable (W : Setting) (cfg : TTSConfig)

def stageMonitor : Monitor Reply TtsError Stage :=
  ⟨.idle, Stage.next, fun φ q => φ = .excused ∨ φ.permits W cfg q⟩

theorem absorbing_excused : (stageMonitor W cfg).Absorbing .excused := by
  refine fun q => ⟨.inl rfl, fun r => ?_⟩
  show Stage.next .excused q r = .excused
  unfold Stage.next
  split <;> first | rfl | exact ite_self _

/-! ## §2. The service keeps to the stages. -/

section Service

variable {W cfg}

/-- What the questions of the shared rate limit, of the directory and of a job
that is not done leave alone. -/
theorem triple_persistJob (φ₀ : Stage) (ref : Nat) (hφ₀ : ∀ w, φ₀ ≠ .finished w) :
    (stageMonitor W cfg).Triple (· = φ₀) (persistJob cfg ref) (fun φ _ => φ = φ₀) (· = φ₀) := by
  unfold persistJob
  split
  · refine triple_call ?_ ?_ ?_
    · rintro φ rfl
      exact .inr fun w hw => absurd hw (hφ₀ w)
    · rintro φ _ rfl
      rfl
    · rintro φ e rfl
      show φ.unpersisted = φ
      unfold Stage.unpersisted
      split
      · exact absurd rfl (hφ₀ _)
      · rfl
  · exact triple_pure fun _ hφ => hφ

/-- What a process has after an error: the job is still being processed, or done and not persisted. -/
def Failed (w : Work) (φ : Stage) : Prop := φ = .excused ∨ φ.IsUnderWay w ∨ φ = .stranded w

variable {w : Work}

theorem failed_working (heard : Option (Source × Buffer)) : Failed w (.working w heard) :=
  .inr (.inl (.inl ⟨heard, rfl⟩))

theorem triple_callProvider (p : TTSProvider) :
    (stageMonitor W cfg).Triple (· = .working w none) (callProvider cfg p w.spec.text w.spec.voice)
      (fun φ buffer => φ = .working w (some (.provider p, buffer))) (· = .working w none) := by
  unfold callProvider
  split
  · refine triple_call ?_ ?_ ?_
    · rintro φ rfl
      exact .inr ⟨w, none, rfl, rfl, rfl⟩
    · rintro φ buffer rfl
      rfl
    · rintro φ e rfl
      rfl
  · exact triple_fail fun _ hφ => hφ

theorem triple_generateWithFallback : (stageMonitor W cfg).Triple (· = .working w none)
    (generateWithFallback cfg w.spec) (fun φ buffer => ∃ p, φ = .working w (some (.provider p, buffer))) (Failed w) := by
  have hbad : ∀ φ, φ = .working w none → Failed w φ := by
    rintro φ rfl
    exact failed_working none
  unfold generateWithFallback
  refine triple_attempt_bind (triple_callProvider w.spec.provider)
    (fun buffer => triple_pure fun φ hφ => ⟨w.spec.provider, hφ⟩) fun primaryErr => ?_
  dsimp only
  split
  · exact triple_fail hbad
  · exact triple_attempt_bind (triple_callProvider w.spec.provider.fallback)
      (fun buffer => triple_pure fun φ hφ => ⟨w.spec.provider.fallback, hφ⟩) fun fallbackErr => triple_fail hbad

/-- **The end of a job**: audio in hand is saved, and the job set to done. -/
theorem triple_finish (source : Source) (buffer : Buffer) :
    (stageMonitor W cfg).Triple (· = .working w (some (source, buffer))) (finish cfg w.ref w.id buffer)
      (fun φ _ => φ = .finished w) (Failed w) := by
  have hsave : (stageMonitor W cfg).Triple (· = .working w (some (source, buffer))) (saveAudio cfg buffer w.id)
      (fun φ path => φ = .saved w (source, buffer) ∧ path = cfg.audioPath w.id) (Failed w) := by
    refine triple_bind (B := fun φ _ => φ = .working w (some (source, buffer))) (triple_call ?_ ?_ ?_) fun _ =>
      triple_bind (B := fun φ _ => φ = .saved w (source, buffer)) (triple_call ?_ ?_ ?_) fun _ =>
        triple_pure fun φ hφ => ⟨hφ, rfl⟩
    · rintro φ rfl
      exact .inr trivial
    · rintro φ _ rfl
      rfl
    · rintro φ e rfl
      exact failed_working _
    · rintro φ rfl
      exact .inr ⟨w, source, rfl, rfl⟩
    · rintro φ _ rfl
      rfl
    · rintro φ e rfl
      exact failed_working _
  unfold finish
  refine triple_bind hsave fun path => ?_
  refine triple_bind (B := fun φ _ => φ = .finished w) (triple_call ?_ ?_ ?_) fun _ => ?_
  · rintro φ ⟨rfl, rfl⟩
    exact .inr ⟨w, (source, buffer), rfl, rfl, rfl⟩
  · rintro φ _ ⟨rfl, -⟩
    rfl
  · rintro φ e ⟨rfl, -⟩
    exact .inl rfl
  · unfold persistJob
    split
    · refine triple_call ?_ ?_ ?_
      · rintro φ rfl
        refine .inr fun w' hw' => ?_
        cases hw'
        rfl
      · rintro φ _ rfl
        rfl
      · -- the job is done, and its shared copy is not written
        rintro φ e rfl
        exact .inr (.inr rfl)
    · exact triple_pure fun _ hφ => hφ

theorem triple_cacheGet {key : String} (hkey : cacheKeyOf W cfg w.spec = some key) :
    (stageMonitor W cfg).Triple (· = .working w none) (cacheGet cfg key)
      (fun φ cached => φ = .working w (cached.map fun buffer => (.cache, buffer))) (Failed w) := by
  unfold cacheGet
  split
  · refine triple_call ?_ ?_ ?_
    · rintro φ rfl
      exact .inr ⟨w, none, rfl, hkey⟩
    · rintro φ (_ | buffer) rfl <;> rfl
    · rintro φ e rfl
      exact failed_working none
  · refine triple_call ?_ ?_ ?_
    · rintro φ rfl
      exact .inr ⟨w, none, rfl, hkey⟩
    · rintro φ (_ | buffer) rfl <;> rfl
    · rintro φ e rfl
      exact .inl rfl

theorem triple_cacheSet {key : String} (hkey : cacheKeyOf W cfg w.spec = some key) (p : TTSProvider) (buffer : Buffer) :
    (stageMonitor W cfg).Triple (· = .working w (some (.provider p, buffer))) (cacheSet cfg key buffer)
      (fun φ _ => φ = .working w (some (.provider p, buffer))) (Failed w) := by
  unfold cacheSet
  split
  · refine triple_call ?_ ?_ ?_
    · rintro φ rfl
      exact .inr ⟨w, p, rfl, hkey⟩
    · rintro φ _ rfl
      rfl
    · rintro φ e rfl
      exact failed_working _
  · refine triple_call ?_ ?_ ?_
    · rintro φ rfl
      exact .inr ⟨w, p, rfl, hkey⟩
    · rintro φ _ rfl
      rfl
    · rintro φ e rfl
      exact .inl rfl

/-- **A job that is processed** is done at the end, or still being processed after an error. -/
theorem triple_process : (stageMonitor W cfg).Triple (· = .created w) (process W cfg w.ref w.id w.spec)
    (fun φ _ => φ = .finished w) (Failed w) := by
  have hgenerate : ∀ {f : Buffer → TtsM Unit},
      (∀ p buffer, (stageMonitor W cfg).Triple (· = .working w (some (.provider p, buffer))) (f buffer)
        (fun φ _ => φ = .finished w) (Failed w)) →
      (stageMonitor W cfg).Triple (· = .working w none) (generateWithFallback cfg w.spec >>= f)
        (fun φ _ => φ = .finished w) (Failed w) := fun hf =>
    triple_bind triple_generateWithFallback fun buffer => triple_ex fun p => hf p buffer
  unfold process
  refine triple_bind (B := fun φ _ => φ = .working w none) (triple_call ?_ ?_ ?_) fun _ => triple_bind
    ((triple_persistJob (.working w none) w.ref nofun).conseq (fun _ hφ => hφ) (fun _ _ hφ => hφ) ?_) fun _ => ?_
  · rintro φ rfl
    exact .inr ⟨w, rfl, rfl⟩
  · rintro φ _ rfl
    rfl
  · rintro φ e rfl
    exact .inl rfl
  · rintro φ rfl
    exact failed_working none
  · split
    · exact hgenerate fun p buffer => triple_finish (.provider p) buffer
    · rename_i key hkey
      refine triple_bind (triple_cacheGet hkey) fun cached => ?_
      cases cached with
      | some buffer => exact triple_finish .cache buffer
      | none => exact hgenerate fun p buffer => triple_bind (triple_cacheSet hkey p buffer) fun _ => triple_finish _ buffer

theorem triple_handleProcessError (err : TtsError) :
    (stageMonitor W cfg).Triple (Failed w) (handleProcessError cfg w.id err) (fun _ _ => True) (fun _ => True) := by
  refine triple_or (triple_absorbing (absorbing_excused W cfg) (fun _ => trivial) trivial) ?_
  unfold handleProcessError
  refine triple_bind (B := fun φ _ => φ = .failed) (triple_call (fun φ hφ => .inr ⟨w, hφ, rfl⟩) ?_ fun _ _ _ => trivial)
    fun ref => ?_
  · rintro φ ref ((⟨heard, rfl⟩ | ⟨heard, rfl⟩) | rfl) <;> rfl
  · cases ref with
    | none => exact triple_pure fun _ _ => trivial
    | some ref =>
        exact triple_attempt_bind (triple_persistJob .failed ref nofun) (fun _ => triple_pure fun _ _ => trivial)
          fun _ => triple_pure fun _ _ => trivial

theorem triple_background : (stageMonitor W cfg).Triple (· = .created w) (background W cfg w.ref w.id w.spec)
    (fun _ _ => True) (fun _ => True) :=
  triple_attempt_bind triple_process (fun _ => triple_pure fun _ _ => trivial) triple_handleProcessError

theorem triple_limitRate (isShared : Bool) (key : Option String) :
    (stageMonitor W cfg).Triple (· = .idle) (limitRate cfg isShared key) (fun φ _ => φ = .idle) (fun _ => True) := by
  have hquiet : ∀ {q : Command}, (∀ φ : Stage, φ.permits W cfg q) → (∀ a, Stage.next .idle q (.ok a) = .idle) →
      (stageMonitor W cfg).Triple (· = .idle) (ask q) (fun φ _ => φ = .idle) (fun _ => True) := by
    intro q hq hnext
    refine triple_call (fun φ _ => .inr (hq φ)) ?_ fun _ _ _ => trivial
    rintro φ a rfl
    exact hnext a
  have hcount : ∀ (count : Nat) (key : String) (limit : RateLimitConfig), (stageMonitor W cfg).Triple (· = .idle)
      (if (count : Int) > limit.maxRequests then .fail (rateLimitError key count limit) else pure () : TtsM Unit)
      (fun φ _ => φ = .idle) (fun _ => True) := by
    intro count key limit
    split
    · exact triple_fail fun _ _ => trivial
    · exact triple_pure fun _ hφ => hφ
  unfold limitRate
  cases key with
  | none => exact triple_pure fun _ hφ => hφ
  | some key =>
      cases cfg.rateLimit with
      | none => exact triple_pure fun _ hφ => hφ
      | some limit =>
          cases isShared with
          | false =>
              exact triple_bind (hquiet (q := .checkRate key limit.windowMs) (fun _ => trivial) fun _ => rfl) fun count =>
                hcount count key limit
          | true =>
              refine triple_bind (triple_bind (hquiet (q := .incr ("tts:rl:" ++ key)) (fun _ => trivial) fun _ => rfl)
                fun count => ?_) fun count => hcount count key limit
              split
              · exact triple_bind (hquiet (q := .pexpire ("tts:rl:" ++ key) limit.windowMs) (fun _ => trivial)
                  fun _ => rfl) fun _ => triple_pure fun _ hφ => hφ
              · exact triple_pure fun _ hφ => hφ

theorem triple_resolveOwner (credential : Option String) :
    (stageMonitor W cfg).Triple (· = .idle) (resolveOwner cfg credential) (fun φ _ => φ = .idle) (fun _ => True) := by
  unfold resolveOwner
  split
  · exact triple_pure fun _ hφ => hφ
  · exact triple_done (fun _ _ hφ _ => hφ) fun _ _ => trivial

theorem triple_createJob (r : Request) (owner : String) : (stageMonitor W cfg).Triple (· = .idle) (createJob cfg r owner)
    (fun φ created => φ = .created ⟨created.1, created.2.id, created.2.spec⟩) (fun _ => True) := by
  unfold createJob
  refine triple_bind (B := fun φ _ => φ = .idle) (triple_done (fun _ _ hφ _ => hφ) fun _ _ => trivial) fun sanitized =>
    triple_call ?_ ?_ fun _ _ _ => trivial
  · rintro φ rfl
    exact .inr rfl
  · rintro φ created rfl
    rfl

theorem triple_waitTick (id : String) (start timeoutMs : Int) :
    (stageMonitor W cfg).Triple (· = .idle) (waitTick id start timeoutMs) (fun _ _ => True) (fun _ => True) := by
  unfold waitTick
  refine triple_bind (B := fun φ found => φ = Stage.see id found.1 .idle) (triple_call ?_ ?_ fun _ _ _ => trivial)
    fun found => ?_
  · rintro φ rfl
    exact .inr rfl
  · rintro φ found rfl
    rfl
  · obtain ⟨_ | job, now⟩ := found
    · exact triple_fail fun _ _ => trivial
    · cases hstatus : job.status with
      | done =>
          simp only [hstatus]
          refine triple_call ?_ (fun _ _ _ => trivial) fun _ _ _ => trivial
          rintro φ rfl
          exact .inr (by simp [Stage.see, Stage.permits, hstatus])
      | error =>
          simp only [hstatus]
          exact triple_fail fun _ _ => trivial
      | pending | processing =>
          simp only [hstatus]
          split
          · exact triple_fail fun _ _ => trivial
          · exact triple_pure fun _ _ => trivial

/-- **Every task keeps to the stages.** -/
theorem obeys_body (p : Nat) (task : Task) :
    (stageMonitor W cfg).Obeys (fun _ _ => True) (stageMonitor W cfg).start (body W cfg p task) := by
  have hbackground : ∀ created : Nat × TTSJob, (stageMonitor W cfg).Triple
      (· = .created ⟨created.1, created.2.id, created.2.spec⟩) (background W cfg created.1 created.2.id created.2.spec)
      (fun _ _ => True) (fun _ => True) := fun created =>
    triple_background (w := ⟨created.1, created.2.id, created.2.spec⟩)
  cases task with
  | enqueue r =>
      exact (triple_bind (triple_resolveOwner r.credential) fun owner => triple_bind (triple_limitRate false r.rateLimitKey)
        fun _ => triple_bind (triple_createJob r owner) hbackground).obeys rfl
  | enqueueAsync r =>
      refine Triple.obeys (A := (· = .idle)) (B := fun _ _ => True) (E := fun _ => True) (triple_bind
        (triple_resolveOwner r.credential) fun owner => triple_bind (triple_limitRate _ r.rateLimitKey) fun _ =>
          triple_bind (triple_createJob r owner) fun created => triple_bind ?_ fun _ => hbackground created) rfl
      exact (triple_persistJob (.created ⟨created.1, created.2.id, created.2.spec⟩) created.1 nofun).conseq
        (fun _ hφ => hφ) (fun _ _ hφ => hφ) fun _ _ => trivial
  | waitTick id start timeoutMs => exact (triple_waitTick id start timeoutMs).obeys rfl

/-- In every run the processes keep to the stages. -/
theorem monitored (now : Int) (as : List Action) :
    Machine.Monitored (stageMonitor W cfg) (Foundation.run (step W cfg) (Machine.idle (State.initial now)) as) :=
  Machine.monitored_run obeys_body (State.initial now) as

end Service

end PredictIQ.Tts
