/-
  PredictIQ.Tts.OneWay: jobs go from pending to processing to done, or to error.

  `Orderly` holds in every run in which new ids are new and in which no write
  of the shared copy of a finished job fails: each process holds a job of its
  own in the status of its stage, a job that is done has its audio written, and
  a path that was given out is that of a finished job.  When the last write
  fails, the handler of `_process` finds a job that is done, and sets it to
  error: `sampleUnpersisted_fails`.
-/
import PredictIQ.Tts.JobStages

namespace PredictIQ.Tts

open Foundation Monitor

/-! ## §1. Statuses, audio and paths. -/

/-- A status stays, or goes one step on. -/
def JobStatus.mayBecome : JobStatus → JobStatus → Bool
  | .pending, .processing | .pending, .error | .processing, .done | .processing, .error => true
  | a, b => a = b

/-- What may become of a job: one that is done stays as it is. -/
structure Advances (job job' : TTSJob) : Prop where
  id : job'.id = job.id
  spec : job'.spec = job.spec
  status : job.status.mayBecome job'.status = true
  done : job.status = .done → job' = job

def Evolves (jobs jobs' : List TTSJob) : Prop :=
  ∀ (ref : Nat) (job : TTSJob), jobs[ref]? = some job → ∃ job', jobs'[ref]? = some job' ∧ Advances job job'

/-- The job that the local store has under an id. -/
def State.localJob (s : State) (id : String) : Option TTSJob := (s.jobStore.lookup id).bind fun ref => s.jobs[ref]?

/-- A finished job with this path. -/
def Settled (s : State) (id : String) (path : Option String) : Prop :=
  ∃ job ∈ s.jobs, job.id = id ∧ job.status = .done ∧ job.outputPath = path

section Audio

variable (W : Setting) (cfg : TTSConfig)

/-- Process `p` was given this audio for what a job is asked to do: by a
provider for its text and voice, or by the cache under its key. -/
def Provided (log : Log) (p : Nat) (spec : JobSpec) : Source × Buffer → Prop
  | (.provider provider, buffer) => (p, ⟨.callProvider provider spec.text spec.voice, .ok buffer⟩) ∈ log
  | (.cache, buffer) => ∃ key, cacheKeyOf W cfg spec = some key ∧ ((p, ⟨.localCacheGet key, .ok (some buffer)⟩) ∈ log
      ∨ (p, ⟨.sharedCacheGet key, .ok (some buffer)⟩) ∈ log)

/-- Process `p` has written such audio to the file of the job. -/
def Saved (log : Log) (p : Nat) (id : String) (spec : JobSpec) (heard : Source × Buffer) : Prop :=
  Provided W cfg log p spec heard ∧ (p, ⟨.writeFile (cfg.audioPath id) heard.2, .ok ()⟩) ∈ log

/-- A job has an output path, to which its audio was written. -/
def Written (log : Log) (job : TTSJob) : Prop :=
  job.outputPath = some (cfg.audioPath job.id) ∧ ∃ p heard, Saved W cfg log p job.id job.spec heard

/-- What is true in a stage. -/
def Stage.Sound (s : State) (log : Log) (p : Nat) : Stage → Prop
  | .working w (some heard) => Provided W cfg log p w.spec heard
  | .saved w heard => Saved W cfg log p w.id w.spec heard
  | .seen id path => Settled s id path
  | .stranded _ | .excused => False
  | _ => True

structure Orderly (stages : Nat → Stage) (s : State) (log : Log) : Prop where
  owned : ∀ p w status, (stages p).work = some (w, status) →
    ∃ job, s.jobs[w.ref]? = some job ∧ job.id = w.id ∧ job.spec = w.spec ∧ job.status = status
  separate : ∀ p p' w w' status status', (stages p).work = some (w, status) → (stages p').work = some (w', status') →
    w.ref = w'.ref → p = p'
  distinct : (s.jobs.map TTSJob.id).Nodup
  found : ∀ id ref, s.jobStore.lookup id = some ref → ∃ job, s.jobs[ref]? = some job ∧ job.id = id
  sound : ∀ p, (stages p).Sound W cfg s log p
  written : ∀ job ∈ s.jobs, job.status = .done → Written W cfg log job
  resolved : ∀ p id path, (p, ⟨.resolve id path, .ok ()⟩) ∈ log → Settled s id path
  copies : ∀ id copy, s.redis.jobs.lookup id = some copy → copy.value.status = .error →
    ∃ job ∈ s.jobs, job.id = id ∧ job.status = .error

end Audio

variable {W : Setting} {cfg : TTSConfig} {stages : Nat → Stage} {s s' : State} {log log' : Log} {p : Nat} {φ : Stage}
  {w : Work} {job job' : TTSJob} {id : String}

theorem JobStatus.mayBecome_refl (status : JobStatus) : status.mayBecome status = true := by cases status <;> rfl

theorem Advances.refl (job : TTSJob) : Advances job job := ⟨rfl, rfl, job.status.mayBecome_refl, fun _ => rfl⟩

theorem Evolves.refl (jobs : List TTSJob) : Evolves jobs jobs := fun _ job h => ⟨job, h, .refl job⟩

theorem getElem?_concat {jobs : List TTSJob} {ref : Nat} (h : jobs[ref]? = some job) (new : TTSJob) :
    (jobs ++ [new])[ref]? = some job := by
  rw [List.getElem?_append_left (List.getElem?_eq_some_iff.mp h).1]
  exact h

theorem evolves_concat (jobs : List TTSJob) (new : TTSJob) : Evolves jobs (jobs ++ [new]) :=
  fun _ job h => ⟨job, getElem?_concat h new, .refl job⟩

theorem evolves_modify {jobs : List TTSJob} {ref : Nat} {f : TTSJob → TTSJob}
    (hf : ∀ job, jobs[ref]? = some job → Advances job (f job)) : Evolves jobs (jobs.modify ref f) := by
  intro ref' job hjob
  rw [List.getElem?_modify, hjob]
  by_cases href : ref = ref'
  · subst href
    exact ⟨f job, by simp, hf job hjob⟩
  · exact ⟨job, by simp [href], .refl job⟩

theorem Settled.mono {path : Option String} (h : Settled s id path) (hjobs : Evolves s.jobs s'.jobs) : Settled s' id path := by
  obtain ⟨job, hmem, hid, hdone, hpath⟩ := h
  obtain ⟨ref, hjob⟩ := List.mem_iff_getElem?.mp hmem
  obtain ⟨job', hjob', hadvances⟩ := hjobs ref job hjob
  obtain rfl := hadvances.done hdone
  exact ⟨job', List.mem_iff_getElem?.mpr ⟨ref, hjob'⟩, hid, hdone, hpath⟩

theorem Provided.mono {spec : JobSpec} {heard : Source × Buffer} (h : Provided W cfg log p spec heard) (hlog : log ⊆ log') :
    Provided W cfg log' p spec heard := by
  obtain ⟨_ | provider, buffer⟩ := heard
  · obtain ⟨key, hkey, hget⟩ := h
    exact ⟨key, hkey, hget.imp (fun h => hlog h) fun h => hlog h⟩
  · exact hlog h

theorem Saved.mono {spec : JobSpec} {heard : Source × Buffer} (h : Saved W cfg log p id spec heard) (hlog : log ⊆ log') :
    Saved W cfg log' p id spec heard :=
  ⟨h.1.mono hlog, hlog h.2⟩

theorem Written.mono (h : Written W cfg log job) (hlog : log ⊆ log') : Written W cfg log' job := by
  obtain ⟨hpath, p, heard, hsaved⟩ := h
  exact ⟨hpath, p, heard, hsaved.mono hlog⟩

theorem Stage.Sound.mono (h : φ.Sound W cfg s log p) (hjobs : Evolves s.jobs s'.jobs) (hlog : log ⊆ log') :
    φ.Sound W cfg s' log' p := by
  cases φ with
  | working w heard =>
      cases heard with
      | none => trivial
      | some heard => exact Provided.mono h hlog
  | saved w heard => exact Saved.mono h hlog
  | seen id path => exact Settled.mono h hjobs
  | stranded w => exact h
  | excused => exact h
  | idle | created w | finished w | failed => trivial

namespace Orderly

/-! ## §2. What keeps the order. -/

/-- Two jobs with one id are one job. -/
theorem eq_of_id (h : Orderly W cfg stages s log) {ref ref' : Nat} (hjob : s.jobs[ref]? = some job)
    (hjob' : s.jobs[ref']? = some job') (hid : job.id = job'.id) : ref = ref' := by
  have hget : (s.jobs.map TTSJob.id)[ref]? = (s.jobs.map TTSJob.id)[ref']? := by
    rw [List.getElem?_map, List.getElem?_map, hjob, hjob']
    exact congrArg some hid
  refine (List.getElem?_inj ?_ h.distinct).mp hget
  rw [List.length_map]
  exact (List.getElem?_eq_some_iff.mp hjob).1

/-- The log grows. -/
theorem grow (h : Orderly W cfg stages s log) (hlog : log ⊆ log')
    (hresolved : ∀ p id path, (p, ⟨.resolve id path, .ok ()⟩) ∈ log' → Settled s id path) :
    Orderly W cfg stages s log' where
  owned := h.owned
  separate := h.separate
  distinct := h.distinct
  found := h.found
  sound p := (h.sound p).mono (.refl _) hlog
  written job hmem hdone := (h.written job hmem hdone).mono hlog
  resolved := hresolved
  copies := h.copies

/-- The server changes, and no job does. -/
theorem congr (h : Orderly W cfg stages s log) (hjobs : s'.jobs = s.jobs)
    (hstore : ∀ id ref, s'.jobStore.lookup id = some ref → s.jobStore.lookup id = some ref)
    (hcopies : ∀ id copy, s'.redis.jobs.lookup id = some copy → s.redis.jobs.lookup id = some copy
      ∨ ∃ job ∈ s.jobs, job.id = id ∧ copy.value = job) : Orderly W cfg stages s' log where
  owned := by
    rw [hjobs]
    exact h.owned
  separate := h.separate
  distinct := by
    rw [hjobs]
    exact h.distinct
  found id ref href := by
    rw [hjobs]
    exact h.found id ref (hstore id ref href)
  sound p := (h.sound p).mono (by rw [hjobs]; exact .refl _) (List.Subset.refl _)
  written := by
    rw [hjobs]
    exact h.written
  resolved p id path hlog := (h.resolved p id path hlog).mono (by rw [hjobs]; exact .refl _)
  copies id copy hcopy herror := by
    rw [hjobs]
    rcases hcopies id copy hcopy with hold | ⟨job, hmem, hid, rfl⟩
    · exact h.copies id copy hold herror
    · exact ⟨copy.value, hmem, hid, herror⟩

/-- A process comes to another stage, with the job that it holds or with none. -/
theorem move (h : Orderly W cfg stages s log) (hwork : ∀ x, φ.work = some x → (stages p).work = some x)
    (hsound : φ.Sound W cfg s log p) : Orderly W cfg (Function.update stages p φ) s log := by
  have hold : ∀ p' x, (Function.update stages p φ p').work = some x → (stages p').work = some x := by
    intro p' x hx
    rw [Function.update_apply] at hx
    split at hx
    · rename_i hp
      subst hp
      exact hwork x hx
    · exact hx
  refine ⟨fun p' w status hw => h.owned p' w status (hold p' _ hw), fun p₁ p₂ w w' status status' hw hw' =>
    h.separate p₁ p₂ w w' status status' (hold p₁ _ hw) (hold p₂ _ hw'), h.distinct, h.found, fun p' => ?_, h.written,
    h.resolved, h.copies⟩
  rw [Function.update_apply]
  split
  · rename_i hp
    subst hp
    exact hsound
  · exact h.sound p'

/-- A new job. -/
theorem create (h : Orderly W cfg stages s log) (hpending : job.status = .pending)
    (hfresh : job.id ∉ s.jobs.map TTSJob.id) :
    Orderly W cfg (Function.update stages p (.created ⟨s.jobs.length, job.id, job.spec⟩))
      { s with jobs := s.jobs ++ [job], jobStore := s.jobStore.insert job.id s.jobs.length } log := by
  have hnew : (s.jobs ++ [job])[s.jobs.length]? = some job := by simp
  have hlt : ∀ p' w status, (stages p').work = some (w, status) → w.ref < s.jobs.length := fun p' w status hw => by
    obtain ⟨job, hjob, -⟩ := h.owned p' w status hw
    exact (List.getElem?_eq_some_iff.mp hjob).1
  refine ⟨fun p' w status hw => ?_, fun p₁ p₂ w w' status status' hw hw' href => ?_, ?_, fun id ref href => ?_,
    fun p' => ?_, fun job' hmem hdone => ?_, fun p' id path hlog => ?_, fun id copy hcopy herror => ?_⟩
  · rw [Function.update_apply] at hw
    split at hw
    · cases hw
      exact ⟨job, hnew, rfl, rfl, hpending⟩
    · obtain ⟨job', hjob', hrest⟩ := h.owned p' w status hw
      exact ⟨job', getElem?_concat hjob' job, hrest⟩
  · rw [Function.update_apply] at hw hw'
    split at hw <;> split at hw'
    · rename_i h₁ h₂
      exact h₁.trans h₂.symm
    · cases hw
      have := hlt p₂ w' status' hw'
      dsimp only at href
      omega
    · cases hw'
      have := hlt p₁ w status hw
      dsimp only at href
      omega
    · exact h.separate p₁ p₂ w w' status status' hw hw' href
  · rw [List.map_append, List.nodup_append]
    refine ⟨h.distinct, List.nodup_singleton _, fun id hid id' hid' => ?_⟩
    rintro rfl
    rw [List.map_singleton, List.mem_singleton] at hid'
    exact hfresh (hid' ▸ hid)
  · rw [Store.lookup_insert_eq] at href
    split at href
    · rename_i hid
      cases href
      exact ⟨job, hnew, hid.symm⟩
    · obtain ⟨job', hjob', hid⟩ := h.found id ref href
      exact ⟨job', getElem?_concat hjob' job, hid⟩
  · rw [Function.update_apply]
    split
    · trivial
    · exact (h.sound p').mono (evolves_concat s.jobs job) (List.Subset.refl _)
  · rcases List.mem_append.mp hmem with hold | hnew
    · exact h.written job' hold hdone
    · rw [List.mem_singleton.mp hnew, hpending] at hdone
      cases hdone
  · exact (h.resolved p' id path hlog).mono (evolves_concat s.jobs job)
  · obtain ⟨job', hmem, hrest⟩ := h.copies id copy hcopy herror
    exact ⟨job', List.mem_append_left _ hmem, hrest⟩

/-- A process changes the job that it holds. -/
theorem update (h : Orderly W cfg stages s log) {status : JobStatus} {f : TTSJob → TTSJob}
    (hwork : (stages p).work = some (w, status)) (hf : ∀ job, job.status = status → Advances job (f job))
    (hwritten : ∀ job, job.id = w.id → job.spec = w.spec → (f job).status = .done → Written W cfg log (f job))
    (hφ : ∀ x, φ.work = some x → x.1 = w ∧ ∀ job, (f job).status = x.2)
    (hsound : φ.Sound W cfg (s.updateJob w.ref f) log p) :
    Orderly W cfg (Function.update stages p φ) (s.updateJob w.ref f) log
      ∧ Evolves s.jobs (s.updateJob w.ref f).jobs := by
  obtain ⟨mine, hmine, hid, hspec, hstatus⟩ := h.owned p w status hwork
  have hevolves : Evolves s.jobs (s.updateJob w.ref f).jobs := by
    refine evolves_modify fun job hjob => hf job ?_
    rw [← Option.some.inj (hmine.symm.trans hjob), hstatus]
  have hself : (s.updateJob w.ref f).jobs[w.ref]? = some (f mine) := by simp [State.updateJob, hmine]
  have hother : ∀ {ref : Nat}, w.ref ≠ ref → (s.updateJob w.ref f).jobs[ref]? = s.jobs[ref]? := fun href => by
    simp [State.updateJob, href]
  have hmade : Advances mine (f mine) := hf mine hstatus
  refine ⟨⟨fun p' w' status' hw => ?_, fun p₁ p₂ w₁ w₂ status₁ status₂ hw₁ hw₂ href => ?_, ?_, fun id ref href => ?_,
    fun p' => ?_, fun job hmem hdone => ?_, fun p' id path hlog => (h.resolved p' id path hlog).mono hevolves,
    fun id copy hcopy herror => ?_⟩, hevolves⟩
  · rw [Function.update_apply] at hw
    split at hw
    · obtain ⟨hwork', hstatus'⟩ := hφ _ hw
      dsimp only at hwork'
      subst hwork'
      exact ⟨f mine, hself, hmade.id.trans hid, hmade.spec.trans hspec, hstatus' mine⟩
    · rename_i hp
      obtain ⟨job, hjob, hrest⟩ := h.owned p' w' status' hw
      refine ⟨job, ?_, hrest⟩
      rw [hother fun href => hp (h.separate p' p w' w status' status hw hwork href.symm)]
      exact hjob
  · have hheld : ∀ {p' : Nat} {w' : Work} {status' : JobStatus},
        (Function.update stages p φ p').work = some (w', status') →
        ∃ status'', (stages p').work = some (w', status'') := by
      intro p' w' status' hw
      rw [Function.update_apply] at hw
      split at hw
      · rename_i hp
        subst hp
        obtain rfl : w' = w := (hφ _ hw).1
        exact ⟨status, hwork⟩
      · exact ⟨status', hw⟩
    obtain ⟨status₁', h₁⟩ := hheld hw₁
    obtain ⟨status₂', h₂⟩ := hheld hw₂
    exact h.separate p₁ p₂ w₁ w₂ status₁' status₂' h₁ h₂ href
  · have hids : (s.updateJob w.ref f).jobs.map TTSJob.id = s.jobs.map TTSJob.id := by
      refine List.ext_getElem? fun ref => ?_
      rw [List.getElem?_map, List.getElem?_map]
      by_cases href : w.ref = ref
      · subst href
        rw [hself, hmine]
        exact congrArg some hmade.id
      · rw [hother href]
    rw [hids]
    exact h.distinct
  · obtain ⟨job, hjob, hjobid⟩ := h.found id ref href
    obtain ⟨job', hjob', hadvances⟩ := hevolves ref job hjob
    exact ⟨job', hjob', hadvances.id.trans hjobid⟩
  · rw [Function.update_apply]
    split
    · rename_i hp
      subst hp
      exact hsound
    · exact (h.sound p').mono hevolves (List.Subset.refl _)
  · obtain ⟨ref, hjob⟩ := List.mem_iff_getElem?.mp hmem
    by_cases href : w.ref = ref
    · subst href
      obtain rfl := Option.some.inj (hself.symm.trans hjob)
      exact hwritten mine hid hspec hdone
    · rw [hother href] at hjob
      exact h.written job (List.mem_iff_getElem?.mpr ⟨ref, hjob⟩) hdone
  · obtain ⟨job, hmem, hjobid, hjoberror⟩ := h.copies id copy hcopy herror
    obtain ⟨ref, hjob⟩ := List.mem_iff_getElem?.mp hmem
    obtain ⟨job', hjob', hadvances⟩ := hevolves ref job hjob
    refine ⟨job', List.mem_iff_getElem?.mpr ⟨ref, hjob'⟩, hadvances.id.trans hjobid, ?_⟩
    have hstays := hadvances.status
    rw [hjoberror] at hstays
    cases hnew : job'.status <;> simp_all [JobStatus.mayBecome]

/-! ## §3. One answer. -/

/-- What an await leaves of the server. -/
theorem exec_await (h : Orderly W cfg stages s log) {o : Choice} {q : Command} {v : Reply q} (hq : q.isAwait = true)
    (hexec : exec W cfg o s q = some (v, s')) : Orderly W cfg stages s' log ∧ s'.jobs = s.jobs := by
  have hsame : ∀ {s'' : State}, s''.jobs = s.jobs → s''.jobStore = s.jobStore → s''.redis.jobs = s.redis.jobs →
      Orderly W cfg stages s'' log ∧ s''.jobs = s.jobs := fun hjobs hstore hcopies =>
    ⟨h.congr hjobs (fun _ _ href => hstore ▸ href) fun _ _ hcopy => .inl (hcopies ▸ hcopy), hjobs⟩
  cases q with
  | setJob ref =>
      simp only [exec] at hexec
      split at hexec
      · rename_i job hjob
        cases hexec
        refine ⟨h.congr rfl (fun _ _ href => href) fun id copy hcopy => ?_, rfl⟩
        rw [Store.lookup_insert_eq] at hcopy
        split at hcopy
        · rename_i hid
          cases hcopy
          exact .inr ⟨job, List.mem_iff_getElem?.mpr ⟨ref, hjob⟩, hid.symm, rfl⟩
        · exact .inl hcopy
      · cases hexec
  | incr key | pexpire key windowMs =>
      simp only [exec] at hexec
      split at hexec <;> cases hexec <;> exact hsame rfl rfl rfl
  | sharedCacheGet key | sharedCacheSet key buffer ttlMs | callProvider provider text voice | mkdir path
  | writeFile path buffer =>
      cases hexec
      exact hsame rfl rfl rfl
  | checkRate key windowMs | createJob spec | setProcessing ref | localCacheGet key | localCacheSet key buffer
  | setDone ref path | failJob id message | lookupJob id | resolve id path => cases hq

/-- The local cache is beside the jobs. -/
theorem cacheCall (h : Orderly W cfg stages s log) {call : CacheConfig → AudioCache → Option (Option Buffer × AudioCache)}
    {result : Option Buffer} (hcall : s.cacheCall cfg call = some (result, s')) :
    Orderly W cfg stages s' log ∧ s'.jobs = s.jobs := by
  unfold State.cacheCall at hcall
  split at hcall
  · cases hcall
    exact ⟨h, rfl⟩
  · obtain ⟨bc, -, hs'⟩ := Option.map_eq_some_iff.mp hcall
    cases hs'
    exact ⟨h.congr rfl (fun _ _ href => href) fun _ _ hcopy => .inl hcopy, rfl⟩

/-- The log grows by an answer that gives out no path. -/
theorem grow_concat (h : Orderly W cfg stages s log) (p : Nat) {x : Exchange Reply TtsError}
    (hx : ∀ id path, x ≠ ⟨.resolve id path, .ok ()⟩) : Orderly W cfg stages s (log ++ [(p, x)]) := by
  refine h.grow (List.subset_append_left _ _) fun p' id path hmem => ?_
  rcases List.mem_append.mp hmem with hold | hnew
  · exact h.resolved p' id path hold
  · cases List.mem_singleton.mp hnew
    exact absurd rfl (hx id path)

theorem stay (h : Orderly W cfg stages s log) (p : Nat) : Orderly W cfg (Function.update stages p (stages p)) s log := by
  rw [Function.update_eq_self]
  exact h

/-- A process that is working hears audio. -/
theorem hear (h : Orderly W cfg stages s log) {heard : Option (Source × Buffer)} (hp : stages p = .working w heard)
    {source : Source} {buffer : Buffer} (hprovided : Provided W cfg log p w.spec (source, buffer)) :
    Orderly W cfg (Function.update stages p ((stages p).hear source buffer)) s log := by
  rw [hp]
  refine h.move (fun x hx => ?_) hprovided
  rw [hp]
  exact hx

variable {q : Command} {r : Except TtsError (Reply q)}

/-- **The answer to an await**, or its failure: the shared copy of a finished job is written. -/
theorem answer_await (h : Orderly W cfg stages s log) (hq : q.isAwait = true) (hpermits : (stages p).permits W cfg q)
    (hpersisted : ∀ ref e, (⟨q, r⟩ : Exchange Reply TtsError) = ⟨.setJob ref, .error e⟩ → ∀ w, stages p ≠ .finished w) :
    Orderly W cfg (Function.update stages p ((stages p).next q r)) s (log ++ [(p, ⟨q, r⟩)]) := by
  have hnew : (p, ⟨q, r⟩) ∈ log ++ [(p, ⟨q, r⟩)] := List.mem_append_right _ List.mem_cons_self
  have hgrown : Orderly W cfg stages s (log ++ [(p, ⟨q, r⟩)]) := by
    refine h.grow_concat p fun id path hx => ?_
    cases hx
    cases hq
  cases q with
  | incr key | pexpire key windowMs | mkdir path | sharedCacheSet key buffer ttlMs =>
      cases r <;> exact hgrown.stay p
  | sharedCacheGet key =>
      rcases r with e | _ | buffer
      · exact hgrown.stay p
      · exact hgrown.stay p
      · obtain ⟨w, heard, hp, hkey⟩ := hpermits
        exact hgrown.hear hp ⟨key, hkey, .inr hnew⟩
  | callProvider provider text voice =>
      cases r with
      | error e => exact hgrown.stay p
      | ok buffer =>
          obtain ⟨w, heard, hp, rfl, rfl⟩ := hpermits
          exact hgrown.hear hp hnew
  | writeFile path buffer =>
      cases r with
      | error e => exact hgrown.stay p
      | ok _ =>
          obtain ⟨w, source, hp, rfl⟩ := hpermits
          have hsound := hgrown.sound p
          show Orderly W cfg (Function.update stages p (stages p).save) _ _
          rw [hp] at hsound ⊢
          refine hgrown.move (fun x hx => ?_) ⟨hsound, hnew⟩
          rw [hp]
          exact hx
  | setJob ref =>
      cases r with
      | ok _ => exact hgrown.stay p
      | error e =>
          have hsame : (stages p).unpersisted = stages p := by
            unfold Stage.unpersisted
            split
            · rename_i w hp
              exact absurd hp (hpersisted ref e rfl w)
            · rfl
          show Orderly W cfg (Function.update stages p (stages p).unpersisted) _ _
          rw [hsame]
          exact hgrown.stay p
  | checkRate key windowMs | createJob spec | setProcessing ref | localCacheGet key | localCacheSet key buffer
  | setDone ref path | failJob id message | lookupJob id | resolve id path => cases hq

/-- A job is set to processing. -/
theorem begin (h : Orderly W cfg stages s log) (hp : stages p = .created w) (now : Int)
    (hs' : s' = s.updateJob w.ref fun job => { job with status := .processing, updatedAt := now }) :
    Orderly W cfg (Function.update stages p (.working w none)) s' log ∧ Evolves s.jobs s'.jobs := by
  subst hs'
  have hwork : (stages p).work = some (w, .pending) := by rw [hp]; rfl
  refine h.update hwork (fun job hjob => ⟨rfl, rfl, by rw [hjob]; rfl, fun hdone => ?_⟩)
    (fun _ _ _ hdone => by cases hdone) (fun x hx => ?_) trivial
  · cases hjob.symm.trans hdone
  · cases hx
    exact ⟨rfl, fun _ => rfl⟩

/-- A job whose audio is saved is set to done. -/
theorem finish (h : Orderly W cfg stages s log) {heard : Source × Buffer} (hp : stages p = .saved w heard) (now : Int)
    (hs' : s' = s.updateJob w.ref fun job =>
      { job with outputPath := some (cfg.audioPath w.id), status := .done, updatedAt := now }) :
    Orderly W cfg (Function.update stages p (.finished w)) s' log ∧ Evolves s.jobs s'.jobs := by
  subst hs'
  have hsaved := h.sound p
  rw [hp] at hsaved
  have hwork : (stages p).work = some (w, .processing) := by rw [hp]; rfl
  refine h.update hwork (fun job hjob => ⟨rfl, rfl, by rw [hjob]; rfl, fun hdone => ?_⟩)
    (fun job hid hspec _ => ?_) (fun x hx => ?_) trivial
  · cases hjob.symm.trans hdone
  · refine ⟨?_, p, heard, ?_⟩
    · show some (cfg.audioPath w.id) = some (cfg.audioPath job.id)
      rw [hid]
    · show Saved W cfg log p job.id job.spec heard
      rw [hid, hspec]
      exact hsaved
  · cases hx
    exact ⟨rfl, fun _ => rfl⟩

/-- A job that is being processed is set to error. -/
theorem fail (h : Orderly W cfg stages s log) (hp : (stages p).IsUnderWay w) (now : Int) (message : String)
    (hs' : s' = s.updateJob w.ref fun job =>
      { job with status := .error, error := some message, updatedAt := now }) :
    Orderly W cfg (Function.update stages p .failed) s' log ∧ Evolves s.jobs s'.jobs := by
  subst hs'
  have hwork : (stages p).work = some (w, .processing) := by
    rcases hp with ⟨heard, hp⟩ | ⟨heard, hp⟩ <;> rw [hp] <;> rfl
  refine h.update hwork (fun job hjob => ⟨rfl, rfl, by rw [hjob]; rfl, fun hdone => ?_⟩)
    (fun _ _ _ hdone => by cases hdone) (fun x hx => by cases hx) trivial
  cases hjob.symm.trans hdone

/-- **The answer of synchronous code**, which gives new jobs new ids. -/
theorem answer_sync (h : Orderly W cfg stages s log) {o : Choice} {v : Reply q} (hq : q.isAwait = false)
    (hpermits : (stages p).permits W cfg q) (hexec : exec W cfg o s q = some (v, s'))
    (hfresh : ∀ spec, q = .createJob spec → makeId s.nowMs o.random ∉ s.jobs.map TTSJob.id) :
    Orderly W cfg (Function.update stages p ((stages p).next q (.ok v))) s' (log ++ [(p, ⟨q, .ok v⟩)])
      ∧ Evolves s.jobs s'.jobs := by
  have hnew : (p, ⟨q, .ok v⟩) ∈ log ++ [(p, ⟨q, .ok v⟩)] := List.mem_append_right _ List.mem_cons_self
  have hgrow : (∀ id path, q ≠ .resolve id path) → Orderly W cfg stages s (log ++ [(p, ⟨q, .ok v⟩)]) := by
    refine fun hne => h.grow_concat p fun id path hx => ?_
    cases hx
    exact hne id path rfl
  cases q with
  | checkRate key windowMs =>
      cases hexec
      refine ⟨Orderly.stay ?_ p, .refl _⟩
      exact (hgrow nofun).congr rfl (fun _ _ href => href) fun _ _ hcopy => .inl hcopy
  | createJob spec =>
      cases hexec
      have hidle : stages p = .idle := hpermits
      show Orderly W cfg (Function.update stages p (Stage.take _ (stages p))) _ _ ∧ _
      rw [hidle]
      exact ⟨(hgrow nofun).create rfl (hfresh spec rfl), evolves_concat _ _⟩
  | setProcessing ref =>
      obtain ⟨w, hp, rfl⟩ := hpermits
      cases hexec
      show Orderly W cfg (Function.update stages p (stages p).begin) _ _ ∧ _
      rw [hp]
      exact (hgrow nofun).begin hp s.nowMs rfl
  | localCacheGet key =>
      obtain ⟨w, heard, hp, hkey⟩ := hpermits
      have hcall : s.cacheCall cfg (fun cache c => c.call cache o.rounds (.get key s.nowMs)) = some (v, s') := hexec
      obtain ⟨hs', hjobs⟩ := (hgrow nofun).cacheCall hcall
      refine ⟨?_, hjobs ▸ .refl _⟩
      cases v with
      | none => exact hs'.stay p
      | some buffer => exact hs'.hear hp ⟨key, hkey, .inl hnew⟩
  | localCacheSet key buffer =>
      obtain ⟨⟨result, s''⟩, hcall, hs''⟩ := Option.map_eq_some_iff.mp hexec
      cases hs''
      obtain ⟨hs', hjobs⟩ := (hgrow nofun).cacheCall hcall
      exact ⟨hs'.stay p, hjobs ▸ .refl _⟩
  | setDone ref path =>
      obtain ⟨w, heard, hp, rfl, rfl⟩ := hpermits
      cases hexec
      show Orderly W cfg (Function.update stages p (stages p).finish) _ _ ∧ _
      rw [hp]
      exact (hgrow nofun).finish hp s.nowMs rfl
  | failJob id message =>
      obtain ⟨w, hheld, rfl⟩ := hpermits
      have hp : (stages p).IsUnderWay w := by
        refine hheld.resolve_right fun hstranded => ?_
        have hsound := h.sound p
        rw [hstranded] at hsound
        exact hsound
      have hover : (stages p).fail = .failed := by
        rcases hp with ⟨heard, hp⟩ | ⟨heard, hp⟩ <;> rw [hp] <;> rfl
      show Orderly W cfg (Function.update stages p (stages p).fail) _ _ ∧ _
      rw [hover]
      simp only [exec] at hexec
      split at hexec
      · -- what the store has under the id is the job of the process
        rename_i ref href
        obtain ⟨job, hjob, hid⟩ := h.found w.id ref href
        have hwork : (stages p).work = some (w, .processing) := by
          rcases hp with ⟨heard, hp⟩ | ⟨heard, hp⟩ <;> rw [hp] <;> rfl
        obtain ⟨mine, hmine, hid', -⟩ := h.owned p w .processing hwork
        obtain rfl := h.eq_of_id hjob hmine (hid.trans hid'.symm)
        cases hexec
        exact (hgrow nofun).fail hp s.nowMs message rfl
      · cases hexec
        exact ⟨(hgrow nofun).move (fun x hx => by cases hx) trivial, .refl _⟩
  | lookupJob id =>
      cases hexec
      have hidle : stages p = .idle := hpermits
      refine ⟨?_, .refl _⟩
      show Orderly W cfg (Function.update stages p ((stages p).see id (s.localJob id))) _ _
      rw [hidle]
      cases hjob : s.localJob id with
      | none => exact (hgrow nofun).move (fun x hx => by cases hx) trivial
      | some job =>
          obtain ⟨ref, href, hget⟩ := Option.bind_eq_some_iff.mp hjob
          obtain ⟨job', hjob', hid⟩ := h.found id ref href
          obtain rfl := Option.some.inj (hjob'.symm.trans hget)
          simp only [Stage.see]
          split
          · rename_i hdone
            exact (hgrow nofun).move (fun x hx => by cases hx)
              ⟨job', List.mem_iff_getElem?.mpr ⟨ref, hget⟩, hid, hdone, rfl⟩
          · exact (hgrow nofun).move (fun x hx => by cases hx) trivial
  | resolve id path =>
      cases hexec
      have hseen := h.sound p
      rw [show stages p = .seen id path from hpermits] at hseen
      refine ⟨(h.grow (List.subset_append_left _ _) fun p' id' path' hmem => ?_).stay p, .refl _⟩
      rcases List.mem_append.mp hmem with hold | hlast
      · exact h.resolved p' id' path' hold
      · cases List.mem_singleton.mp hlast
        exact hseen
  | incr key | pexpire key windowMs | setJob ref | sharedCacheGet key | sharedCacheSet key buffer ttlMs
  | callProvider provider text voice | mkdir path | writeFile path buffer => cases hq

end Orderly

/-! ## §4. Every run. -/

/-- An id that is drawn is new. -/
def FreshId (t : Transition System Action) : Prop :=
  ∀ p o spec, t.act = .answer p o → (t.pre.procs p).map (·.question) = some (.createJob spec) →
    makeId t.pre.store.nowMs o.random ∉ t.pre.store.jobs.map TTSJob.id

/-- The write of the shared copy of a job that is done does not fail. -/
def DonePersisted (t : Transition System Action) : Prop :=
  ∀ p ref job, t.act.asker = some p → (∀ o, t.act ≠ .answer p o) →
    (t.pre.procs p).map (·.question) = some (.setJob ref) → t.pre.store.jobs[ref]? = some job → job.status ≠ .done

section Runs

variable {m : System} {a : Action}

theorem Orderly.answer {stages : Nat → Stage} {s s' : State} {log : Log} {p : Nat} {q : Command}
    {r : Except TtsError (Reply q)} (h : Orderly W cfg stages s log) (ha : a.asker = some p)
    (hallows : (stageMonitor W cfg).allows (stages p) q)
    (hr : Machine.reply (server W cfg) s a q = some (s', r))
    (hfresh : ∀ o spec, a = .answer p o → q = .createJob spec → makeId s.nowMs o.random ∉ s.jobs.map TTSJob.id)
    (hpersisted : ∀ ref job, (∀ o, a ≠ .answer p o) → q = .setJob ref → s.jobs[ref]? = some job → job.status ≠ .done) :
    Orderly W cfg (Function.update stages p ((stages p).next q r)) s' (log ++ [(p, ⟨q, r⟩)])
      ∧ Evolves s.jobs s'.jobs := by
  have hpermits : (stages p).permits W cfg q := by
    refine hallows.resolve_left fun hexcused => ?_
    have hsound := h.sound p
    rw [hexcused] at hsound
    exact hsound
  -- what the server does for an await
  have hawait : ∀ o v, q.isAwait = true → exec W cfg o s q = some (v, s') →
      (∀ ref e, (⟨q, r⟩ : Exchange Reply TtsError) = ⟨.setJob ref, .error e⟩ → ∀ w, stages p ≠ .finished w) →
      Orderly W cfg (Function.update stages p ((stages p).next q r)) s' (log ++ [(p, ⟨q, r⟩)])
        ∧ Evolves s.jobs s'.jobs := by
    intro o v hq hexec hunfinished
    obtain ⟨hs', hjobs⟩ := h.exec_await hq hexec
    exact ⟨hs'.answer_await hq hpermits hunfinished, hjobs ▸ .refl _⟩
  have hunfinished : (∀ o, a ≠ .answer p o) → ∀ ref e, (⟨q, r⟩ : Exchange Reply TtsError) = ⟨.setJob ref, .error e⟩ →
      ∀ w, stages p ≠ .finished w := by
    intro hfailed ref e hx w hp
    cases hx
    obtain rfl := hpermits w hp
    obtain ⟨job, hjob, -, -, hdone⟩ := h.owned p w .done (by rw [hp]; rfl)
    exact hpersisted _ job hfailed rfl hjob hdone
  rcases Machine.reply_cases (server W cfg) ha hr with ⟨o, v, rfl, rfl, hexec⟩ | ⟨e, rfl, rfl, rfl⟩
    | ⟨o, e, v, rfl, rfl, hexec⟩
  · cases hq : q.isAwait with
    | true => exact hawait o v hq hexec fun ref e hx => by cases hx
    | false => exact h.answer_sync hq hpermits hexec fun spec hspec => hfresh o spec rfl hspec
  · have hq : q.isAwait = true := by
      by_contra hsync
      simp [Machine.reply, server, hsync] at hr
    exact ⟨h.answer_await hq hpermits (hunfinished fun _ hact => by cases hact), .refl _⟩
  · have hq : q.isAwait = true := by
      by_contra hsync
      simp [Machine.reply, server, hsync] at hr
    exact hawait o v hq hexec (hunfinished fun _ hact => by cases hact)

/-- **One step.** -/
theorem Orderly.step (h : Orderly W cfg (m.phase (stageMonitor W cfg)) m.store m.log)
    (hm : Machine.Monitored (stageMonitor W cfg) m) (hfresh : FreshId ⟨m, a, Tts.step W cfg m a⟩)
    (hpersisted : DonePersisted ⟨m, a, Tts.step W cfg m a⟩) :
    Orderly W cfg ((Tts.step W cfg m a).phase (stageMonitor W cfg)) (Tts.step W cfg m a).store (Tts.step W cfg m a).log
      ∧ Evolves m.store.jobs (Tts.step W cfg m a).store.jobs := by
  refine Machine.phases_step (I := fun stages s log => Orderly W cfg stages s log ∧ Evolves m.store.jobs s.jobs) hm
    ⟨h, .refl _⟩ (fun stages s log p hI => ⟨hI.1.move (fun x hx => by cases hx) trivial, hI.2⟩)
    (fun p q s' r ha hq hallows hr => ?_) fun w _ => ?_
  · refine h.answer ha hallows hr (fun o spec hact hspec => ?_) fun ref job hfailed hset hjob => ?_
    · subst hspec
      exact hfresh p o spec hact hq
    · subst hset
      exact hpersisted p ref job ha hfailed hq hjob
  · cases w with
    | tick ms => exact ⟨h.congr rfl (fun _ _ href => href) fun _ _ hcopy => .inl hcopy, .refl _⟩
    | evictExpiredJobs =>
        refine ⟨h.congr rfl (fun id ref href => ?_) fun _ _ hcopy => .inl hcopy, .refl _⟩
        exact (Option.filter_eq_some_iff.mp ((Store.lookup_deleteWhere _ _ _).symm.trans href)).1

theorem orderly_initial (now : Int) : Orderly W cfg (fun _ => .idle) (State.initial now) [] where
  owned p w status hw := by cases hw
  separate p p' w w' status status' hw := by cases hw
  distinct := List.nodup_nil
  found id ref href := by cases href
  sound p := trivial
  written job hmem := by cases hmem
  resolved p id path hmem := by cases hmem
  copies id copy hcopy := by cases hcopy

/-- **Every run** in which ids are new and finished jobs are persisted. -/
theorem orderly_run (now : Int) (as : List Action)
    (hsteps : ∀ t ∈ trace (step W cfg) (Machine.idle (State.initial now)) as, FreshId t ∧ DonePersisted t) :
    Orderly W cfg ((Foundation.run (step W cfg) (Machine.idle (State.initial now)) as).phase (stageMonitor W cfg))
      (Foundation.run (step W cfg) (Machine.idle (State.initial now)) as).store
      (Foundation.run (step W cfg) (Machine.idle (State.initial now)) as).log := by
  induction as using List.reverseRecOn with
  | nil =>
      exact orderly_initial now
  | append_singleton as a ih =>
      rw [trace_concat] at hsteps
      rw [run_concat]
      obtain ⟨hfresh, hpersisted⟩ := hsteps _ (List.mem_append_right _ List.mem_cons_self)
      exact ((ih fun t ht => hsteps t (List.mem_append_left _ ht)).step (monitored now as) hfresh hpersisted).1

/-- What is asked of a run: statuses go one way, a job that is done has an
output path to which its audio was written, and a path that was given out is
that of a job which is never reported as failed. -/
structure OneWay (W : Setting) (cfg : TTSConfig) (now : Int) (as : List Action) : Prop where
  moves : ∀ t ∈ trace (step W cfg) (Machine.idle (State.initial now)) as, ∀ id job job',
    t.pre.store.localJob id = some job → t.post.store.localJob id = some job' → job.status.mayBecome job'.status = true
  written : ∀ id job, (Foundation.run (step W cfg) (Machine.idle (State.initial now)) as).store.localJob id = some job →
    job.status = .done → Written W cfg (Foundation.run (step W cfg) (Machine.idle (State.initial now)) as).log job
  resolved : ∀ p id path,
    (p, ⟨.resolve id path, .ok ()⟩) ∈ (Foundation.run (step W cfg) (Machine.idle (State.initial now)) as).log →
    path = some (cfg.audioPath id)
      ∧ (∀ job, (Foundation.run (step W cfg) (Machine.idle (State.initial now)) as).store.localJob id = some job →
        job.status ≠ .error)
      ∧ ∀ copy, (Foundation.run (step W cfg) (Machine.idle (State.initial now)) as).store.redis.jobs.lookup id = some copy →
        copy.value.status ≠ .error

theorem Orderly.localJob (h : Orderly W cfg stages s log) (hjob : s.localJob id = some job) :
    job.id = id ∧ ∃ ref : Nat, s.jobs[ref]? = some job := by
  obtain ⟨ref, href, hget⟩ := Option.bind_eq_some_iff.mp hjob
  obtain ⟨job', hjob', hid⟩ := h.found id ref href
  obtain rfl := Option.some.inj (hjob'.symm.trans hget)
  exact ⟨hid, ref, hget⟩

/-- A path that was given out is that of a job that is not reported as failed. -/
theorem Orderly.not_failed (h : Orderly W cfg stages s log) {path : Option String}
    (hlog : (p, ⟨.resolve id path, .ok ()⟩) ∈ log) :
    path = some (cfg.audioPath id) ∧ (∀ job, s.localJob id = some job → job.status ≠ .error)
      ∧ ∀ copy, s.redis.jobs.lookup id = some copy → copy.value.status ≠ .error := by
  obtain ⟨job, hmem, hid, hdone, hpath⟩ := h.resolved p id path hlog
  have hnot : ∀ job' ∈ s.jobs, job'.id = id → job'.status ≠ .error := by
    intro job' hmem' hid' herror
    obtain ⟨ref, hjob⟩ := List.mem_iff_getElem?.mp hmem
    obtain ⟨ref', hjob'⟩ := List.mem_iff_getElem?.mp hmem'
    obtain rfl := h.eq_of_id hjob hjob' (hid.trans hid'.symm)
    obtain rfl := Option.some.inj (hjob.symm.trans hjob')
    cases hdone.symm.trans herror
  refine ⟨?_, fun job' hjob' => ?_, fun copy hcopy herror => ?_⟩
  · rw [← hpath, ← hid]
    exact (h.written job hmem hdone).1
  · obtain ⟨hid', ref, hget⟩ := h.localJob hjob'
    exact hnot job' (List.mem_iff_getElem?.mpr ⟨ref, hget⟩) hid'
  · obtain ⟨job', hmem', hid', herror'⟩ := h.copies id copy hcopy herror
    exact hnot job' hmem' hid' herror'

/-- **Jobs are one-way** in every run in which ids are new and the write of the
shared copy of a finished job does not fail. -/
theorem jobs_one_way (W : Setting) (cfg : TTSConfig) (now : Int) (as : List Action)
    (hsteps : ∀ t ∈ trace (step W cfg) (Machine.idle (State.initial now)) as, FreshId t ∧ DonePersisted t) :
    OneWay W cfg now as where
  moves t ht id job job' hjob hjob' := by
    obtain ⟨bs, cs, rfl, hpre, hpost⟩ := mem_trace _ ht
    have hprefix := hsteps
    rw [trace_append] at hprefix
    have horderly := orderly_run now bs fun t ht => hprefix t (List.mem_append_left _ ht)
    obtain ⟨hfresh, hpersisted⟩ := hsteps t ht
    rw [hpre] at hjob hpost
    have ht' : t = ⟨Foundation.run (step W cfg) (Machine.idle (State.initial now)) bs, t.act,
        step W cfg (Foundation.run (step W cfg) (Machine.idle (State.initial now)) bs) t.act⟩ := by
      rw [← hpost, ← hpre]
    rw [ht'] at hfresh hpersisted
    obtain ⟨hafter, hevolves⟩ := horderly.step (monitored now bs) hfresh hpersisted
    rw [hpost] at hjob'
    obtain ⟨hid, ref, hget⟩ := horderly.localJob hjob
    obtain ⟨hid', ref', hget'⟩ := hafter.localJob hjob'
    obtain ⟨new, hnew, hadvances⟩ := hevolves ref job hget
    obtain rfl := hafter.eq_of_id hnew hget' (hadvances.id.trans (hid.trans hid'.symm))
    obtain rfl := Option.some.inj (hnew.symm.trans hget')
    exact hadvances.status
  written id job hjob hdone := by
    have horderly := orderly_run now as hsteps
    obtain ⟨-, ref, hget⟩ := horderly.localJob hjob
    exact horderly.written job (List.mem_iff_getElem?.mpr ⟨ref, hget⟩) hdone
  resolved p id path hlog := (orderly_run now as hsteps).not_failed hlog

end Runs

/-! ## §5. A job that ends twice. -/

/-- Providers that answer with the text. -/
@[reducible] def sampleSetting : Setting where
  sha256Hex text := text
  sha256Hex_injective _ _ h := h
  elevenlabs text _ := text.toList.map fun c => UInt8.ofNat c.toNat
  google text _ _ := text.toList.map fun c => UInt8.ofNat c.toNat

/-- One provider, and a store of jobs that replicas share. -/
def sampleConfig : TTSConfig := ⟨.google, false, true, "audio", none, none, none, ⟨true, false, false⟩, 3600000⟩

def sampleVoice : TTSVoice := ⟨"en-US-Neural2-A", "en-US", "Ada"⟩

/-- The job is created, processed and done; what is left is to persist it. -/
def sampleUntilDone : List Action :=
  .start 0 (.enqueueAsync ⟨"Hello", sampleVoice, none, none, none, none⟩)
    :: List.replicate 8 (.answer 0 ⟨"k3x9ab", 0⟩)

/-- The caller of `generate` polls. -/
def samplePoll : List Action :=
  [.start 1 (.waitTick "tts_0_k3x9ab" 0 60000), .answer 1 ⟨"", 0⟩, .answer 1 ⟨"", 0⟩]

def samplePersisted : List Action := sampleUntilDone ++ samplePoll ++ [.answer 0 ⟨"", 0⟩]

/-- The write of the shared copy fails, and the error is handled. -/
def sampleUnpersisted : List Action :=
  sampleUntilDone ++ samplePoll ++ [.refuse 0 (.other "connection reset"), .answer 0 ⟨"", 0⟩]

/-- A step that draws no id that is taken. -/
def drawsFresh (t : Transition System Action) : Bool :=
  match t.act with
  | .answer p o =>
      match (t.pre.procs p).map Live.question with
      | some (Command.createJob _) => !(t.pre.store.jobs.map TTSJob.id).contains (makeId t.pre.store.nowMs o.random)
      | _ => true
  | _ => true

theorem freshId_of_drawsFresh {t : Transition System Action} (h : drawsFresh t = true) : FreshId t := by
  intro p o spec hact hq hmem
  have hquestion : (t.pre.procs p).map Live.question = some (Command.createJob spec) := hq
  simp only [drawsFresh, hact, hquestion] at h
  simp [hmem] at h

/-- A path was given out. -/
def gaveOut (log : Log) (p : Nat) (id : String) (path : Option String) : Bool :=
  log.any fun x =>
    match x with
    | (p', ⟨.resolve id' path', .ok ()⟩) => p' = p && id' = id && path' = path
    | _ => false

theorem mem_of_gaveOut {log : Log} {p : Nat} {id : String} {path : Option String} (h : gaveOut log p id path = true) :
    (p, ⟨.resolve id path, .ok ()⟩) ∈ log := by
  obtain ⟨x, hmem, hx⟩ := List.any_eq_true.mp h
  split at hx
  · simp only [Bool.and_eq_true, decide_eq_true_eq] at hx
    obtain ⟨⟨rfl, rfl⟩, rfl⟩ := hx
    exact hmem
  · cases hx

theorem samplePersisted_oneWay : OneWay sampleSetting sampleConfig 0 samplePersisted
    ∧ (1, ⟨.resolve "tts_0_k3x9ab" (some "audio/tts_0_k3x9ab.mp3"), .ok ()⟩)
      ∈ (Foundation.run (step sampleSetting sampleConfig) (Machine.idle (State.initial 0)) samplePersisted).log := by
  have hfresh : (trace (step sampleSetting sampleConfig) (Machine.idle (State.initial 0)) samplePersisted).all
      drawsFresh = true := by
    decide +kernel
  have hanswered : samplePersisted.all (fun a => match a with | .refuse .. | .lose .. => false | _ => true) = true := by
    decide +kernel
  refine ⟨jobs_one_way sampleSetting sampleConfig 0 samplePersisted fun t ht =>
    ⟨freshId_of_drawsFresh (List.all_eq_true.mp hfresh t ht), fun p ref job hasker hfailed => ?_⟩, ?_⟩
  · have hact := List.all_eq_true.mp hanswered t.act (act_mem_of_mem_trace _ ht)
    cases ha : t.act with
    | answer p' o =>
        rw [ha] at hasker
        cases hasker
        exact absurd ha (hfailed o)
    | refuse p' e | lose p' o e =>
        rw [ha] at hact
        cases hact
    | start p' task | crash p' | outside w =>
        rw [ha] at hasker
        cases hasker
  · exact mem_of_gaveOut (by decide +kernel)

/-- **The caller has the path, and the job is set to error.** -/
theorem sampleUnpersisted_fails : ¬OneWay sampleSetting sampleConfig 0 sampleUnpersisted := by
  intro h
  have hlog : (1, ⟨.resolve "tts_0_k3x9ab" (some "audio/tts_0_k3x9ab.mp3"), .ok ()⟩)
      ∈ (Foundation.run (step sampleSetting sampleConfig) (Machine.idle (State.initial 0)) sampleUnpersisted).log :=
    mem_of_gaveOut (by decide +kernel)
  have hfailed : ((Foundation.run (step sampleSetting sampleConfig) (Machine.idle (State.initial 0))
      sampleUnpersisted).store.localJob "tts_0_k3x9ab").map TTSJob.status = some .error := by
    decide +kernel
  obtain ⟨job, hjob, herror⟩ := Option.map_eq_some_iff.mp hfailed
  exact (h.resolved 1 _ _ hlog).2.1 job hjob herror

end PredictIQ.Tts
