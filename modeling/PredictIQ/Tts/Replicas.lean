/-
  PredictIQ.Tts.Replicas: replicas of the service behind one Redis.

  A replica is a machine of its own, with its own maps and processes; Redis and
  the clock are common.  It may restart at any time, and then knows of no job.
  A read is a function of the states that it finds: `getJobAsync` looks at the
  map of its replica, and Redis answers later; `listJobsAsync` asks for the
  keys first and for the values later.  `Records` holds in every run: whatever
  is stored was created, once, for a request that had been let in.
-/
import PredictIQ.Tts.OneWay

namespace PredictIQ.Tts

open Foundation

/-! ## §1. Reads. -/

section Reads

variable (cfg : TTSConfig)

/-- `_resolveOwner` in a read. -/
def ownerOf (credential : Option String) : Except TtsError String :=
  match cfg.auth with
  | none => .ok "anonymous"
  | some authenticate => authenticate credential

/-- The copies that have not expired, under `tts:job:`. -/
def State.sharedJob (s : State) (id : String) : Option TTSJob :=
  ((s.redis.jobs.lookup id).filter fun copy => decide (s.nowMs < copy.expiresAt)).map Expiring.value

/-- `KEYS tts:job:*`. -/
def State.sharedIds (s : State) (order : RowOrder String) : List String :=
  order.walk ((s.redis.jobs.entries.filter fun e => decide (s.nowMs < e.2.expiresAt)).map (·.1))

def hasStatus (status : Option JobStatus) (job : TTSJob) : Bool := status.all (job.status = ·)

/-- `RedisJobStore.listJobs`, of which the keys are read first. -/
def sharedJobs (order : RowOrder String) (atKeys atValues : State) (status : Option JobStatus) : List TTSJob :=
  ((atKeys.sharedIds order).filterMap atValues.sharedJob).filter (hasStatus status)

def getJob (s : State) (id : String) (credential : Option String) : Except TtsError (Option TTSJob) := do
  let owner ← ownerOf cfg credential
  pure ((s.localJob id).filter fun job => job.spec.owner = owner)

/-- `remote` is what the shared store answers, if it is asked. -/
def getJobAsync (s : State) (remote : Except TtsError (Option TTSJob)) (id : String) (credential : Option String) :
    Except TtsError (Option TTSJob) := do
  let owner ← ownerOf cfg credential
  match s.localJob id with
  | some job => pure (if job.spec.owner = owner then some job else none)
  | none =>
      let found ← if cfg.sharedStore.jobStore then remote else pure none
      pure (found.filter fun job => job.spec.owner = owner)

/-- The map is walked in any order. -/
def listJobs (order : RowOrder String) (s : State) (status : Option JobStatus) (credential : Option String) :
    Except TtsError (List TTSJob) := do
  let owner ← ownerOf cfg credential
  let all := ((order.walk s.jobStore.keys).filterMap s.localJob).filter fun job => job.spec.owner = owner
  pure (all.filter (hasStatus status))

/-- `remote` is what the shared store lists, if there is one. -/
def listJobsAsync (order : RowOrder String) (s : State) (remote : Except TtsError (List TTSJob))
    (status : Option JobStatus) (credential : Option String) : Except TtsError (List TTSJob) := do
  let owner ← ownerOf cfg credential
  if cfg.sharedStore.jobStore then
    let all ← remote
    pure (all.filter fun job => job.spec.owner = owner)
  else listJobs cfg order s status credential

/-- What a request asks for, if it is let in. -/
def specOf (r : Request) : Except TtsError JobSpec := do
  let owner ← ownerOf cfg r.credential
  let sanitized ← sanitizeInput r.text
  pure ⟨sanitized, r.voice, r.provider.getD cfg.provider, r.bypassCache.getD false, owner⟩

end Reads

def Task.request : Task → Option Request
  | .enqueue r | .enqueueAsync r => some r
  | .waitTick .. => none

/-! ## §2. Replicas. -/

structure Cluster where
  nowMs : Int
  redis : Redis
  replicas : Nat → System

/-- A replica, with Redis and the clock as it finds them. -/
def Cluster.replica (c : Cluster) (i : Nat) : System :=
  { c.replicas i with store := { (c.replicas i).store with nowMs := c.nowMs, redis := c.redis } }

def Cluster.initial (now : Int) : Cluster := ⟨now, ⟨∅, ∅, ∅⟩, fun _ => Machine.idle (State.initial now)⟩

/-- A replica takes a step, or restarts. -/
inductive ClusterAction where
  | on (i : Nat) (a : Action)
  | restart (i : Nat)

section Steps

variable (W : Setting) (cfg : TTSConfig)

/-- Put a replica back, and what it has done to Redis and the clock. -/
def Cluster.put (c : Cluster) (i : Nat) (m : System) : Cluster where
  nowMs := m.store.nowMs
  redis := m.store.redis
  replicas := Function.update c.replicas i m

/-- A replica that restarts finds its files, and nothing else. -/
def Cluster.step (c : Cluster) : ClusterAction → Cluster
  | .on i a => c.put i (Tts.step W cfg (c.replica i) a)
  | .restart i =>
      c.put i (Machine.idle
        { State.initial c.nowMs with files := (c.replica i).store.files, redis := c.redis })

/-- All other replicas find what it has done to Redis, and the clock. -/
theorem Cluster.replica_put (c : Cluster) (i j : Nat) (m : System) :
    (c.put j m).replica i = if i = j then m
      else { c.replica i with
        store := { (c.replica i).store with nowMs := m.store.nowMs, redis := m.store.redis } } := by
  unfold replica put
  by_cases hij : i = j
  · subst hij
    simp
  · simp [hij]

def Cluster.after (now : Int) (as : List ClusterAction) : Cluster := run (Cluster.step W cfg) (.initial now) as

/-- The job that a step creates: its id, and what it is to do. -/
def born (t : Transition Cluster ClusterAction) : Option (String × JobSpec) :=
  match t.act with
  | .on i (.answer p o) =>
      match ((t.pre.replica i).procs p).map Live.question with
      | some (.createJob spec) => some (makeId t.pre.nowMs o.random, spec)
      | _ => none
  | _ => none

/-- The jobs of a run. -/
def births (now : Int) (as : List ClusterAction) : List (String × JobSpec) :=
  (trace (Cluster.step W cfg) (.initial now) as).filterMap born

end Steps

/-- A task was started somewhere. -/
def Started (as : List ClusterAction) (task : Task) : Prop := ∃ i p, ClusterAction.on i (.start p task) ∈ as

/-- A question creates a job only as a task asks for it. -/
def Wanted (cfg : TTSConfig) (task : Task) (q : Command) : Prop :=
  ∀ spec, q = .createJob spec → ∃ r, task.request = some r ∧ specOf cfg r = .ok spec

/-- A request was made that asks for this. -/
def Requested (cfg : TTSConfig) (as : List ClusterAction) (spec : JobSpec) : Prop :=
  ∃ task r, Started as task ∧ task.request = some r ∧ specOf cfg r = .ok spec

/-! ## §3. What tasks ask for. -/

section Questions

variable {W : Setting} {cfg : TTSConfig} {S : Command → Prop}

def Command.createsJob : Command → Bool
  | .createJob _ => true
  | _ => false

/-- All questions are allowed but those that create a job. -/
def Uncreating (S : Command → Prop) : Prop := ∀ q : Command, q.createsJob = false → S q

theorem Uncreating.ask (hS : Uncreating S) {q : Command} (hq : q.createsJob = false) : (ask q).Uses S :=
  Prog.uses_call.mpr (hS q hq)

theorem uses_persistJob (hS : Uncreating S) (ref : Nat) : (persistJob cfg ref).Uses S := by
  unfold persistJob
  split
  · exact hS.ask rfl
  · exact Prog.uses_pure _

theorem uses_callProvider (hS : Uncreating S) (p : TTSProvider) (text : String) (voice : TTSVoice) :
    (callProvider cfg p text voice).Uses S := by
  unfold callProvider
  split
  · exact hS.ask rfl
  · exact Prog.uses_fail _

theorem uses_generateWithFallback (hS : Uncreating S) (spec : JobSpec) : (generateWithFallback cfg spec).Uses S := by
  unfold generateWithFallback
  refine (uses_callProvider hS ..).attempt.bind fun primary => ?_
  cases primary with
  | ok buffer => exact Prog.uses_pure _
  | error primaryErr =>
      dsimp only
      split
      · exact Prog.uses_fail _
      · refine (uses_callProvider hS ..).attempt.bind fun fallback => ?_
        cases fallback with
        | ok buffer => exact Prog.uses_pure _
        | error fallbackErr => exact Prog.uses_fail _

theorem uses_finish (hS : Uncreating S) (ref : Nat) (id : String) (buffer : Buffer) :
    (finish cfg ref id buffer).Uses S := by
  unfold finish saveAudio
  refine Prog.Uses.bind ((hS.ask rfl).bind fun _ => (hS.ask rfl).bind fun _ => Prog.uses_pure _) fun path => ?_
  exact (hS.ask rfl).bind fun _ => uses_persistJob hS ref

theorem uses_process (hS : Uncreating S) (ref : Nat) (id : String) (spec : JobSpec) :
    (process W cfg ref id spec).Uses S := by
  have hgenerate : ∀ f : Buffer → TtsM Unit, (∀ buffer, (f buffer).Uses S) →
      (generateWithFallback cfg spec >>= f).Uses S := fun f hf => (uses_generateWithFallback hS spec).bind hf
  unfold process
  refine (hS.ask rfl).bind fun _ => (uses_persistJob hS ref).bind fun _ => ?_
  split
  · exact hgenerate _ fun buffer => uses_finish hS ..
  · refine Prog.Uses.bind (by unfold cacheGet; split <;> exact hS.ask rfl) fun cached => ?_
    cases cached with
    | some buffer => exact uses_finish hS ..
    | none =>
        refine hgenerate _ fun buffer => Prog.Uses.bind ?_ fun _ => uses_finish hS ..
        unfold cacheSet
        split <;> exact hS.ask rfl

theorem uses_background (hS : Uncreating S) (ref : Nat) (id : String) (spec : JobSpec) :
    (background W cfg ref id spec).Uses S := by
  unfold background
  refine (uses_process hS ..).attempt.bind fun result => ?_
  cases result with
  | ok _ => exact Prog.uses_pure _
  | error err =>
      refine Prog.Uses.bind (hS.ask rfl) fun found => ?_
      cases found with
      | none => exact Prog.uses_pure _
      | some ref => exact (uses_persistJob hS ref).attempt.bind fun _ => Prog.uses_pure _

theorem uses_limitRate (hS : Uncreating S) (isShared : Bool) (key : Option String) :
    (limitRate cfg isShared key).Uses S := by
  have hcheck : ∀ (count : Nat) (key : String) (limit : RateLimitConfig), Prog.Uses S
      (if (count : Int) > limit.maxRequests then .fail (rateLimitError key count limit) else pure () : TtsM Unit) := by
    intro count key limit
    split
    · exact Prog.uses_fail _
    · exact Prog.uses_pure _
  unfold limitRate
  split
  · exact Prog.uses_pure _
  · split
    · exact Prog.uses_pure _
    · split
      · refine Prog.Uses.bind ((hS.ask rfl).bind fun count => ?_) fun count => hcheck count _ _
        split
        · exact (hS.ask rfl).bind fun _ => Prog.uses_pure _
        · exact Prog.uses_pure _
      · exact (hS.ask rfl).bind fun count => hcheck count _ _

/-- The owner that a request resolves to is that of its job. -/
theorem uses_resolveOwner_bind {credential : Option String} {f : String → TtsM Unit}
    (hf : ∀ owner, ownerOf cfg credential = .ok owner → (f owner).Uses S) :
    (resolveOwner cfg credential >>= f).Uses S := by
  unfold resolveOwner
  unfold ownerOf at hf
  cases hauth : cfg.auth with
  | none =>
      rw [hauth] at hf
      exact hf "anonymous" rfl
  | some authenticate =>
      rw [hauth] at hf
      dsimp only at hf ⊢
      cases howner : authenticate credential with
      | ok owner => exact hf owner howner
      | error e => exact Prog.uses_done _

theorem uncreating_wanted (task : Task) : Uncreating (Wanted cfg task) := by
  rintro _ hq spec rfl
  cases hq

theorem uses_createJob_bind {task : Task} {r : Request} {owner : String} (htask : task.request = some r)
    (howner : ownerOf cfg r.credential = .ok owner) {f : Nat × TTSJob → TtsM Unit}
    (hf : ∀ created, (f created).Uses (Wanted cfg task)) :
    (createJob cfg r owner >>= f).Uses (Wanted cfg task) := by
  refine Prog.Uses.bind ?_ hf
  unfold createJob
  cases hsanitized : sanitizeInput r.text with
  | error e => exact Prog.uses_done _
  | ok sanitized =>
      refine Prog.uses_call.mpr fun spec hspec => ⟨r, htask, ?_⟩
      cases hspec
      unfold specOf
      rw [howner, hsanitized]
      rfl

/-- **Every task** creates a job only as its request asks for it. -/
theorem uses_body (p : Nat) (task : Task) : (body W cfg p task).Uses (Wanted cfg task) := by
  have hS : Uncreating (Wanted cfg task) := uncreating_wanted task
  cases task with
  | enqueue r =>
      exact uses_resolveOwner_bind fun owner howner => (uses_limitRate hS _ _).bind fun _ =>
        uses_createJob_bind rfl howner fun created => uses_background hS ..
  | enqueueAsync r =>
      exact uses_resolveOwner_bind fun owner howner => (uses_limitRate hS _ _).bind fun _ =>
        uses_createJob_bind rfl howner fun created => (uses_persistJob hS _).bind fun _ => uses_background hS ..
  | waitTick id start timeoutMs =>
      refine (hS.ask rfl).bind fun found => ?_
      cases found.1 with
      | none => exact Prog.uses_fail _
      | some job =>
          dsimp only
          split
          · exact hS.ask rfl
          · exact Prog.uses_fail _
          · split
            · exact Prog.uses_fail _
            · exact Prog.uses_pure _

end Questions

/-! ## §4. What a question does to the jobs. -/

/-- Nothing, or it creates a job, or it changes what a job has come to, or it
writes the shared copy of one. -/
inductive JobEffect (o : Choice) (s s' : State) (q : Command) : Prop where
  | nothing (jobs : s'.jobs = s.jobs) (found : s'.jobStore = s.jobStore) (copies : s'.redis.jobs = s.redis.jobs)
  | created (spec : JobSpec) (question : q = .createJob spec)
      (jobs : s'.jobs = s.jobs ++ [⟨makeId s.nowMs o.random, spec, .pending, none, none, s.nowMs, s.nowMs⟩])
      (found : s'.jobStore = s.jobStore.insert (makeId s.nowMs o.random) s.jobs.length)
      (copies : s'.redis.jobs = s.redis.jobs)
  | updated (ref : Nat) (f : TTSJob → TTSJob) (keeps : ∀ job, (f job).id = job.id ∧ (f job).spec = job.spec)
      (jobs : s'.jobs = s.jobs.modify ref f) (found : s'.jobStore = s.jobStore)
      (copies : s'.redis.jobs = s.redis.jobs)
  | persisted (ref : Nat) (job : TTSJob) (question : q = .setJob ref) (stored : s.jobs[ref]? = some job)
      (jobs : s'.jobs = s.jobs) (found : s'.jobStore = s.jobStore)
      (copies : s'.redis.jobs = s.redis.jobs.insert job.id ⟨job, s.nowMs + 86400000⟩)

section Effects

variable {W : Setting} {cfg : TTSConfig} {s s' : State} {o : Choice} {q : Command}

/-- The local cache is beside the jobs and the clock. -/
theorem cacheCall_jobs {call : CacheConfig → AudioCache → Option (Option Buffer × AudioCache)} {result : Option Buffer}
    (hcall : s.cacheCall cfg call = some (result, s')) : s'.nowMs = s.nowMs ∧ JobEffect o s s' q := by
  unfold State.cacheCall at hcall
  split at hcall
  · cases hcall
    exact ⟨rfl, .nothing rfl rfl rfl⟩
  · obtain ⟨bc, -, hs'⟩ := Option.map_eq_some_iff.mp hcall
    cases hs'
    exact ⟨rfl, .nothing rfl rfl rfl⟩

theorem exec_jobs {v : Reply q} (hexec : exec W cfg o s q = some (v, s')) :
    s'.nowMs = s.nowMs ∧ JobEffect o s s' q := by
  have hupdate : ∀ (ref : Nat) (f : TTSJob → TTSJob), (∀ job, (f job).id = job.id ∧ (f job).spec = job.spec) →
      s' = s.updateJob ref f → s'.nowMs = s.nowMs ∧ JobEffect o s s' q := by
    rintro ref f hf rfl
    exact ⟨rfl, .updated ref f hf rfl rfl rfl⟩
  cases q with
  | createJob spec =>
      cases hexec
      exact ⟨rfl, .created spec rfl rfl rfl rfl⟩
  | setJob ref =>
      simp only [exec] at hexec
      split at hexec
      · rename_i job hjob
        cases hexec
        exact ⟨rfl, .persisted ref job rfl hjob rfl rfl rfl⟩
      · cases hexec
  | setProcessing ref =>
      cases hexec
      refine hupdate ref _ ?_ rfl
      exact fun job => ⟨rfl, rfl⟩
  | setDone ref path =>
      cases hexec
      refine hupdate ref _ ?_ rfl
      exact fun job => ⟨rfl, rfl⟩
  | failJob id message =>
      simp only [exec] at hexec
      split at hexec
      · rename_i ref href
        cases hexec
        refine hupdate ref _ ?_ rfl
        exact fun job => ⟨rfl, rfl⟩
      · cases hexec
        exact ⟨rfl, .nothing rfl rfl rfl⟩
  | localCacheGet key =>
      have hcall : s.cacheCall cfg (fun cache c => c.call cache o.rounds (.get key s.nowMs)) = some (v, s') := hexec
      exact cacheCall_jobs hcall
  | localCacheSet key buffer =>
      obtain ⟨bs, hcall, hs'⟩ := Option.map_eq_some_iff.mp hexec
      cases hs'
      exact cacheCall_jobs hcall
  | incr key | pexpire key windowMs =>
      simp only [exec] at hexec
      split at hexec <;> cases hexec <;> exact ⟨rfl, .nothing rfl rfl rfl⟩
  | checkRate key windowMs | sharedCacheGet key | sharedCacheSet key buffer ttlMs | callProvider provider text voice
  | mkdir path | writeFile path buffer | lookupJob id | resolve id path =>
      cases hexec
      exact ⟨rfl, .nothing rfl rfl rfl⟩

variable (W cfg) in
/-- What a step of a replica does: nothing to the stores, or a question's
effect, or the outside's.  A job is created when its question is answered. -/
theorem step_jobs (m : System) (a : Action) :
    (Tts.step W cfg m a).store = m.store
      ∨ (∃ p o q, (m.procs p).map Live.question = some q ∧ (Tts.step W cfg m a).store.nowMs = m.store.nowMs
        ∧ JobEffect o m.store (Tts.step W cfg m a).store q ∧ ∀ spec, q = .createJob spec → a = .answer p o)
      ∨ ∃ w, a = .outside w ∧ (Tts.step W cfg m a).store = outside cfg w m.store := by
  rcases m.step_cases (server W cfg) (body W cfg) (outside cfg) a with hstep | ⟨p, task, rfl, -, hstep⟩
    | ⟨p, l, s, r, ha, hl, hr, hstep⟩ | ⟨p, rfl, hstep⟩ | ⟨w, rfl, hstep⟩
  · exact .inl (congrArg Machine.store hstep)
  · exact .inl ((congrArg Machine.store hstep).trans rfl)
  · have hstore : (Tts.step W cfg m a).store = s := congrArg Machine.store hstep
    rw [hstore]
    have hquestion : (m.procs p).map Live.question = some l.question := by rw [hl]; rfl
    rcases Machine.reply_cases (server W cfg) ha hr with ⟨o, v, rfl, -, hexec⟩ | ⟨e, -, -, rfl⟩
      | ⟨o, e, v, rfl, -, hexec⟩
    · obtain ⟨hnow, heffect⟩ := exec_jobs hexec
      exact .inr (.inl ⟨p, o, _, hquestion, hnow, heffect, fun _ _ => rfl⟩)
    · exact .inl rfl
    · obtain ⟨hnow, heffect⟩ := exec_jobs hexec
      refine .inr (.inl ⟨p, o, _, hquestion, hnow, heffect, fun spec hspec => ?_⟩)
      -- the answer of synchronous code is not lost
      simp [Machine.reply, server, hspec, Command.isAwait] at hr
  · exact .inl ((congrArg Machine.store hstep).trans rfl)
  · exact .inr (.inr ⟨w, rfl, congrArg Machine.store hstep⟩)

end Effects

/-! ## §5. The jobs of a run. -/

/-- Whatever is stored of a job is what was created under its id. -/
structure Records (created : List (String × JobSpec)) (s : State) : Prop where
  jobs : ∀ job ∈ s.jobs, (job.id, job.spec) ∈ created
  found : ∀ id ref, s.jobStore.lookup id = some ref → ∃ job, s.jobs[ref]? = some job ∧ job.id = id
  copies : ∀ id copy, s.redis.jobs.lookup id = some copy → copy.value.id = id ∧ (id, copy.value.spec) ∈ created

section Records

variable {W : Setting} {cfg : TTSConfig} {created created' : List (String × JobSpec)} {s s' : State} {o : Choice}
  {q : Command}

theorem Records.mono (h : Records created s) (hcreated : created ⊆ created') : Records created' s where
  jobs job hjob := hcreated (h.jobs job hjob)
  found := h.found
  copies id copy hcopy := ⟨(h.copies id copy hcopy).1, hcreated (h.copies id copy hcopy).2⟩

/-- **A question** keeps the records, once what it creates is among the jobs. -/
theorem Records.effect (h : Records created s) (heffect : JobEffect o s s' q)
    (hborn : ∀ spec, q = .createJob spec → (makeId s.nowMs o.random, spec) ∈ created) : Records created s' := by
  cases heffect with
  | nothing hjobs hfound hcopies =>
      exact ⟨by rw [hjobs]; exact h.jobs, by rw [hjobs, hfound]; exact h.found, by rw [hcopies]; exact h.copies⟩
  | created spec hspec hjobs hfound hcopies =>
      refine ⟨fun job hjob => ?_, fun id ref href => ?_, by rw [hcopies]; exact h.copies⟩
      · rw [hjobs, List.mem_append, List.mem_singleton] at hjob
        rcases hjob with hold | rfl
        · exact h.jobs job hold
        · exact hborn spec hspec
      · rw [hfound, Store.lookup_insert_eq] at href
        rw [hjobs]
        split at href
        · rename_i hid
          cases href
          exact ⟨_, List.getElem?_concat_length, hid.symm⟩
        · obtain ⟨job, hjob, hid⟩ := h.found id ref href
          exact ⟨job, getElem?_concat hjob _, hid⟩
  | updated ref f hf hjobs hfound hcopies =>
      refine ⟨fun job hjob => ?_, fun id ref' href => ?_, by rw [hcopies]; exact h.copies⟩
      · rw [hjobs] at hjob
        obtain ⟨ref', hget⟩ := List.mem_iff_getElem?.mp hjob
        rw [List.getElem?_modify] at hget
        obtain ⟨old, hold, rfl⟩ := Option.map_eq_some_iff.mp hget
        have hborn := h.jobs old (List.mem_iff_getElem?.mpr ⟨ref', hold⟩)
        split
        · rwa [(hf old).1, (hf old).2]
        · exact hborn
      · rw [hfound] at href
        obtain ⟨job, hjob, hid⟩ := h.found id ref' href
        rw [hjobs, List.getElem?_modify, hjob]
        refine ⟨_, rfl, ?_⟩
        split
        · exact (hf job).1.trans hid
        · exact hid
  | persisted ref job _ hstored hjobs hfound hcopies =>
      refine ⟨by rw [hjobs]; exact h.jobs, by rw [hjobs, hfound]; exact h.found, fun id copy hcopy => ?_⟩
      rw [hcopies, Store.lookup_insert_eq] at hcopy
      split at hcopy
      · rename_i hid
        cases hcopy
        exact ⟨hid.symm, hid ▸ h.jobs job (List.mem_iff_getElem?.mpr ⟨ref, hstored⟩)⟩
      · exact h.copies id copy hcopy

theorem Records.outside (h : Records created s) (w : Outside) : Records created (outside cfg w s) := by
  cases w with
  | tick ms => exact ⟨h.jobs, h.found, h.copies⟩
  | evictExpiredJobs =>
      refine ⟨h.jobs, fun id ref href => h.found id ref ?_, h.copies⟩
      exact (Option.filter_eq_some_iff.mp ((Store.lookup_deleteWhere _ _ _).symm.trans href)).1

/-- A replica that has just started has no jobs of its own. -/
theorem Records.fresh (hjobs : s.jobs = []) (hfound : s.jobStore = ∅)
    (hcopies : ∀ id copy, s.redis.jobs.lookup id = some copy →
      copy.value.id = id ∧ (id, copy.value.spec) ∈ created) : Records created s where
  jobs job hjob := by
    rw [hjobs] at hjob
    exact absurd hjob List.not_mem_nil
  found id ref href := by
    rw [hfound, AList.lookup_empty] at href
    cases href
  copies := hcopies

/-- Another replica has its own map, and the same Redis. -/
theorem Records.beside (h : Records created s) (h' : Records created s') (now : Int) :
    Records created { s with nowMs := now, redis := s'.redis } :=
  ⟨h.jobs, h.found, h'.copies⟩

theorem births_concat (now : Int) (as : List ClusterAction) (a : ClusterAction) :
    births W cfg now (as ++ [a]) = births W cfg now as
      ++ (born ⟨.after W cfg now as, a, (Cluster.after W cfg now as).step W cfg a⟩).toList := by
  unfold births
  rw [trace_concat, List.filterMap_append]
  rfl

variable (W cfg) in
theorem records_after (now : Int) (as : List ClusterAction) (i : Nat) :
    Records (births W cfg now as) ((Cluster.after W cfg now as).replica i).store := by
  induction as using List.reverseRecOn generalizing i with
  | nil =>
      have hredis : ((Cluster.after W cfg now []).replica i).store.redis.jobs = ∅ := rfl
      refine .fresh rfl rfl fun id copy hcopy => ?_
      rw [hredis, AList.lookup_empty] at hcopy
      cases hcopy
  | append_singleton as a ih =>
      have hafter : Cluster.after W cfg now (as ++ [a]) = (Cluster.after W cfg now as).step W cfg a := run_concat ..
      have hold : ∀ j, Records (births W cfg now (as ++ [a])) ((Cluster.after W cfg now as).replica j).store := fun j =>
        (ih j).mono (births_concat now as a ▸ List.subset_append_left _ _)
      have hput : ∀ j (m : System), Records (births W cfg now (as ++ [a])) m.store →
          Records (births W cfg now (as ++ [a])) (((Cluster.after W cfg now as).put j m).replica i).store := by
        intro j m hm
        rw [Cluster.replica_put]
        split
        · exact hm
        · exact (hold i).beside hm _
      rw [hafter]
      cases a with
      | restart j => exact hput j _ (.fresh rfl rfl (hold j).copies)
      | on j a =>
          refine hput j _ ?_
          rcases step_jobs W cfg ((Cluster.after W cfg now as).replica j) a with hsame
            | ⟨p, o, q, hquestion, -, heffect, hcreates⟩ | ⟨w, -, hw⟩
          · rw [hsame]
            exact hold j
          · refine (hold j).effect heffect fun spec hspec => ?_
            obtain rfl := hcreates spec hspec
            rw [births_concat]
            refine List.mem_append_right _ ?_
            simp only [born, hquestion, hspec]
            exact List.mem_cons_self
          · rw [hw]
            exact (hold j).outside w

/-- A process in flight was started on a task, and creates a job only as the task asks for it. -/
def Asking (cfg : TTSConfig) (as : List ClusterAction) (m : System) : Prop :=
  ∀ p l, m.procs p = some l → ∃ task, Started as task ∧ (Prog.ask l.question l.rest).Uses (Wanted cfg task)

theorem Asking.mono {as bs : List ClusterAction} {m : System} (h : Asking cfg as m) (hsub : as ⊆ bs) :
    Asking cfg bs m := by
  intro p l hl
  obtain ⟨task, ⟨i, p', hstarted⟩, huses⟩ := h p l hl
  exact ⟨task, ⟨i, p', hsub hstarted⟩, huses⟩

/-- **A step of a replica**: what is started asks for its task, and what goes on for the task it had. -/
theorem Asking.step {as : List ClusterAction} {m : System} (h : Asking cfg as m) (i : Nat) {a : Action} :
    Asking cfg (as ++ [.on i a]) (Tts.step W cfg m a) := by
  have hnow : ∀ {task}, Started as task → Started (as ++ [.on i a]) task := fun ⟨i', p', hstarted⟩ =>
    ⟨i', p', List.mem_append_left _ hstarted⟩
  intro p l' hl'
  rcases Machine.procs_step_cases (server W cfg) (body W cfg) (outside cfg) hl' with ⟨hold, -⟩
    | ⟨task, q, k, rfl, -, hbody, rfl⟩ | ⟨l, s, r, q, k, -, hl, -, -, hrest, rfl⟩
  · obtain ⟨task, hstarted, huses⟩ := h p l' hold
    exact ⟨task, hnow hstarted, huses⟩
  · refine ⟨task, ⟨i, p, List.mem_append_right _ (List.mem_singleton_self _)⟩, ?_⟩
    exact hbody ▸ uses_body p task
  · obtain ⟨task, hstarted, huses⟩ := h p l hl
    exact ⟨task, hnow hstarted, hrest ▸ huses.2 r⟩

theorem asking_after (now : Int) (as : List ClusterAction) (i : Nat) :
    Asking cfg as ((Cluster.after W cfg now as).replica i) := by
  induction as using List.reverseRecOn generalizing i with
  | nil => exact nofun
  | append_singleton as a ih =>
      have hput : ∀ j (m : System), Asking cfg (as ++ [a]) m →
          Asking cfg (as ++ [a]) (((Cluster.after W cfg now as).put j m).replica i) := by
        intro j m hm
        rw [Cluster.replica_put]
        split
        · exact hm
        · exact (ih i).mono (List.subset_append_left _ _)
      have hafter : Cluster.after W cfg now (as ++ [a]) = (Cluster.after W cfg now as).step W cfg a := run_concat ..
      rw [hafter]
      cases a with
      | on j a => exact hput j _ ((ih j).step j)
      | restart j => exact hput j _ nofun

/-- **Every job** was asked for by a request that had been let in. -/
theorem requested_of_born (now : Int) (as : List ClusterAction) {job : String × JobSpec}
    (hjob : job ∈ births W cfg now as) : Requested cfg as job.2 := by
  induction as using List.reverseRecOn with
  | nil => cases hjob
  | append_singleton as a ih =>
      rw [births_concat, List.mem_append, Option.mem_toList] at hjob
      rcases hjob with hold | hborn
      · obtain ⟨task, r, ⟨i, p, hstarted⟩, hrest⟩ := ih hold
        exact ⟨task, r, ⟨i, p, List.mem_append_left _ hstarted⟩, hrest⟩
      · unfold born at hborn
        split at hborn
        · rename_i i p o _
          split at hborn
          · rename_i spec hquestion
            cases hborn
            obtain ⟨l, hl, hspec⟩ := Option.map_eq_some_iff.mp hquestion
            obtain ⟨task, ⟨j, p', hstarted⟩, huses⟩ := asking_after now as i p l hl
            obtain ⟨r, htask, hr⟩ := huses.1 spec hspec
            exact ⟨task, r, ⟨j, p', List.mem_append_left _ hstarted⟩, htask, hr⟩
          · cases hborn
        · cases hborn

end Records

end PredictIQ.Tts
