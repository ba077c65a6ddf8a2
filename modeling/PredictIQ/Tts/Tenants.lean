/-
  PredictIQ.Tts.Tenants: which jobs the replicas show to whom.

  A credential is shown the jobs of its own owner, by every read, on every
  replica and in every run.  The other way round, a job whose shared copy was
  written is found for a day, from every replica, also from one that has
  restarted or has dropped the job from its map.
-/
import PredictIQ.Tts.Replicas

namespace PredictIQ.Tts

open Foundation

/-! ## §1. What is shown to whom. -/

section Shown

variable (W : Setting) (cfg : TTSConfig) (now : Int)

/-- What the reads show a credential in a run, on any replica.  `bs` is where
the read begins, when Redis answers after that. -/
inductive Shown (as : List ClusterAction) (credential : Option String) : TTSJob → Prop where
  | getJob (i : Nat) (id : String) (job : TTSJob)
      (read : getJob cfg ((Cluster.after W cfg now as).replica i).store id credential = .ok (some job)) :
      Shown as credential job
  | getJobAsync (bs : List ClusterAction) (begun : bs <+: as) (i : Nat) (id : String)
      (remote : Except TtsError (Option TTSJob))
      (answered : ∀ found, remote = .ok found → found = ((Cluster.after W cfg now as).replica i).store.sharedJob id)
      (job : TTSJob)
      (read : getJobAsync cfg ((Cluster.after W cfg now bs).replica i).store remote id credential = .ok (some job)) :
      Shown as credential job
  | listJobs (order : RowOrder String) (i : Nat) (status : Option JobStatus) (jobs : List TTSJob)
      (read : listJobs cfg order ((Cluster.after W cfg now as).replica i).store status credential = .ok jobs)
      (job : TTSJob) (listed : job ∈ jobs) : Shown as credential job
  | listJobsAsync (bs : List ClusterAction) (begun : bs <+: as) (order : RowOrder String) (i : Nat)
      (status : Option JobStatus) (remote : Except TtsError (List TTSJob))
      (answered : ∀ all, remote = .ok all → all = sharedJobs order ((Cluster.after W cfg now bs).replica i).store
        ((Cluster.after W cfg now as).replica i).store status)
      (jobs : List TTSJob)
      (read : listJobsAsync cfg order ((Cluster.after W cfg now bs).replica i).store remote status credential
        = .ok jobs)
      (job : TTSJob) (listed : job ∈ jobs) : Shown as credential job

variable {W cfg now} {as bs : List ClusterAction} {credential : Option String} {s : State}
  {created : List (String × JobSpec)} {id : String} {job : TTSJob}

theorem Records.localJob (h : Records created s) (hjob : s.localJob id = some job) :
    job.id = id ∧ (job.id, job.spec) ∈ created := by
  obtain ⟨ref, href, hget⟩ := Option.bind_eq_some_iff.mp hjob
  obtain ⟨job', hjob', hid⟩ := h.found id ref href
  obtain rfl := Option.some.inj (hjob'.symm.trans hget)
  exact ⟨hid, h.jobs _ (List.mem_iff_getElem?.mpr ⟨ref, hget⟩)⟩

theorem Records.sharedJob (h : Records created s) (hjob : s.sharedJob id = some job) :
    job.id = id ∧ (job.id, job.spec) ∈ created := by
  obtain ⟨copy, hcopy, rfl⟩ := Option.map_eq_some_iff.mp hjob
  obtain ⟨hid, hcreated⟩ := h.copies id copy (Option.filter_eq_some_iff.mp hcopy).1
  exact ⟨hid, hid.symm ▸ hcreated⟩

theorem births_mono (hbs : bs <+: as) : births W cfg now bs ⊆ births W cfg now as := by
  obtain ⟨cs, rfl⟩ := hbs
  unfold births
  rw [trace_append, List.filterMap_append]
  exact List.subset_append_left _ _

/-- The owner of a job is that of the request. -/
theorem ownerOf_of_specOf {r : Request} {spec : JobSpec} (h : specOf cfg r = .ok spec) :
    ownerOf cfg r.credential = .ok spec.owner := by
  unfold specOf at h
  cases howner : ownerOf cfg r.credential with
  | error e =>
      rw [howner] at h
      cases h
  | ok owner =>
      rw [howner] at h
      cases hsanitized : sanitizeInput r.text with
      | error e =>
          rw [hsanitized] at h
          cases h
      | ok sanitized =>
          rw [hsanitized] at h
          cases h
          rfl

/-- The owner is resolved first. -/
theorem owner_of_read {α : Type} {f : String → Except TtsError α} {x : α}
    (h : (do let owner ← ownerOf cfg credential; f owner) = .ok x) :
    ∃ owner, ownerOf cfg credential = .ok owner ∧ f owner = .ok x := by
  cases howner : ownerOf cfg credential with
  | error e =>
      rw [howner] at h
      cases h
  | ok owner =>
      rw [howner] at h
      exact ⟨owner, rfl, h⟩

theorem getJob_shows (h : getJob cfg s id credential = .ok (some job)) :
    ownerOf cfg credential = .ok job.spec.owner ∧ s.localJob id = some job := by
  obtain ⟨owner, howner, hread⟩ := owner_of_read h
  obtain ⟨hlocal, hhas⟩ := Option.filter_eq_some_iff.mp (Except.ok.inj hread)
  obtain rfl := of_decide_eq_true hhas
  exact ⟨howner, hlocal⟩

theorem getJobAsync_shows {remote : Except TtsError (Option TTSJob)}
    (h : getJobAsync cfg s remote id credential = .ok (some job)) :
    ownerOf cfg credential = .ok job.spec.owner ∧ (s.localJob id = some job ∨ remote = .ok (some job)) := by
  obtain ⟨owner, howner, hread⟩ := owner_of_read h
  cases hlocal : s.localJob id with
  | some found =>
      simp only [hlocal] at hread
      split at hread
      · rename_i hhas
        cases hread
        exact ⟨hhas ▸ howner, .inl rfl⟩
      · cases hread
  | none =>
      simp only [hlocal] at hread
      split at hread
      · cases remote with
        | error e => cases hread
        | ok found =>
            obtain ⟨hfound, hhas⟩ := Option.filter_eq_some_iff.mp (Except.ok.inj hread)
            obtain rfl := of_decide_eq_true hhas
            exact ⟨howner, .inr (congrArg Except.ok hfound)⟩
      · cases hread

theorem listJobs_shows {order : RowOrder String} {status : Option JobStatus} {jobs : List TTSJob}
    (h : listJobs cfg order s status credential = .ok jobs) (hjob : job ∈ jobs) :
    ownerOf cfg credential = .ok job.spec.owner ∧ ∃ id, s.localJob id = some job := by
  obtain ⟨owner, howner, hread⟩ := owner_of_read h
  cases hread
  obtain ⟨hmem, hhas⟩ := List.mem_filter.mp (List.mem_filter.mp hjob).1
  obtain rfl := of_decide_eq_true hhas
  obtain ⟨id, -, hlocal⟩ := List.mem_filterMap.mp hmem
  exact ⟨howner, id, hlocal⟩

theorem listJobsAsync_shows {order : RowOrder String} {remote : Except TtsError (List TTSJob)}
    {status : Option JobStatus} {jobs : List TTSJob}
    (h : listJobsAsync cfg order s remote status credential = .ok jobs) (hjob : job ∈ jobs) :
    ownerOf cfg credential = .ok job.spec.owner
      ∧ ((∃ id, s.localJob id = some job) ∨ ∃ all, remote = .ok all ∧ job ∈ all) := by
  obtain ⟨owner, howner, hread⟩ := owner_of_read h
  split at hread
  · cases remote with
    | error e => cases hread
    | ok all =>
        cases hread
        obtain ⟨hall, hhas⟩ := List.mem_filter.mp hjob
        obtain rfl := of_decide_eq_true hhas
        exact ⟨howner, .inr ⟨all, rfl, hall⟩⟩
  · obtain ⟨howner, hlocal⟩ := listJobs_shows hread hjob
    exact ⟨howner, .inl hlocal⟩

/-- What a read shows was created, and belongs to the credential's owner. -/
theorem created_of_shown (h : Shown W cfg now as credential job) :
    (job.id, job.spec) ∈ births W cfg now as ∧ ownerOf cfg credential = .ok job.spec.owner := by
  have hlocal : ∀ {bs i id}, bs <+: as → ((Cluster.after W cfg now bs).replica i).store.localJob id = some job →
      (job.id, job.spec) ∈ births W cfg now as := fun hbs hjob =>
    births_mono hbs ((records_after W cfg now _ _).localJob hjob).2
  cases h with
  | getJob i id _ hread =>
      obtain ⟨howner, hjob⟩ := getJob_shows hread
      exact ⟨hlocal (List.prefix_refl _) hjob, howner⟩
  | getJobAsync bs hbs i id remote hanswered _ hread =>
      obtain ⟨howner, hjob | hremote⟩ := getJobAsync_shows hread
      · exact ⟨hlocal hbs hjob, howner⟩
      · exact ⟨((records_after W cfg now as i).sharedJob (hanswered _ hremote).symm).2, howner⟩
  | listJobs order i status jobs hread _ hlisted =>
      obtain ⟨howner, id, hjob⟩ := listJobs_shows hread hlisted
      exact ⟨hlocal (List.prefix_refl _) hjob, howner⟩
  | listJobsAsync bs hbs order i status remote hanswered jobs hread _ hlisted =>
      obtain ⟨howner, ⟨id, hjob⟩ | ⟨all, hremote, hall⟩⟩ := listJobsAsync_shows hread hlisted
      · exact ⟨hlocal hbs hjob, howner⟩
      · rw [hanswered all hremote] at hall
        obtain ⟨id, -, hvalue⟩ := List.mem_filterMap.mp (List.mem_filter.mp hall).1
        exact ⟨((records_after W cfg now as i).sharedJob hvalue).2, howner⟩

/-- **Tenants see their own jobs.**  In every run of any number of replicas,
whatever fails, crashes or restarts: a job that a read shows a credential was
created for a request whose credential belongs to the same owner, and is to do
what that request asked for. -/
theorem tenants_see_their_own (W : Setting) (cfg : TTSConfig) (now : Int) (as : List ClusterAction)
    (credential : Option String) (job : TTSJob) (h : Shown W cfg now as credential job) :
    (job.id, job.spec) ∈ births W cfg now as ∧ ∃ task r, Started as task ∧ task.request = some r
      ∧ specOf cfg r = .ok job.spec ∧ ownerOf cfg r.credential = ownerOf cfg credential := by
  obtain ⟨hborn, howner⟩ := created_of_shown h
  obtain ⟨task, r, hstarted, htask, hspec⟩ := requested_of_born now as hborn
  exact ⟨hborn, task, r, hstarted, htask, hspec, (ownerOf_of_specOf hspec).trans howner.symm⟩

/-- Two tenants, and a store of jobs that replicas share. -/
def sampleTenants : TTSConfig :=
  { sampleConfig with
    auth := some fun credential =>
      if credential = some "alice" then .ok "alice"
      else if credential = some "bob" then .ok "bob"
      else .error (.other "Invalid API key") }

/-- Replica 0 creates a job and writes its copy. -/
def sampleShared : List ClusterAction :=
  [.on 0 (.start 0 (.enqueueAsync ⟨"Hello", sampleVoice, none, some "alice", none, none⟩)),
    .on 0 (.answer 0 ⟨"k3x9ab", 0⟩), .on 0 (.answer 0 ⟨"", 0⟩)]

def sampleJob : TTSJob :=
  ⟨"tts_0_k3x9ab", ⟨"Hello", sampleVoice, .google, false, "alice"⟩, .pending, none, none, 0, 0⟩

/-- Replica 1 shows the job to its owner. -/
theorem tenants_see_their_own_sample :
    (sampleJob.id, sampleJob.spec) ∈ births sampleSetting sampleTenants 0 sampleShared
      ∧ ∃ task r, Started sampleShared task ∧ task.request = some r ∧ specOf sampleTenants r = .ok sampleJob.spec
        ∧ ownerOf sampleTenants r.credential = ownerOf sampleTenants (some "alice") := by
  refine tenants_see_their_own sampleSetting sampleTenants 0 sampleShared (some "alice") sampleJob
    (.getJobAsync sampleShared (List.prefix_refl _) 1 "tts_0_k3x9ab" (.ok (some sampleJob)) ?_ _ ?_)
  · rintro _ ⟨⟩
    decide +kernel
  · decide +kernel

end Shown

/-! ## §2. A shared job is found by every replica. -/

/-- Redis keeps a copy of the job until then; a copy that is written now is kept for a day. -/
structure KeptUntil (id : String) (deadline now : Int) (copies : Store String (Expiring TTSJob)) : Prop where
  within : deadline ≤ now + 86400000
  kept : ∃ copy, copies.lookup id = some copy ∧ deadline ≤ copy.expiresAt

section Found

variable {W : Setting} {cfg : TTSConfig} {now deadline : Int} {id : String} {s s' : State} {o : Choice} {q : Command}

theorem KeptUntil.later {t t' : Int} {copies : Store String (Expiring TTSJob)} (h : KeptUntil id deadline t copies)
    (htime : t ≤ t') : KeptUntil id deadline t' copies :=
  ⟨by have := h.within; omega, h.kept⟩

/-- Another write of the copy puts the end off. -/
theorem KeptUntil.effect (h : KeptUntil id deadline s.nowMs s.redis.jobs) (heffect : JobEffect o s s' q) :
    KeptUntil id deadline s.nowMs s'.redis.jobs := by
  cases heffect with
  | nothing _ _ hcopies | created _ _ _ _ hcopies | updated _ _ _ _ _ hcopies => rwa [hcopies]
  | persisted ref job _ _ _ _ hcopies =>
      refine ⟨h.within, ?_⟩
      rw [hcopies, Store.lookup_insert_eq]
      split
      · exact ⟨_, rfl, h.within⟩
      · exact h.kept

variable (W cfg deadline id) in
/-- **A step of the replicas**: time does not go back, and copies are kept. -/
theorem kept_step (c : Cluster) (a : ClusterAction) :
    c.nowMs ≤ (c.step W cfg a).nowMs
      ∧ (KeptUntil id deadline c.nowMs c.redis.jobs →
        KeptUntil id deadline (c.step W cfg a).nowMs (c.step W cfg a).redis.jobs) := by
  cases a with
  | restart i => exact ⟨Int.le_refl _, fun h => h⟩
  | on i a =>
      show c.nowMs ≤ (Tts.step W cfg (c.replica i) a).store.nowMs ∧ (KeptUntil id deadline c.nowMs c.redis.jobs →
        KeptUntil id deadline (Tts.step W cfg (c.replica i) a).store.nowMs
          (Tts.step W cfg (c.replica i) a).store.redis.jobs)
      rcases step_jobs W cfg (c.replica i) a with hsame | ⟨p, o, q, -, hnow, heffect, -⟩ | ⟨w, -, hw⟩
      · rw [hsame]
        exact ⟨Int.le_refl _, fun h => h⟩
      · rw [hnow]
        exact ⟨Int.le_refl _, fun h => h.effect heffect⟩
      · rw [hw]
        cases w with
        | tick ms =>
            have htime : c.nowMs ≤ c.nowMs + ms := by omega
            exact ⟨htime, fun h => h.later htime⟩
        | evictExpiredJobs => exact ⟨Int.le_refl _, fun h => h⟩

variable (W cfg deadline id) in
theorem kept_run (c : Cluster) (as : List ClusterAction) :
    c.nowMs ≤ (run (Cluster.step W cfg) c as).nowMs
      ∧ (KeptUntil id deadline c.nowMs c.redis.jobs →
        KeptUntil id deadline (run (Cluster.step W cfg) c as).nowMs (run (Cluster.step W cfg) c as).redis.jobs) := by
  induction as generalizing c with
  | nil => exact ⟨Int.le_refl _, fun h => h⟩
  | cons a as ih =>
      obtain ⟨htime, hkept⟩ := kept_step W cfg deadline id c a
      obtain ⟨htime', hkept'⟩ := ih (c.step W cfg a)
      exact ⟨htime.trans htime', fun h => hkept' (hkept h)⟩

/-- The write of a shared copy. -/
theorem exec_setJob {ref : Nat} {job : TTSJob} (hjob : s.jobs[ref]? = some job) :
    exec W cfg o s (.setJob ref)
      = some ((), { s with redis.jobs := s.redis.jobs.insert job.id ⟨job, s.nowMs + 86400000⟩ }) := by
  simp only [exec, hjob]

variable (W cfg) in
/-- Whether or not the replica hears of it, the copy is written. -/
theorem step_setJob {m : System} {a : Action} {ref : Nat} {job : TTSJob} (hwrites : m.performs a = some (.setJob ref))
    (hjob : m.store.jobs[ref]? = some job) :
    (Tts.step W cfg m a).store
      = { m.store with redis.jobs := m.store.redis.jobs.insert job.id ⟨job, m.store.nowMs + 86400000⟩ } := by
  have hserve : ∀ p s, (m.procs p).map Live.question = some (.setJob ref) →
      (∃ r, Machine.reply (server W cfg) m.store a (.setJob ref) = some (s, r)) →
      (m.serve (server W cfg) p a).store = s := by
    rintro p s hp ⟨r, hr⟩
    obtain ⟨⟨q, k, heard⟩, hl, hq⟩ := Option.map_eq_some_iff.mp hp
    cases hq
    exact congrArg Machine.store (Machine.serve_of_reply (server W cfg) hl hr)
  cases a with
  | answer p o =>
      refine hserve p _ hwrites ⟨.ok (), ?_⟩
      show Option.map _ (exec W cfg o m.store (.setJob ref)) = _
      rw [exec_setJob hjob]
      rfl
  | lose p o e =>
      refine hserve p _ hwrites ⟨.error e, ?_⟩
      show Option.map _ (exec W cfg o m.store (.setJob ref)) = _
      rw [exec_setJob hjob]
      rfl
  | start p task | refuse p e | crash p | outside w => cases hwrites

/-- A copy that is kept is read, and its key is listed. -/
theorem KeptUntil.sharedJob (h : KeptUntil id deadline s.nowMs s.redis.jobs) (htime : s.nowMs < deadline) :
    (∃ job, s.sharedJob id = some job) ∧ ∀ order, id ∈ s.sharedIds order := by
  obtain ⟨copy, hcopy, hexpiry⟩ := h.kept
  have hfresh : decide (s.nowMs < copy.expiresAt) = true := decide_eq_true (lt_of_lt_of_le htime hexpiry)
  refine ⟨⟨copy.value, ?_⟩, fun order => ?_⟩
  · exact Option.map_eq_some_iff.mpr ⟨copy, Option.filter_eq_some_iff.mpr ⟨hcopy, hfresh⟩, rfl⟩
  · exact (order.perm _).mem_iff.mpr
      (List.mem_map.mpr ⟨⟨id, copy⟩, List.mem_filter.mpr ⟨Store.mem_entries.mpr hcopy, hfresh⟩, rfl⟩)

/-- Whatever a state holds under an id is the job that was created under it. -/
structure Names (s : State) (id : String) (spec : JobSpec) : Prop where
  inMap : ∀ found, s.localJob id = some found → found.id = id ∧ found.spec = spec
  inRedis : ∀ found, s.sharedJob id = some found → found.id = id ∧ found.spec = spec

variable {as bs : List ClusterAction} {spec : JobSpec} {credential : Option String}

/-- In a run in which no two jobs get one id. -/
theorem names_after (hids : ((births W cfg now as).map Prod.fst).Nodup) (hborn : (id, spec) ∈ births W cfg now as)
    (hbs : bs <+: as) (j : Nat) : Names ((Cluster.after W cfg now bs).replica j).store id spec := by
  have hsame : ∀ found : TTSJob, found.id = id ∧ (found.id, found.spec) ∈ births W cfg now bs →
      found.id = id ∧ found.spec = spec := fun found ⟨hid, hmem⟩ =>
    ⟨hid, congrArg Prod.snd (List.inj_on_of_nodup_map hids (births_mono hbs hmem) hborn hid)⟩
  have hrecords := records_after W cfg now bs j
  exact ⟨fun found hfound => hsame found (hrecords.localJob hfound),
    fun found hfound => hsame found (hrecords.sharedJob hfound)⟩

/-- The map of the replica comes first, and Redis has a copy. -/
theorem Names.getJobAsync (h : Names s id spec) (h' : Names s' id spec) (hshared : cfg.sharedStore.jobStore = true)
    (howner : ownerOf cfg credential = .ok spec.owner) (hcopy : ∃ copy, s'.sharedJob id = some copy) :
    ∃ found, getJobAsync cfg s (.ok (s'.sharedJob id)) id credential = .ok (some found)
      ∧ found.id = id ∧ found.spec = spec := by
  unfold Tts.getJobAsync
  rw [howner]
  cases hlocal : s.localJob id with
  | some found =>
      obtain ⟨hid, hspec⟩ := h.inMap found hlocal
      refine ⟨found, ?_, hid, hspec⟩
      simp [bind, Except.bind, pure, Except.pure, hspec]
  | none =>
      obtain ⟨copy, hcopy⟩ := hcopy
      obtain ⟨hid, hspec⟩ := h'.inRedis copy hcopy
      refine ⟨copy, ?_, hid, hspec⟩
      simp [hshared, bind, Except.bind, pure, Except.pure, hcopy, hspec]

/-- The key is read first, and the copy is there when its value is. -/
theorem Names.listJobsAsync (h' : Names s' id spec) (hshared : cfg.sharedStore.jobStore = true)
    (howner : ownerOf cfg credential = .ok spec.owner) (hcopy : ∃ copy, s'.sharedJob id = some copy)
    {order : RowOrder String} (hkey : id ∈ s.sharedIds order) :
    ∃ jobs, listJobsAsync cfg order s (.ok (sharedJobs order s s' none)) none credential = .ok jobs
      ∧ ∃ found ∈ jobs, found.id = id ∧ found.spec = spec := by
  obtain ⟨copy, hcopy⟩ := hcopy
  obtain ⟨hid, hspec⟩ := h'.inRedis copy hcopy
  unfold Tts.listJobsAsync
  rw [howner, hshared]
  refine ⟨_, rfl, copy, ?_, hid, hspec⟩
  have hlisted : copy ∈ sharedJobs order s s' none :=
    List.mem_filter.mpr ⟨List.mem_filterMap.mpr ⟨id, hkey, hcopy⟩, rfl⟩
  exact List.mem_filter.mpr ⟨hlisted, decide_eq_true (congrArg JobSpec.owner hspec)⟩

/-- **A shared job is found.**  Once some replica has written the copy of a job,
then for a day, whatever else happens, every replica shows the job to its owner,
by its id and in its list: in every run in which no two jobs get one id. -/
theorem shared_job_found (W : Setting) (cfg : TTSConfig) (now : Int) (as bs cs : List ClusterAction) (i ref : Nat)
    (a : Action) (job : TTSJob) (hshared : cfg.sharedStore.jobStore = true)
    (hwrites : ((Cluster.after W cfg now as).replica i).performs a = some (.setJob ref))
    (hjob : ((Cluster.after W cfg now as).replica i).store.jobs[ref]? = some job)
    (hids : ((births W cfg now (as ++ .on i a :: bs ++ cs)).map Prod.fst).Nodup)
    (htime : (Cluster.after W cfg now (as ++ .on i a :: bs ++ cs)).nowMs
      < (Cluster.after W cfg now as).nowMs + 86400000)
    (credential : Option String) (howner : ownerOf cfg credential = .ok job.spec.owner) (j : Nat) (s s' : State)
    (hs : s = ((Cluster.after W cfg now (as ++ .on i a :: bs)).replica j).store)
    (hs' : s' = ((Cluster.after W cfg now (as ++ .on i a :: bs ++ cs)).replica j).store) :
    (∃ found, getJobAsync cfg s (.ok (s'.sharedJob job.id)) job.id credential = .ok (some found)
        ∧ found.id = job.id ∧ found.spec = job.spec)
      ∧ ∀ order, ∃ jobs, listJobsAsync cfg order s (.ok (sharedJobs order s s' none)) none credential = .ok jobs
        ∧ ∃ found ∈ jobs, found.id = job.id ∧ found.spec = job.spec := by
  let deadline := (Cluster.after W cfg now as).nowMs + 86400000
  let written := (Cluster.after W cfg now as).step W cfg (.on i a)
  have hwritten : KeptUntil job.id deadline written.nowMs written.redis.jobs := by
    show KeptUntil job.id deadline (Tts.step W cfg ((Cluster.after W cfg now as).replica i) a).store.nowMs
      (Tts.step W cfg ((Cluster.after W cfg now as).replica i) a).store.redis.jobs
    rw [step_setJob W cfg hwrites hjob]
    exact ⟨Int.le_refl _, _, by rw [Store.lookup_insert_eq, if_pos rfl], Int.le_refl _⟩
  -- the copy is there when the read begins, and when Redis answers
  have hbegun : Cluster.after W cfg now (as ++ .on i a :: bs) = run (Cluster.step W cfg) written bs := run_append ..
  have hanswered : Cluster.after W cfg now (as ++ .on i a :: bs ++ cs)
      = run (Cluster.step W cfg) (Cluster.after W cfg now (as ++ .on i a :: bs)) cs := run_append ..
  have hkept : KeptUntil job.id deadline s.nowMs s.redis.jobs := by
    rw [hs, hbegun]
    exact (kept_run W cfg deadline job.id written bs).2 hwritten
  have hgoes : s.nowMs ≤ s'.nowMs := by
    rw [hs, hs', hanswered]
    exact (kept_run W cfg deadline job.id _ cs).1
  have hkept' : KeptUntil job.id deadline s'.nowMs s'.redis.jobs := by
    rw [hs', hanswered]
    refine (kept_run W cfg deadline job.id _ cs).2 ?_
    rwa [hs] at hkept
  have hcopy := (hkept'.sharedJob (hs' ▸ htime)).1
  have hkey := (hkept.sharedJob (lt_of_le_of_lt hgoes (hs' ▸ htime))).2
  -- whatever is found under the id is the job
  have hborn : (job.id, job.spec) ∈ births W cfg now (as ++ .on i a :: bs ++ cs) :=
    births_mono ((List.prefix_append _ _).trans (List.prefix_append _ _))
      ((records_after W cfg now as i).jobs job (List.mem_iff_getElem?.mpr ⟨ref, hjob⟩))
  have hnames : Names s job.id job.spec := hs ▸ names_after hids hborn (List.prefix_append _ _) j
  have hnames' : Names s' job.id job.spec := hs' ▸ names_after hids hborn (List.prefix_refl _) j
  exact ⟨hnames.getJobAsync hnames' hshared howner hcopy, fun order =>
    hnames'.listJobsAsync hshared howner hcopy (hkey order)⟩

/-- A day has not gone by when replica 1, which has restarted, is asked. -/
theorem shared_job_found_sample :
    let s := ((Cluster.after sampleSetting sampleTenants 0 (sampleShared ++ [.restart 1])).replica 1).store
    let s' := ((Cluster.after sampleSetting sampleTenants 0
      (sampleShared ++ [.restart 1] ++ [.on 2 (.outside (.tick 3600000))])).replica 1).store
    (∃ found, getJobAsync sampleTenants s (.ok (s'.sharedJob "tts_0_k3x9ab")) "tts_0_k3x9ab" (some "alice")
        = .ok (some found) ∧ found.id = "tts_0_k3x9ab" ∧ found.spec = sampleJob.spec)
      ∧ ∀ order, ∃ jobs, listJobsAsync sampleTenants order s (.ok (sharedJobs order s s' none)) none (some "alice")
          = .ok jobs ∧ ∃ found ∈ jobs, found.id = "tts_0_k3x9ab" ∧ found.spec = sampleJob.spec := by
  refine shared_job_found sampleSetting sampleTenants 0 (sampleShared.take 2) [.restart 1]
    [.on 2 (.outside (.tick 3600000))] 0 0 (.answer 0 ⟨"", 0⟩) sampleJob rfl ?_ ?_ ?_ ?_ (some "alice") ?_ 1 _ _ rfl rfl
  all_goals decide +kernel

end Found

end PredictIQ.Tts
