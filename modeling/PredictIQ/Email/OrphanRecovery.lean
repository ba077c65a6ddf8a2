/-
  PredictIQ.Email.OrphanRecovery: what `recover_orphaned_jobs` recovers, and
  what it takes off the processing set.

  The jobs of all stale entries of dead workers go to the main queue.  The
  script then looks each job's entry up by a pattern that matches no entry
  with a worker in front, so of the entries it removes the bare ones only:
  an orphan with a worker is left where it was, to be recovered again.
-/
import PredictIQ.Email.Queue
import PredictIQ.Foundation.Solo

namespace PredictIQ.Email

open Foundation
open Prog (Returns)

/-! ## §1. Orphans. -/

/-- The worker's heartbeat is gone, or older than the cutoff. -/
def IsDead (b : Backend) (cutoff : Int) (worker : String) : Prop :=
  ∀ hb ∈ b.redis.get b.now (heartbeatKey worker), hb < cutoff

instance (b : Backend) (cutoff : Int) (worker : String) : Decidable (IsDead b cutoff worker) :=
  inferInstanceAs (Decidable (∀ hb ∈ b.redis.get b.now (heartbeatKey worker), hb < cutoff))

/-- A stale entry of a dead worker; bare entries belong to the worker `unknown`. -/
structure Orphaned (th : Nat) (b : Backend) (m : Member) : Prop where
  stale : ∃ e ∈ b.redis.processing.entries, (ofLex e).1 ≤ b.now - th ∧ (ofLex e).2 = m
  dead : IsDead b (b.now - th) (splitEntry m).1

/-- The job has an orphaned entry. -/
def OrphanedJob (th : Nat) (b : Backend) (j : Uuid) : Prop :=
  ∃ m, Orphaned th b m ∧ (splitEntry m).2 = j

/-- From `b` to `b'` the orphaned jobs, and only these, went to the main queue,
and the orphaned entries, and only these, left the processing set. -/
structure Recovers (th : Nat) (b b' : Backend) : Prop where
  queue : ∀ e, e ∈ (b'.redis.jobs .queue).entries ↔
    OrphanedJob th b (ofLex e).2 ∧ (ofLex e).1 = b.now
      ∨ e ∈ (b.redis.jobs .queue).entries ∧ ¬OrphanedJob th b (ofLex e).2
  processing : ∀ e, e ∈ b'.redis.processing.entries ↔
    e ∈ b.redis.processing.entries ∧ ¬Orphaned th b (ofLex e).2

/-! ## §2. The jobs it recovers. -/

/-- The worker and the job are in one of the groups. -/
def InGroups (groups : List (String × List Uuid)) (worker : String) (j : Uuid) : Prop :=
  ∃ g ∈ groups, g.1 = worker ∧ j ∈ g.2

/-- Adding an entry to the groups, to its worker's if there is one. -/
theorem inGroups_add {groups : List (String × List Uuid)} {e : String × Uuid} {worker : String}
    {j : Uuid} :
    InGroups (if groups.any (·.1 == e.1) then
        groups.map fun g => if g.1 == e.1 then (g.1, g.2 ++ [e.2]) else g
      else groups ++ [(e.1, [e.2])]) worker j
      ↔ InGroups groups worker j ∨ e = (worker, j) := by
  by_cases hany : groups.any (·.1 == e.1) = true
  · rw [if_pos hany]
    constructor
    · intro h
      obtain ⟨_, hmap, hworker, hj⟩ := h
      obtain ⟨g, hg, rfl⟩ := List.mem_map.mp hmap
      by_cases he : (g.1 == e.1) = true
      · rw [if_pos he] at hworker hj
        rcases List.mem_append.mp hj with hj | hj
        · exact .inl ⟨g, hg, hworker, hj⟩
        · rw [List.mem_singleton.mp hj, ← show g.1 = worker from hworker, beq_iff_eq.mp he]
          exact .inr rfl
      · rw [if_neg he] at hworker hj
        exact .inl ⟨g, hg, hworker, hj⟩
    · intro h
      rcases h with ⟨g, hg, hworker, hj⟩ | rfl
      · refine ⟨_, List.mem_map_of_mem hg, ?_, ?_⟩
        · split <;> exact hworker
        · split
          · exact List.mem_append_left _ hj
          · exact hj
      · obtain ⟨g, hg, he⟩ := List.any_eq_true.mp hany
        refine ⟨_, List.mem_map_of_mem hg, ?_, ?_⟩
        · rw [if_pos he]
          exact beq_iff_eq.mp he
        · rw [if_pos he]
          exact List.mem_append_right _ (List.mem_singleton_self j)
  · rw [if_neg hany]
    constructor
    · intro h
      obtain ⟨g, hg, hworker, hj⟩ := h
      rcases List.mem_append.mp hg with hg | hg
      · exact .inl ⟨g, hg, hworker, hj⟩
      · rw [List.mem_singleton.mp hg] at hworker hj
        exact .inr (Prod.ext hworker (List.mem_singleton.mp hj).symm)
    · intro h
      rcases h with ⟨g, hg, hworker, hj⟩ | rfl
      · exact ⟨g, List.mem_append_left _ hg, hworker, hj⟩
      · exact ⟨(worker, [j]), List.mem_append_right _ (List.mem_singleton_self _), rfl,
          List.mem_singleton_self j⟩

/-- Grouping loses no entry and adds none. -/
theorem inGroups_groupByWorker {entries : List Member} {worker : String} {j : Uuid} :
    InGroups (groupByWorker entries) worker j ↔ ∃ m ∈ entries, splitEntry m = (worker, j) := by
  -- from the last entry backwards, as the fold adds them
  induction entries using List.reverseRecOn with
  | nil =>
      constructor
      · intro h
        obtain ⟨_, hg, _⟩ := h
        cases hg
      · intro h
        obtain ⟨_, hm, _⟩ := h
        cases hm
  | append_singleton entries m ih =>
      unfold groupByWorker at ih ⊢
      rw [List.map_append, List.foldl_append, List.map_singleton, List.foldl_cons, List.foldl_nil,
        inGroups_add, ih]
      constructor
      · intro h
        rcases h with ⟨m', hm', he⟩ | he
        · exact ⟨m', List.mem_append_left _ hm', he⟩
        · exact ⟨m, List.mem_append_right _ (List.mem_singleton_self m), he⟩
      · intro h
        obtain ⟨m', hm', he⟩ := h
        rcases List.mem_append.mp hm' with hm' | hm'
        · exact .inl ⟨m', hm', he⟩
        · rw [List.mem_singleton.mp hm'] at he
          exact .inr he

/-- The jobs of the groups whose worker is dead. -/
def deadJobs (b : Backend) (cutoff : Int) (groups : List (String × List Uuid)) : List Uuid :=
  groups.flatMap fun g => if IsDead b cutoff g.1 then g.2 else []

theorem mem_deadJobs {b : Backend} {cutoff : Int} {groups : List (String × List Uuid)} {j : Uuid} :
    j ∈ deadJobs b cutoff groups ↔ ∃ worker, InGroups groups worker j ∧ IsDead b cutoff worker := by
  unfold deadJobs
  rw [List.mem_flatMap]
  constructor
  · intro h
    obtain ⟨g, hg, hj⟩ := h
    split at hj
    · rename_i hdead
      exact ⟨g.1, ⟨g, hg, rfl, hj⟩, hdead⟩
    · cases hj
  · intro h
    obtain ⟨_, ⟨g, hg, rfl, hj⟩, hdead⟩ := h
    refine ⟨g, hg, ?_⟩
    rw [if_pos hdead]
    exact hj

/-- One more group, whose worker the flag says is dead. -/
theorem deadJobs_cons {b : Backend} {cutoff : Int} {worker : String} {ids : List Uuid}
    {groups : List (String × List Uuid)} {dead : Bool} (h : dead = true ↔ IsDead b cutoff worker) :
    (if dead = true then ids ++ deadJobs b cutoff groups else deadJobs b cutoff groups)
      = deadJobs b cutoff ((worker, ids) :: groups) := by
  unfold deadJobs
  rw [List.flatMap_cons]
  by_cases hdead : IsDead b cutoff worker
  · rw [if_pos hdead, if_pos (h.mpr hdead)]
  · rw [if_neg hdead, if_neg fun hflag => hdead (h.mp hflag)]
    rfl

/-- The jobs that `recover_orphaned_jobs` passes to its script. -/
def recoveredJobs (order : HashOrder) (th : Nat) (b : Backend) : List Uuid :=
  deadJobs b (b.now - th)
    (order.walk (groupByWorker (b.redis.processing.zrangebyscore (b.now - th))))

theorem recoveredJobs_eq_nil {order : HashOrder} {th : Nat} {b : Backend}
    (h : b.redis.processing.zrangebyscore (b.now - th) = []) : recoveredJobs order th b = [] := by
  have hwalk : order.walk (groupByWorker []) = [] := (order.perm (groupByWorker [])).eq_nil
  unfold recoveredJobs
  rw [h, hwalk]
  rfl

/-- They are the jobs of the orphaned entries. -/
theorem mem_recoveredJobs {order : HashOrder} {th : Nat} {b : Backend} {j : Uuid} :
    j ∈ recoveredJobs order th b ↔ OrphanedJob th b j := by
  unfold recoveredJobs OrphanedJob
  rw [mem_deadJobs]
  have hwalk : ∀ worker, InGroups (order.walk (groupByWorker
        (b.redis.processing.zrangebyscore (b.now - th)))) worker j
      ↔ ∃ m ∈ b.redis.processing.zrangebyscore (b.now - th), splitEntry m = (worker, j) := by
    intro worker
    rw [← inGroups_groupByWorker]
    unfold InGroups
    simp only [(order.perm _).mem_iff]
  simp only [hwalk, SortedSet.mem_zrangebyscore]
  constructor
  · intro h
    obtain ⟨worker, ⟨m, hstale, hsplit⟩, hdead⟩ := h
    rw [← show (splitEntry m).1 = worker from congrArg Prod.fst hsplit] at hdead
    exact ⟨m, ⟨hstale, hdead⟩, congrArg Prod.snd hsplit⟩
  · intro h
    obtain ⟨m, horphan, hjob⟩ := h
    exact ⟨_, ⟨m, horphan.stale, Prod.ext rfl hjob⟩, horphan.dead⟩

section Program

variable {b b' : Backend} {th : Nat}

/-- A command with one outcome returns it. -/
theorem returns_request {q : Command} {v : Reply q} {t : Backend}
    (h : ∀ c, exec c b q = some (v, t)) (a : Reply q) (u : Backend) :
    (request q).Returns server b a u ↔ a = v ∧ u = t := by
  rw [Prog.returns_call]
  constructor
  · intro hcall
    obtain ⟨c, hexec⟩ := hcall
    cases (h c).symm.trans hexec
    exact ⟨rfl, rfl⟩
  · rintro ⟨rfl, rfl⟩
    exact ⟨sampleChoice sampleJobId, h _⟩

theorem returns_withContext {q : Command} {msg : String} {v : Reply q} {t : Backend}
    (h : ∀ c, exec c b q = some (v, t)) (a : Reply q) (u : Backend) :
    (withContext (request q) msg).Returns server b a u ↔ a = v ∧ u = t :=
  Prog.returns_mapError.trans (returns_request h a u)

/-- A connection costs nothing but the breaker's leave. -/
theorem returns_getConnection (v : Unit) (u : Backend) :
    getConnection.Returns server b v u ↔ v = () ∧ u = b := by
  have hpool : (withContext (request .poolGet) "failed to acquire Redis connection").Returns server
      b v u ↔ v = () ∧ u = b := returns_withContext (q := .poolGet) (fun _ => rfl) v u
  unfold getConnection
  rw [Prog.returns_bind]
  constructor
  · intro h
    obtain ⟨closed, w, hbreaker, h⟩ := h
    obtain ⟨_, hexec⟩ := Prog.returns_call.mp hbreaker
    cases hexec
    split at h
    · exact hpool.mp h
    · cases h
  · intro h
    refine ⟨true, b, Prog.returns_call.mpr ⟨sampleChoice sampleJobId, rfl⟩, ?_⟩
    rw [if_pos rfl]
    exact hpool.mpr h

/-- The loop over the workers asks for their heartbeats, and keeps the jobs of the dead. -/
theorem returns_jobsOfDeadWorkers {cutoff : Int} {groups : List (String × List Uuid)}
    (jobs : List Uuid) (u : Backend) :
    (jobsOfDeadWorkers cutoff groups).Returns server b jobs u
      ↔ jobs = deadJobs b cutoff groups ∧ u = b := by
  induction groups generalizing jobs u with
  | nil =>
      show [] = jobs ∧ b = u ↔ jobs = [] ∧ u = b
      rw [eq_comm (a := []), eq_comm (a := b)]
  | cons g groups ih =>
      obtain ⟨worker, ids⟩ := g
      refine (Prog.returns_bind_of_unique (returns_withContext fun _ => rfl)).trans ?_
      refine (Prog.returns_bind_of_unique ih).trans ?_
      rw [Prog.returns_pure, deadJobs_cons ?dead, eq_comm, eq_comm (a := b)]
      -- no heartbeat, or one to compare with the cutoff
      unfold IsDead
      cases b.redis.get b.now (heartbeatKey worker) <;> simp

/-- **The run of a recovery**: it returns the number of the jobs it recovers,
and the script has run over them. -/
theorem returns_recoverOrphanedJobs {order : HashOrder} (n : Nat) (u : Backend) :
    (recoverOrphanedJobs order th).Returns server b n u ↔
      n = (recoveredJobs order th b).length
        ∧ u = { b with redis := (recoveredJobs order th b).foldl (Redis.recoverJob b.now) b.redis } := by
  refine (Prog.returns_bind_of_unique returns_getConnection).trans ?_
  refine (Prog.returns_bind_of_unique (returns_request fun _ => rfl)).trans ?_
  refine (Prog.returns_bind_of_unique (returns_withContext fun _ => rfl)).trans ?_
  have hnone : recoveredJobs order th b = [] → ((pure 0 : EmailM Nat).Returns server b n u ↔
      n = (recoveredJobs order th b).length
        ∧ u = { b with redis :=
            (recoveredJobs order th b).foldl (Redis.recoverJob b.now) b.redis }) := by
    intro hjobs
    rw [hjobs, Prog.returns_pure, eq_comm, eq_comm (a := b)]
    rfl
  by_cases hstale : (b.redis.processing.zrangebyscore (b.now - th)).length = 0
  · rw [if_pos hstale]
    exact hnone (recoveredJobs_eq_nil (List.eq_nil_of_length_eq_zero hstale))
  rw [if_neg hstale]
  refine (Prog.returns_bind_of_unique returns_jobsOfDeadWorkers).trans ?_
  by_cases hjobs : (recoveredJobs order th b).isEmpty = true
  · rw [← recoveredJobs, if_pos hjobs]
    exact hnone (List.isEmpty_iff.mp hjobs)
  · rw [← recoveredJobs, if_neg hjobs]
    exact returns_withContext (q := .recoverJobs b.now (recoveredJobs order th b)) (fun _ => rfl) n u

end Program

/-! ## §3. What the script does to the sets. -/

section Script

variable {now : Int} {r : Redis} {j : Uuid} {jobs : List Uuid}

/-- For one job, the script removes the bare entry. -/
theorem mem_processing_recoverJob {e : Int ×ₗ Member} :
    e ∈ (r.recoverJob now j).processing.entries ↔
      e ∈ r.processing.entries ∧ (ofLex e).2 ≠ .bare j := by
  unfold Redis.recoverJob
  cases hfind : r.processing.zrange.find? (·.isOf j) with
  | none =>
      -- there is no such entry to remove
      refine (and_iff_left_of_imp ?_).symm
      intro he hbare
      have hmem : .bare j ∈ r.processing.zrange := by
        rw [← hbare]
        exact List.mem_map_of_mem he
      exact List.find?_eq_none.mp hfind _ hmem (Member.isOf_iff.mpr rfl)
  | some m =>
      obtain rfl : m = .bare j := Member.isOf_iff.mp (by simpa using List.find?_some hfind)
      exact SortedSet.mem_entries_zrem

theorem mem_queue_recoverJob {e : Int ×ₗ Uuid} :
    e ∈ ((r.recoverJob now j).jobs .queue).entries ↔
      e = toLex (now, j) ∨ e ∈ (r.jobs .queue).entries ∧ (ofLex e).2 ≠ j := by
  unfold Redis.recoverJob
  rw [Redis.jobs_modify, if_pos rfl]
  exact SortedSet.mem_entries_zadd

/-- Over all jobs, it removes their bare entries. -/
theorem mem_processing_recoverJobs {e : Int ×ₗ Member} :
    e ∈ (jobs.foldl (Redis.recoverJob now) r).processing.entries ↔
      e ∈ r.processing.entries ∧ ∀ j ∈ jobs, (ofLex e).2 ≠ .bare j := by
  induction jobs generalizing r with
  | nil => exact (and_iff_left fun _ hj => absurd hj List.not_mem_nil).symm
  | cons j jobs ih =>
      rw [List.foldl_cons, ih, mem_processing_recoverJob, List.forall_mem_cons, and_assoc]

/-- Jobs that are queued one by one are queued for now, and the rest of the queue stays. -/
theorem mem_queue_foldl {f : Redis → Uuid → Redis} {e : Int ×ₗ Uuid}
    (hf : ∀ r j, e ∈ ((f r j).jobs .queue).entries ↔
      e = toLex (now, j) ∨ e ∈ (r.jobs .queue).entries ∧ (ofLex e).2 ≠ j) :
    e ∈ ((jobs.foldl f r).jobs .queue).entries ↔
      (ofLex e).2 ∈ jobs ∧ (ofLex e).1 = now
        ∨ e ∈ (r.jobs .queue).entries ∧ (ofLex e).2 ∉ jobs := by
  induction jobs generalizing r with
  | nil => simp
  | cons j jobs ih =>
      have hnew : e = toLex (now, j) ↔ (ofLex e).1 = now ∧ (ofLex e).2 = j := Prod.ext_iff
      rw [List.foldl_cons, ih, hf, hnew, List.mem_cons]
      -- a later turn may queue the job again, to no effect
      by_cases hlater : (ofLex e).2 ∈ jobs
      · simp only [hlater, true_and, not_true_eq_false, and_false, or_false, or_true]
      · simp only [hlater, false_and, false_or, or_false, not_false_eq_true, and_true]
        exact or_congr_left and_comm

theorem mem_queue_recoverJobs {e : Int ×ₗ Uuid} :
    e ∈ ((jobs.foldl (Redis.recoverJob now) r).jobs .queue).entries ↔
      (ofLex e).2 ∈ jobs ∧ (ofLex e).1 = now
        ∨ e ∈ (r.jobs .queue).entries ∧ (ofLex e).2 ∉ jobs :=
  mem_queue_foldl fun _ _ => mem_queue_recoverJob

theorem strings_recoverJobs : (jobs.foldl (Redis.recoverJob now) r).strings = r.strings := by
  induction jobs generalizing r with
  | nil => rfl
  | cons j jobs ih =>
      rw [List.foldl_cons, ih]
      rfl

end Script

/-! ## §4. What a recovery leaves. -/

section Recovery

variable {order : HashOrder} {th n : Nat} {b b' : Backend}

theorem IsDead.of_strings {cutoff : Int} {worker : String} (h : IsDead b cutoff worker)
    (hnow : b'.now = b.now) (hstrings : b'.redis.strings = b.redis.strings) :
    IsDead b' cutoff worker := by
  unfold IsDead Redis.get at h ⊢
  rw [hnow, hstrings]
  exact h

/-- An entry the script does not remove is an orphan still. -/
theorem Orphaned.after {m : Member} (h : Orphaned th b m)
    (hrun : (recoverOrphanedJobs order th).Returns server b n b') (howned : ∀ j, m ≠ .bare j) :
    Orphaned th b' m := by
  obtain ⟨_, rfl⟩ := (returns_recoverOrphanedJobs n b').mp hrun
  obtain ⟨e, he, hscore, rfl⟩ := h.stale
  exact ⟨⟨e, mem_processing_recoverJobs.mpr ⟨he, fun j _ => howned j⟩, hscore, rfl⟩,
    h.dead.of_strings rfl strings_recoverJobs⟩

/-- An orphan makes a recovery recover something. -/
theorem Orphaned.recovered {m : Member} (h : Orphaned th b m)
    (hrun : (recoverOrphanedJobs order th).Returns server b n b') : n ≠ 0 := by
  obtain ⟨rfl, _⟩ := (returns_recoverOrphanedJobs n b').mp hrun
  exact (List.length_pos_of_mem (mem_recoveredJobs.mpr ⟨m, h, rfl⟩)).ne'

/-- A recovery can always succeed. -/
theorem exists_recovery (order : HashOrder) (th : Nat) (b : Backend) :
    ∃ n b', (recoverOrphanedJobs order th).Returns server b n b' :=
  ⟨_, _, (returns_recoverOrphanedJobs _ _).mpr ⟨rfl, rfl⟩⟩

/-- Where all orphans are bare, a job is orphaned when its bare entry is. -/
theorem orphanedJob_iff (hbare : ∀ worker j, ¬Orphaned th b (.owned worker j)) {j : Uuid} :
    OrphanedJob th b j ↔ Orphaned th b (.bare j) := by
  constructor
  · intro h
    obtain ⟨m, hm, rfl⟩ := h
    cases m with
    | owned worker j => exact absurd hm (hbare worker j)
    | bare j => exact hm
  · intro h
    exact ⟨.bare j, h, rfl⟩

/-- The removed entries are then the orphaned ones. -/
theorem recovers_of_bare (hbare : ∀ worker j, ¬Orphaned th b (.owned worker j))
    (hrun : (recoverOrphanedJobs order th).Returns server b n b') : Recovers th b b' := by
  obtain ⟨_, rfl⟩ := (returns_recoverOrphanedJobs n b').mp hrun
  constructor
  · intro e
    have hjobs : (ofLex e).2 ∈ recoveredJobs order th b ↔ OrphanedJob th b (ofLex e).2 :=
      mem_recoveredJobs
    rw [← hjobs]
    exact mem_queue_recoverJobs
  · intro e
    refine mem_processing_recoverJobs.trans (and_congr_right fun _ => ?_)
    simp only [mem_recoveredJobs, orphanedJob_iff hbare]
    constructor
    · intro hkept horphan
      cases hm : (ofLex e).2 with
      | owned worker j =>
          rw [hm] at horphan
          exact hbare worker j horphan
      | bare j =>
          rw [hm] at horphan
          exact hkept j horphan hm
    · intro hnot j horphan hm
      rw [hm] at hnot
      exact hnot horphan

/-- A recovery that removes all orphans leaves none. -/
theorem Recovers.settled (h : Recovers th b b')
    (hrun : (recoverOrphanedJobs order th).Returns server b n b') (m : Member) :
    ¬Orphaned th b' m := by
  intro horphan
  obtain ⟨_, rfl⟩ := (returns_recoverOrphanedJobs n b').mp hrun
  obtain ⟨e, he, hscore, rfl⟩ := horphan.stale
  obtain ⟨he', hnot⟩ := (h.processing e).mp he
  exact hnot ⟨⟨e, he', hscore, rfl⟩, horphan.dead.of_strings rfl strings_recoverJobs.symm⟩

/-- **Orphan recovery moves, and is idempotent**, exactly when all orphaned
entries are bare ones. -/
theorem orphan_recovery_iff (hrun : (recoverOrphanedJobs order th).Returns server b n b') :
    (Recovers th b b' ∧ ∀ order' n' b'',
        (recoverOrphanedJobs order' th).Returns server b' n' b'' → n' = 0)
      ↔ ∀ worker j, ¬Orphaned th b (.owned worker j) := by
  constructor
  · intro h worker j horphan
    have hafter := horphan.after hrun (by simp)
    obtain ⟨n', b'', hagain⟩ := exists_recovery order th b'
    exact hafter.recovered hagain (h.2 order n' b'' hagain)
  · intro hbare
    have hrecovers := recovers_of_bare hbare hrun
    refine ⟨hrecovers, ?_⟩
    intro order' n' b'' hagain
    obtain ⟨rfl, _⟩ := (returns_recoverOrphanedJobs n' b'').mp hagain
    refine List.length_eq_zero_iff.mpr (List.eq_nil_iff_forall_not_mem.mpr ?_)
    intro j hj
    obtain ⟨m, horphan, _⟩ := mem_recoveredJobs.mp hj
    exact hrecovers.settled hrun m horphan

end Recovery

/-- A job that its worker started an hour ago, and then died. -/
def sampleOrphan (m : Member) : Backend :=
  { now := 3600, redis := { processing := SortedSet.empty.zadd 0 m } }

theorem orphaned_sample (m : Member) : Orphaned 600 (sampleOrphan m) m := by
  refine ⟨⟨toLex (0, m), ?_, (by decide : (0 : Int) ≤ 3600 - (600 : Nat)), rfl⟩, ?_⟩
  · exact SortedSet.mem_entries_zadd.mpr (.inl rfl)
  · intro hb hget
    cases hget

/-- Its entry outlasts the recovery, and the second call recovers it again. -/
theorem owned_orphan_recovered_twice :
    ∃ order n b' n' b'',
      (recoverOrphanedJobs order 600).Returns server
          (sampleOrphan (.owned sampleWorkerId sampleJobId)) n b'
        ∧ .owned sampleWorkerId sampleJobId ∈ b'.redis.processing
        ∧ (recoverOrphanedJobs order 600).Returns server b' n' b'' ∧ n' ≠ 0 := by
  have horphan := orphaned_sample (.owned sampleWorkerId sampleJobId)
  obtain ⟨n, b', hrun⟩ := exists_recovery ⟨id, fun _ => .refl _⟩ 600
    (sampleOrphan (.owned sampleWorkerId sampleJobId))
  have hafter := horphan.after hrun (by simp)
  obtain ⟨n', b'', hagain⟩ := exists_recovery ⟨id, fun _ => .refl _⟩ 600 b'
  obtain ⟨e, he, _, hm⟩ := hafter.stale
  refine ⟨_, n, b', n', b'', hrun, ?_, hagain, hafter.recovered hagain⟩
  rw [← hm]
  exact List.mem_map_of_mem he

/-- A bare entry is recovered once. -/
theorem bare_orphan_recovered :
    ∃ order n b', (recoverOrphanedJobs order 600).Returns server
        (sampleOrphan (.bare sampleJobId)) n b'
      ∧ Recovers 600 (sampleOrphan (.bare sampleJobId)) b'
      ∧ ∀ order' n' b'', (recoverOrphanedJobs order' 600).Returns server b' n' b'' → n' = 0 := by
  obtain ⟨n, b', hrun⟩ := exists_recovery ⟨id, fun _ => .refl _⟩ 600
    (sampleOrphan (.bare sampleJobId))
  refine ⟨_, n, b', hrun, (orphan_recovery_iff hrun).mpr ?_⟩
  intro worker j h
  obtain ⟨e, he, _, hm⟩ := h.stale
  rcases SortedSet.mem_entries_zadd.mp he with rfl | ⟨he, _⟩
  · cases hm
  · cases he

end PredictIQ.Email
