/-
  PredictIQ.Foundation.TaskHistory: the tasks behind the processes of a run.

  A monitor may depend on the task that a process was started on.  The history
  of a run says which task that is, and which of its steps belong to the call
  in progress; `tasksMonitored_run` is the invariant that every process in
  flight obeys the monitor of its own task.
-/
import PredictIQ.Foundation.Process

namespace Foundation

namespace Machine

variable {Q P : Type} [DecidableEq P] {R : Q → Type} {ε σ χ η τ Φ : Type}

/-! ## §1. Tasks and calls of a history. -/

/-- The tasks of the processes after one more action. -/
def tasksAfter (tasks : P → τ) (m : Machine P R ε σ) (a : Act P τ ε χ η) : P → τ :=
  match a with
  | .start p task => if (m.procs p).isNone then Function.update tasks p task else tasks
  | _ => tasks

/-- The task that each process was last started on, `task₀` before that. -/
def tasksOf (task₀ : τ) (history : List (Transition (Machine P R ε σ) (Act P τ ε χ η))) : P → τ :=
  history.foldl (fun tasks t => tasksAfter tasks t.pre t.act) fun _ => task₀

theorem tasksOf_concat (task₀ : τ) (history : List (Transition (Machine P R ε σ) (Act P τ ε χ η)))
    (t : Transition (Machine P R ε σ) (Act P τ ε χ η)) :
    tasksOf task₀ (history ++ [t]) = tasksAfter (tasksOf task₀ history) t.pre t.act := by
  unfold tasksOf
  rw [List.foldl_append]
  rfl

/-- Where the processes were started, after one more action. -/
def startsAfter (starts : P → Machine P R ε σ) (m : Machine P R ε σ) (a : Act P τ ε χ η) : P → Machine P R ε σ :=
  match a with
  | .start p _ => if (m.procs p).isNone then Function.update starts p m else starts
  | _ => starts

/-- The machine that each process was last started in, `m₀` before that. -/
def startsOf (m₀ : Machine P R ε σ) (history : List (Transition (Machine P R ε σ) (Act P τ ε χ η))) :
    P → Machine P R ε σ :=
  history.foldl (fun starts t => startsAfter starts t.pre t.act) fun _ => m₀

theorem startsOf_concat (m₀ : Machine P R ε σ) (history : List (Transition (Machine P R ε σ) (Act P τ ε χ η)))
    (t : Transition (Machine P R ε σ) (Act P τ ε χ η)) :
    startsOf m₀ (history ++ [t]) = startsAfter (startsOf m₀ history) t.pre t.act := by
  unfold startsOf
  rw [List.foldl_append]
  rfl

/-- The steps of the call of `p` in progress, after one more transition. -/
def callAfter (p : P) (steps : List (Transition (Machine P R ε σ) (Act P τ ε χ η)))
    (t : Transition (Machine P R ε σ) (Act P τ ε χ η)) : List (Transition (Machine P R ε σ) (Act P τ ε χ η)) :=
  match t.act with
  | .start p' _ => if p' = p ∧ (t.pre.procs p).isNone = true then [] else steps
  | a => if a.asker = some p then steps ++ [t] else steps

/-- The steps that process `p` has taken since it was last started. -/
def callOf (p : P) (history : List (Transition (Machine P R ε σ) (Act P τ ε χ η))) :
    List (Transition (Machine P R ε σ) (Act P τ ε χ η)) :=
  history.foldl (callAfter p) []

theorem callOf_concat (p : P) (history : List (Transition (Machine P R ε σ) (Act P τ ε χ η)))
    (t : Transition (Machine P R ε σ) (Act P τ ε χ η)) :
    callOf p (history ++ [t]) = callAfter p (callOf p history) t := by
  unfold callOf
  rw [List.foldl_append]
  rfl

theorem callAfter_of_asker {p : P} {t : Transition (Machine P R ε σ) (Act P τ ε χ η)} (h : t.act.asker = some p)
    (steps : List (Transition (Machine P R ε σ) (Act P τ ε χ η))) : callAfter p steps t = steps ++ [t] := by
  obtain ⟨m, a, m'⟩ := t
  cases a with
  | start p' task => cases h
  | answer p' c => exact if_pos h
  | refuse p' e => exact if_pos h
  | lose p' c e => exact if_pos h
  | crash p' => cases h
  | outside w => cases h

theorem tasksAfter_of_asker {a : Act P τ ε χ η} {p : P} (h : a.asker = some p) (tasks : P → τ)
    (m : Machine P R ε σ) : tasksAfter tasks m a = tasks := by
  cases a with
  | start p' task => cases h
  | answer p' c => rfl
  | refuse p' e => rfl
  | lose p' c e => rfl
  | crash p' => cases h
  | outside w => cases h

variable (S : Server R σ χ) (prog : P → τ → Prog R ε Unit) (outside : η → σ → σ)

/-- An answer that the server can give is delivered. -/
theorem step_eq_deliver {m : Machine P R ε σ} {a : Act P τ ε χ η} {p : P} {l : Live R ε} {s : σ}
    {r : Except ε (R l.question)} (ha : a.asker = some p) (hl : m.procs p = some l)
    (hr : reply S m.store a l.question = some (s, r)) : step S prog outside m a = m.deliver p l s r := by
  have hserve : m.serve S p a = m.deliver p l s r := by
    unfold serve
    rw [hl]
    simp only [hr]
  cases a with
  | start p' task => cases ha
  | answer p' c => cases ha; exact hserve
  | refuse p' e => cases ha; exact hserve
  | lose p' c e => cases ha; exact hserve
  | crash p' => cases ha
  | outside w => cases ha

/-- A step that changes nothing gives no answer. -/
theorem reply_eq_none_of_step {m : Machine P R ε σ} {a : Act P τ ε χ η} {p : P} {l : Live R ε}
    (hstep : step S prog outside m a = m) (ha : a.asker = some p) (hl : m.procs p = some l) :
    reply S m.store a l.question = none := by
  cases hr : reply S m.store a l.question with
  | none => rfl
  | some sr =>
      obtain ⟨s, r⟩ := sr
      have hlog := congrArg (fun m => m.log.length) (hstep.symm.trans (step_eq_deliver S prog outside ha hl hr))
      simp [deliver] at hlog

/-- A question that the server never turns down is answered when it is carried out. -/
theorem deliver_of_performs {m : Machine P R ε σ} {a : Act P τ ε χ η} {q : Q} (hq : m.performs a = some q)
    (hfallible : S.fallible q = true) (hexec : ∀ c, (S.exec c m.store q).isSome = true) :
    ∃ p l c v s r, a.asker = some p ∧ m.procs p = some l ∧ l.question = q
      ∧ S.exec c m.store q = some (v, s) ∧ step S prog outside m a = m.deliver p l s r := by
  have hdeliver : ∀ p c, a.asker = some p → (m.procs p).map (·.question) = some q →
      (∀ v s, S.exec c m.store q = some (v, s) → ∃ r, reply S m.store a q = some (s, r)) →
      ∃ p l c v s r, a.asker = some p ∧ m.procs p = some l ∧ l.question = q
        ∧ S.exec c m.store q = some (v, s) ∧ step S prog outside m a = m.deliver p l s r := by
    intro p c ha hp hreply
    obtain ⟨l, hl, rfl⟩ := Option.map_eq_some_iff.mp hp
    obtain ⟨⟨v, s⟩, hs⟩ := Option.isSome_iff_exists.mp (hexec c)
    obtain ⟨r, hr⟩ := hreply v s hs
    exact ⟨p, l, c, v, s, r, ha, hl, rfl, hs, step_eq_deliver S prog outside ha hl hr⟩
  cases a with
  | answer p c => exact hdeliver p c rfl hq fun v s hs => ⟨.ok v, by simp [reply, hs]⟩
  | lose p c e => exact hdeliver p c rfl hq fun v s hs => ⟨.error e, by simp [reply, hs, hfallible]⟩
  | start p task => cases hq
  | refuse p e => cases hq
  | crash p => cases hq
  | outside w => cases hq

/-- It takes effect, whether or not the answer arrives. -/
theorem store_of_performs {m : Machine P R ε σ} {a : Act P τ ε χ η} {q : Q} (hq : m.performs a = some q)
    (hfallible : S.fallible q = true) (hexec : ∀ c, (S.exec c m.store q).isSome = true) :
    ∃ c v, S.exec c m.store q = some (v, (step S prog outside m a).store) := by
  obtain ⟨p, l, c, v, s, r, -, -, -, hs, hstep⟩ := deliver_of_performs S prog outside hq hfallible hexec
  rw [hstep]
  exact ⟨c, v, hs⟩

/-- Action `a` is the last answer of process `p`, which ends with `res`. -/
def Ends (m : Machine P R ε σ) (a : Act P τ ε χ η) (p : P) (res : Except ε Unit) : Prop :=
  ∃ (l : Live R ε) (s : σ) (r : Except ε (R l.question)), a.asker = some p ∧ m.procs p = some l
    ∧ reply S m.store a l.question = some (s, r) ∧ l.rest r = .done res

/-! ## §2. Monitors of tasks. -/

variable (M : τ → Monitor R ε Φ) (post : τ → Φ → Except ε Unit → Prop)

/-- Every program in flight obeys the monitor of the task it was started on. -/
def TasksMonitored (tasks : P → τ) (m : Machine P R ε σ) : Prop :=
  ∀ p l, m.procs p = some l →
    (M (tasks p)).Obeys (post (tasks p)) (phaseAfter (M (tasks p)) l.heard) (.ask l.question l.rest)

variable {S prog outside M post}

theorem phaseAfter_concat (N : Monitor R ε Φ) (heard : List (Exchange R ε)) (x : Exchange R ε) :
    phaseAfter N (heard ++ [x]) = N.next (phaseAfter N heard) x.question x.answer := by
  unfold phaseAfter
  rw [List.foldl_append]
  rfl

/-- A process in flight keeps its task. -/
theorem tasksAfter_eq {tasks : P → τ} {m : Machine P R ε σ} {p : P} {l : Live R ε} (hl : m.procs p = some l)
    (a : Act P τ ε χ η) : tasksAfter tasks m a p = tasks p := by
  cases a with
  | start p' task =>
      simp only [tasksAfter]
      split
      · rename_i hnone
        refine Function.update_of_ne ?_ ..
        rintro rfl
        simp [hl] at hnone
      · rfl
  | answer p' c => rfl
  | refuse p' e => rfl
  | lose p' c e => rfl
  | crash p' => rfl
  | outside w => rfl

/-- **One step.** -/
theorem TasksMonitored.step (hprog : ∀ p t, (M t).Obeys (post t) (M t).start (prog p t)) {tasks : P → τ}
    {m : Machine P R ε σ} (h : TasksMonitored M post tasks m) (a : Act P τ ε χ η) :
    TasksMonitored M post (tasksAfter tasks m a) (step S prog outside m a) := by
  intro p l' hl'
  rcases procs_step_cases S prog outside hl' with ⟨hold, -⟩ | ⟨task, q, k, rfl, hp, hbody, rfl⟩
    | ⟨l, s, r, q, k, -, hl, -, -, hrest, rfl⟩
  · rw [tasksAfter_eq hold]
    exact h p l' hold
  · have htask : tasksAfter tasks m (.start p task : Act P τ ε χ η) p = task := by simp [tasksAfter, hp]
    rw [htask]
    exact hbody ▸ hprog p task
  · rw [tasksAfter_eq hl, phaseAfter_concat]
    exact hrest ▸ (h p l hl).2 r

/-- **Every run.**  In each state of a run every process in flight obeys the
monitor of its own task. -/
theorem tasksMonitored_run (hprog : ∀ p t, (M t).Obeys (post t) (M t).start (prog p t)) (task₀ : τ) (s₀ : σ)
    (as : List (Act P τ ε χ η)) :
    TasksMonitored M post (tasksOf task₀ (trace (Machine.step S prog outside) (idle s₀) as))
      (run (Machine.step S prog outside) (idle s₀ : Machine P R ε σ) as) := by
  refine history_invariant (Machine.step S prog outside)
    (fun history m => TasksMonitored M post (tasksOf task₀ history) m) (fun _ => True) ?_ ?_ as
    fun _ _ => trivial
  · intro p l hl
    cases hl
  · intro as a hM _
    rw [tasksOf_concat]
    exact hM.step hprog a

/-- What a process has heard is in the log. -/
theorem heard_logged_run (s₀ : σ) (as : List (Act P τ ε χ η)) {p : P} {l : Live R ε}
    (hl : (run (Machine.step S prog outside) (idle s₀ : Machine P R ε σ) as).procs p = some l) :
    ∀ x ∈ l.heard, (p, x) ∈ (run (Machine.step S prog outside) (idle s₀ : Machine P R ε σ) as).log := by
  refine run_invariant_of (Machine.step S prog outside)
    (fun m : Machine P R ε σ => ∀ p l, m.procs p = some l → ∀ x ∈ l.heard, (p, x) ∈ m.log) (fun _ => True)
    ?_ ?_ as (fun _ _ => trivial) p l hl
  · intro p l hl
    cases hl
  · intro m a hm _ p l' hl' x hx
    rcases heard_step S prog outside hl' hx with ⟨l, hl, hx⟩ | ⟨q, s, r, -, -, -, hlog, -⟩
    · exact (m.log_isPrefix_step S prog outside a).subset (hm p l hl x hx)
    · exact hlog

end Machine

end Foundation
