/-
  PredictIQ.Foundation.Superseding: tasks of which each supersedes the ones
  before it.

  Tasks are numbered from 1 in the order in which they are issued, and write
  to one cell.  A ledger says how many have been issued and who wrote what.
  `Extends` is what a disciplined step does to it: whatever is added was
  written by a task that no other had superseded; `Orderly` says that the
  writes of each task form a path.
-/
import PredictIQ.Foundation.Run
import Mathlib.Data.List.Chain

namespace Foundation

/-- The number of the latest task, and the writes with their tasks. -/
structure Ledger (ω : Type) where
  issued : Nat
  writes : List (Nat × ω)

namespace Ledger

variable {ω : Type}

/-- One more task; it supersedes the others. -/
def issue (l : Ledger ω) : Ledger ω := { l with issued := l.issued + 1 }

/-- Task `i` writes. -/
def write (l : Ledger ω) (i : Nat) (w : ω) : Ledger ω := { l with writes := l.writes ++ [(i, w)] }

/-- What task `i` has written. -/
def writesOf (l : Ledger ω) (i : Nat) : List ω := (l.writes.filter fun w => w.1 = i).map Prod.snd

@[simp] theorem writesOf_issue (l : Ledger ω) (i : Nat) : l.issue.writesOf i = l.writesOf i := rfl

theorem writesOf_write (l : Ledger ω) (i j : Nat) (w : ω) :
    (l.write j w).writesOf i = if j = i then l.writesOf i ++ [w] else l.writesOf i := by
  by_cases h : j = i <;> simp [writesOf, write, List.filter_append, h]

theorem mem_writesOf {l : Ledger ω} {i : Nat} {w : ω} : w ∈ l.writesOf i ↔ (i, w) ∈ l.writes := by
  simp [writesOf]

/-! ## §1. Superseded tasks. -/

/-- What the second ledger has more than the first was written by tasks that
had not been superseded when the first was kept. -/
structure Extends (l l' : Ledger ω) : Prop where
  issued : l.issued ≤ l'.issued
  writes : ∃ ws, l'.writes = l.writes ++ ws ∧ ∀ w ∈ ws, l.issued ≤ w.1

theorem Extends.refl (l : Ledger ω) : l.Extends l := ⟨Nat.le_refl _, [], by simp, by simp⟩

theorem Extends.trans {l l' l'' : Ledger ω} (h : l.Extends l') (h' : l'.Extends l'') : l.Extends l'' := by
  obtain ⟨ws, hws, hnew⟩ := h.writes
  obtain ⟨ws', hws', hnew'⟩ := h'.writes
  refine ⟨Nat.le_trans h.issued h'.issued, ws ++ ws', by rw [hws', hws, List.append_assoc], ?_⟩
  intro w hw
  have hle := h.issued
  rcases List.mem_append.mp hw with hw | hw
  · exact hnew w hw
  · have := hnew' w hw
    omega

theorem extends_issue (l : Ledger ω) : l.Extends l.issue := by
  refine ⟨?_, [], by simp [issue], by simp⟩
  show l.issued ≤ l.issued + 1
  omega

/-- The latest task writes. -/
theorem extends_write {l : Ledger ω} {i : Nat} (hi : l.issued ≤ i) (w : ω) : l.Extends (l.write i w) := by
  refine ⟨Nat.le_refl _, [(i, w)], rfl, ?_⟩
  simpa using hi

/-- **A superseded task stays silent.** -/
theorem Extends.writesOf_eq {l l' : Ledger ω} (h : l.Extends l') {i : Nat} (hi : i < l.issued) :
    l'.writesOf i = l.writesOf i := by
  obtain ⟨ws, hws, hnew⟩ := h.writes
  have hnone : ws.filter (fun w => w.1 = i) = [] := by
    apply List.filter_eq_nil_iff.mpr
    intro w hw hwi
    have hle := hnew w hw
    have heq : w.1 = i := by simpa using hwi
    omega
  simp [writesOf, hws, List.filter_append, hnone]

section Runs

variable {σ α : Type} (step : σ → α → σ) (ledger : σ → Ledger ω)

/-- A machine whose steps extend its ledger does so in every run. -/
theorem extends_run (hstep : ∀ s a, (ledger s).Extends (ledger (step s a))) (s : σ) (as : List α) :
    (ledger s).Extends (ledger (run step s as)) := by
  induction as generalizing s with
  | nil => exact Extends.refl _
  | cons a as ih => exact (hstep s a).trans (ih (step s a))

end Runs

/-! ## §2. Paths. -/

/-- Values in the order in which a task writes them: one it may begin with,
and then each one that may come next. -/
def IsPath (start : ω → Prop) (next : ω → ω → Prop) (ws : List ω) : Prop :=
  (∀ w ∈ ws.head?, start w) ∧ ws.IsChain next

variable {start : ω → Prop} {next : ω → ω → Prop}

theorem isPath_nil : IsPath start next [] := ⟨by simp, .nil⟩

theorem isPath_singleton {w : ω} (hw : start w) : IsPath start next [w] := ⟨by simpa using hw, .singleton w⟩

theorem IsPath.concat {ws : List ω} {w w' : ω} (h : IsPath start next ws) (hlast : ws.getLast? = some w)
    (hnext : next w w') : IsPath start next (ws ++ [w']) := by
  refine ⟨?_, List.isChain_append.mpr ⟨h.2, .singleton w', ?_⟩⟩
  · -- the beginning is that of a path that is not empty
    cases ws with
    | nil => simp at hlast
    | cons v ws => exact h.1
  · intro v hv v' hv'
    rw [hlast] at hv
    simp only [Option.mem_def, Option.some.injEq, List.head?_cons] at hv hv'
    rwa [← hv, ← hv']

/-- Every write is of a task that has been issued, and those of one task are a path. -/
structure Orderly (start : ω → Prop) (next : ω → ω → Prop) (l : Ledger ω) : Prop where
  bounded : ∀ w ∈ l.writes, w.1 ≤ l.issued
  path : ∀ i, IsPath start next (l.writesOf i)

theorem orderly_empty : Orderly start next (⟨0, []⟩ : Ledger ω) := ⟨by simp, fun _ => isPath_nil⟩

/-- A task that has not been issued has written nothing. -/
theorem Orderly.writesOf_eq_nil {l : Ledger ω} (h : l.Orderly start next) {i : Nat} (hi : l.issued < i) :
    l.writesOf i = [] := by
  apply List.eq_nil_iff_forall_not_mem.mpr
  intro w hw
  have hle := h.bounded _ (mem_writesOf.mp hw)
  dsimp only at hle
  omega

/-- A new task begins with what it may begin with. -/
theorem Orderly.issue {l : Ledger ω} (h : l.Orderly start next) {w : ω} (hw : start w) :
    (l.issue.write (l.issued + 1) w).Orderly start next := by
  constructor
  · intro v hv
    show v.1 ≤ l.issued + 1
    rcases List.mem_append.mp hv with hv | hv
    · exact Nat.le_succ_of_le (h.bounded v hv)
    · simp_all
  · intro i
    rw [writesOf_write]
    split
    · next hi =>
        subst hi
        rw [writesOf_issue, h.writesOf_eq_nil (Nat.lt_succ_self _)]
        exact isPath_singleton hw
    · exact h.path i

/-- The latest task goes on from what it wrote last. -/
theorem Orderly.write {l : Ledger ω} (h : l.Orderly start next) {w w' : ω}
    (hlast : l.writes.getLast? = some (l.issued, w)) (hnext : next w w') :
    (l.write l.issued w').Orderly start next := by
  constructor
  · intro v hv
    show v.1 ≤ l.issued
    rcases List.mem_append.mp hv with hv | hv
    · exact h.bounded v hv
    · simp_all
  · intro i
    rw [writesOf_write]
    split
    · next hi =>
        subst hi
        obtain ⟨ws, hws⟩ := List.getLast?_eq_some_iff.mp hlast
        refine (h.path _).concat ?_ hnext
        simp [writesOf, hws, List.filter_append]
    · exact h.path i

end Ledger

end Foundation
