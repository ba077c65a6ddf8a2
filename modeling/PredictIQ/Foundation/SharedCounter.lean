/-
  PredictIQ.Foundation.SharedCounter: a counter that is read and written in two steps.

  Every worker reads the value once and later writes one more.  The value never
  passes the number of completed workers (`Sound`); it equals that number as
  long as no worker writes while another is between its two steps (`Exact`);
  and once one does, an increment is lost for good (`Doomed`).
-/
import Mathlib.Data.Fintype.Card

namespace Foundation

/-- How far a worker is. -/
inductive Increment
  | idle
  | read (current : Nat)
  | done
  deriving DecidableEq

structure SharedCounter (ι : Type) where
  value : Nat
  stage : ι → Increment

namespace SharedCounter

variable {ι : Type} [DecidableEq ι]

/-! ## §1. The two steps. -/

def init : SharedCounter ι := ⟨0, fun _ => .idle⟩

/-- Worker `i` reads the value. -/
def read (s : SharedCounter ι) (i : ι) : SharedCounter ι :=
  match s.stage i with
  | .idle => { s with stage := Function.update s.stage i (.read s.value) }
  | _ => s

/-- Worker `i` writes one more than what it read. -/
def write (s : SharedCounter ι) (i : ι) : SharedCounter ι :=
  match s.stage i with
  | .read current => ⟨current + 1, Function.update s.stage i .done⟩
  | _ => s

/-- Nobody but `i` is between its two steps. -/
def Solo (s : SharedCounter ι) (i : ι) : Prop := ∀ j c, s.stage j = .read c → j = i

variable {s : SharedCounter ι} {i j : ι} {c : Nat}

theorem read_of_not_idle (h : s.stage i ≠ .idle) : s.read i = s := by
  unfold read
  split
  · contradiction
  · rfl

theorem write_of_not_read (h : ∀ c, s.stage i ≠ .read c) : s.write i = s := by
  unfold write
  split
  · next hread => exact absurd hread (h _)
  · rfl

theorem value_read (s : SharedCounter ι) (i : ι) : (s.read i).value = s.value := by
  unfold read
  split <;> rfl

theorem stage_read_self (h : s.stage i = .idle) : (s.read i).stage i = .read s.value := by
  unfold read
  rw [h]
  exact Function.update_self _ _ _

theorem stage_read_of_ne (s : SharedCounter ι) (h : j ≠ i) : (s.read i).stage j = s.stage j := by
  unfold read
  split
  · exact Function.update_of_ne h _ _
  · rfl

theorem value_write (h : s.stage i = .read c) : (s.write i).value = c + 1 := by
  unfold write
  rw [h]

theorem stage_write_self (h : s.stage i = .read c) : (s.write i).stage i = .done := by
  unfold write
  rw [h]
  exact Function.update_self _ _ _

theorem stage_write_of_ne (s : SharedCounter ι) (h : j ≠ i) : (s.write i).stage j = s.stage j := by
  unfold write
  split
  · exact Function.update_of_ne h _ _
  · rfl

/-- What a worker has read was read before, or just now. -/
theorem of_stage_read (h : (s.read i).stage j = .read c) : s.stage j = .read c ∨ (j = i ∧ c = s.value) := by
  by_cases hidle : s.stage i = .idle
  · by_cases hj : j = i
    · subst hj
      rw [stage_read_self hidle] at h
      exact .inr ⟨rfl, (Increment.read.inj h).symm⟩
    · rw [stage_read_of_ne s hj] at h
      exact .inl h
  · rw [read_of_not_idle hidle] at h
    exact .inl h

/-- Who has read and not written is another than the one that writes. -/
theorem of_stage_write (h : (s.write i).stage j = .read c) : s.stage j = .read c ∧ j ≠ i := by
  have hne : j ≠ i := by
    rintro rfl
    by_cases hread : ∃ c, s.stage j = .read c
    · obtain ⟨c', hread⟩ := hread
      rw [stage_write_self hread] at h
      cases h
    · have hnone := not_exists.mp hread
      rw [write_of_not_read hnone] at h
      exact hnone c h
  rw [stage_write_of_ne s hne] at h
  exact ⟨h, hne⟩

theorem stage_read_done (h : s.stage j = .done) : (s.read i).stage j = .done := by
  by_cases hj : j = i
  · subst hj
    rwa [read_of_not_idle (by rw [h]; nofun)]
  · rwa [stage_read_of_ne s hj]

theorem stage_write_done (h : s.stage j = .done) : (s.write i).stage j = .done := by
  by_cases hj : j = i
  · subst hj
    rwa [write_of_not_read (by rw [h]; nofun)]
  · rwa [stage_write_of_ne s hj]

/-! ## §2. Completed workers. -/

variable [Fintype ι]

/-- The number of workers that have written. -/
def completions (s : SharedCounter ι) : Nat := (Finset.univ.filter fun i => s.stage i = .done).card

omit [DecidableEq ι] in
theorem completions_init : (init : SharedCounter ι).completions = 0 := by
  unfold completions init
  rw [Finset.filter_false_of_mem fun _ _ => nofun, Finset.card_empty]

theorem completions_read (s : SharedCounter ι) (i : ι) : (s.read i).completions = s.completions := by
  by_cases hidle : s.stage i = .idle
  · have hsame : ∀ j, (s.read i).stage j = .done ↔ s.stage j = .done := fun j => by
      by_cases hj : j = i
      · subst hj
        rw [stage_read_self hidle, hidle]
        exact ⟨nofun, nofun⟩
      · rw [stage_read_of_ne s hj]
    unfold completions
    rw [Finset.filter_congr fun j _ => hsame j]
  · rw [read_of_not_idle hidle]

theorem completions_write (h : s.stage i = .read c) : (s.write i).completions = s.completions + 1 := by
  have hnew : (Finset.univ.filter fun j => (s.write i).stage j = .done)
      = insert i (Finset.univ.filter fun j => s.stage j = .done) := by
    ext j
    rw [Finset.mem_insert, Finset.mem_filter, Finset.mem_filter]
    by_cases hj : j = i
    · subst hj
      simp [stage_write_self h]
    · simp [stage_write_of_ne s hj, hj]
  unfold completions
  rw [hnew, Finset.card_insert_of_notMem]
  simp [h]

omit [DecidableEq ι] in
/-- All workers have written when there are as many as workers. -/
theorem completions_eq_card_iff : s.completions = Fintype.card ι ↔ ∀ i, s.stage i = .done := by
  unfold completions
  rw [← Finset.card_univ, Finset.card_filter_eq_iff]
  exact ⟨fun h i => h i (Finset.mem_univ i), fun h i _ => h i⟩

/-! ## §3. What the value says. -/

/-- The value, and what is read of it, is at most the number of completed workers. -/
structure Sound (s : SharedCounter ι) : Prop where
  value_le : s.value ≤ s.completions
  read_le : ∀ i c, s.stage i = .read c → c ≤ s.completions

omit [DecidableEq ι] in
theorem sound_init : (init : SharedCounter ι).Sound := ⟨Nat.zero_le _, nofun⟩

theorem Sound.read (h : s.Sound) (i : ι) : (s.read i).Sound := by
  constructor
  · rw [value_read, completions_read]
    exact h.value_le
  · intro j c hj
    rw [completions_read]
    rcases of_stage_read hj with hj | ⟨-, rfl⟩
    · exact h.read_le j c hj
    · exact h.value_le

theorem Sound.write (h : s.Sound) (i : ι) : (s.write i).Sound := by
  by_cases hread : ∃ c, s.stage i = .read c
  · obtain ⟨c, hread⟩ := hread
    constructor
    · rw [completions_write hread, value_write hread]
      exact Nat.succ_le_succ (h.read_le i c hread)
    · intro j c' hj
      rw [completions_write hread]
      exact Nat.le_succ_of_le (h.read_le j c' (of_stage_write hj).1)
  · rw [write_of_not_read (not_exists.mp hread)]
    exact h

/-- The value, and what is read of it, is the number of completed workers. -/
structure Exact (s : SharedCounter ι) : Prop where
  value_eq : s.value = s.completions
  read_eq : ∀ i c, s.stage i = .read c → c = s.completions

omit [DecidableEq ι] in
theorem exact_init : (init : SharedCounter ι).Exact := ⟨completions_init.symm, nofun⟩

theorem Exact.read (h : s.Exact) (i : ι) : (s.read i).Exact := by
  constructor
  · rw [value_read, completions_read]
    exact h.value_eq
  · intro j c hj
    rw [completions_read]
    rcases of_stage_read hj with hj | ⟨-, rfl⟩
    · exact h.read_eq j c hj
    · exact h.value_eq

/-- **A worker that writes alone is counted.** -/
theorem Exact.write (h : s.Exact) (hsolo : ∀ c, s.stage i = .read c → s.Solo i) : (s.write i).Exact := by
  by_cases hread : ∃ c, s.stage i = .read c
  · obtain ⟨c, hread⟩ := hread
    constructor
    · rw [completions_write hread, value_write hread]
      exact congrArg (· + 1) (h.read_eq i c hread)
    · intro j c' hj
      obtain ⟨hj, hne⟩ := of_stage_write hj
      exact absurd (hsolo c hread j c' hj) hne
  · rw [write_of_not_read (not_exists.mp hread)]
    exact h

/-- A worker will write too little, or the value is too small for everyone. -/
def Doomed (s : SharedCounter ι) : Prop :=
  (∃ i c, s.stage i = .read c ∧ c < s.completions)
    ∨ (s.value < s.completions ∧ ∀ i c, s.stage i = .read c → c < s.completions)

theorem Doomed.read (h : s.Doomed) (i : ι) : (s.read i).Doomed := by
  unfold Doomed
  rw [completions_read]
  by_cases hidle : s.stage i = .idle
  · rcases h with ⟨j, c, hj, hc⟩ | ⟨hvalue, hall⟩
    · refine .inl ⟨j, c, ?_, hc⟩
      have hne : j ≠ i := by
        rintro rfl
        rw [hidle] at hj
        cases hj
      rw [stage_read_of_ne s hne]
      exact hj
    · refine .inr ⟨by rw [value_read]; exact hvalue, fun j c hj => ?_⟩
      rcases of_stage_read hj with hj | ⟨-, rfl⟩
      · exact hall j c hj
      · exact hvalue
  · rw [read_of_not_idle hidle]
    exact h

/-- What is lost stays lost: whoever read too little writes too little. -/
theorem Doomed.write (h : s.Doomed) (hsound : s.Sound) (i : ι) : (s.write i).Doomed := by
  by_cases hread : ∃ c, s.stage i = .read c
  · obtain ⟨c, hread⟩ := hread
    unfold Doomed
    rw [completions_write hread]
    have hothers : ∀ j c', (s.write i).stage j = .read c' → c' < s.completions + 1 := fun j c' hj =>
      Nat.lt_succ_of_le (hsound.read_le j c' (of_stage_write hj).1)
    have hlost : c < s.completions → (s.write i).value < s.completions + 1 := fun hc => by
      rw [value_write hread]
      exact Nat.succ_lt_succ hc
    rcases h with ⟨j, c', hj, hc'⟩ | ⟨-, hall⟩
    · by_cases hji : j = i
      · subst hji
        rw [hread] at hj
        cases hj
        exact .inr ⟨hlost hc', hothers⟩
      · refine .inl ⟨j, c', ?_, by omega⟩
        rw [stage_write_of_ne s hji]
        exact hj
    · exact .inr ⟨hlost (hall i c hread), hothers⟩
  · rw [write_of_not_read (not_exists.mp hread)]
    exact h

/-- **A worker that writes while another has read dooms the count.** -/
theorem doomed_of_not_solo (hsound : s.Sound) (hread : s.stage i = .read c) (h : ¬s.Solo i) : (s.write i).Doomed := by
  simp only [Solo, not_forall] at h
  obtain ⟨j, c', hj, hne⟩ := h
  refine .inl ⟨j, c', ?_, ?_⟩
  · rw [stage_write_of_ne s hne]
    exact hj
  · rw [completions_write hread]
    exact Nat.lt_succ_of_le (hsound.read_le j c' hj)

omit [DecidableEq ι] in
/-- With all workers completed, a doomed count is short. -/
theorem Doomed.value_lt (h : s.Doomed) (hall : ∀ i, s.stage i = .done) : s.value < Fintype.card ι := by
  rcases h with ⟨i, c, hi, -⟩ | ⟨hvalue, -⟩
  · rw [hall i] at hi
    cases hi
  · rwa [completions_eq_card_iff.mpr hall] at hvalue

end SharedCounter

end Foundation
