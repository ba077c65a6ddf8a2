/-
  PredictIQ.Foundation.Loop: while loops.

  `loop cond body n s` runs `while cond do body` from `s` for at most `n`
  rounds; it is `none` when the loop is not over by then.  A loop whose rounds
  keep an invariant and lower a measure ends; one that keeps its condition
  true never does.
-/
import Mathlib.Init

namespace Foundation

variable {σ : Type} (cond : σ → Bool) (body : σ → σ)

def loop : Nat → σ → Option σ
  | 0, s => if cond s then none else some s
  | n + 1, s => if cond s then loop n (body s) else some s

variable {cond body} {s t : σ} {n m : Nat}

theorem loop_of_not (h : cond s = false) (n : Nat) : loop cond body n s = some s := by
  cases n <;> simp [loop, h]

theorem loop_succ (h : cond s = true) (n : Nat) : loop cond body (n + 1) s = loop cond body n (body s) := by
  simp [loop, h]

/-- More rounds do not change how a loop ends. -/
theorem loop_mono (h : loop cond body n s = some t) (hn : n ≤ m) : loop cond body m s = some t := by
  induction n generalizing s m with
  | zero =>
      cases hc : cond s with
      | true => simp [loop, hc] at h
      | false =>
          rw [loop_of_not hc] at h ⊢
          exact h
  | succ n ih =>
      cases hc : cond s with
      | false =>
          rw [loop_of_not hc] at h ⊢
          exact h
      | true =>
          obtain ⟨m, rfl⟩ : ∃ m', m = m' + 1 := ⟨m - 1, by omega⟩
          rw [loop_succ hc] at h ⊢
          exact ih h (by omega)

/-- What the rounds keep is true when the loop is over. -/
theorem loop_invariant {I : σ → Prop} (hstep : ∀ s, I s → I (body s)) (h : I s) (hloop : loop cond body n s = some t) : I t := by
  induction n generalizing s with
  | zero =>
      simp only [loop] at hloop
      split at hloop
      · cases hloop
      · cases hloop
        exact h
  | succ n ih =>
      simp only [loop] at hloop
      split at hloop
      · exact ih (hstep s h) hloop
      · cases hloop
        exact h

/-- **A loop that ends**: its rounds keep `I` and lower `μ`. -/
theorem loop_ends {I : σ → Prop} (μ : σ → Nat) (hstep : ∀ s, I s → cond s = true → I (body s) ∧ μ (body s) < μ s)
    (h : I s) : ∃ n t, loop cond body n s = some t ∧ I t ∧ cond t = false := by
  induction hμ : μ s using Nat.strongRecOn generalizing s with
  | ind k ih =>
      cases hc : cond s with
      | false => exact ⟨0, s, loop_of_not hc 0, h, hc⟩
      | true =>
          obtain ⟨hbody, hlt⟩ := hstep s h hc
          obtain ⟨n, t, ht, hI, hdone⟩ := ih (μ (body s)) (by omega) hbody rfl
          exact ⟨n + 1, t, (loop_succ hc n).trans ht, hI, hdone⟩

/-- **A loop that never ends.** -/
theorem loop_diverges (hcond : ∀ s, cond s = true) (n : Nat) (s : σ) : loop cond body n s = none := by
  induction n generalizing s with
  | zero => simp [loop, hcond s]
  | succ n ih =>
      rw [loop_succ (hcond s)]
      exact ih (body s)

end Foundation
