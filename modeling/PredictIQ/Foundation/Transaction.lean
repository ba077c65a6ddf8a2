/-
  PredictIQ.Foundation.Transaction: transaction bodies and their rollback.

  A transaction body reads a context `ρ`, threads a state `σ` and may abort
  with an `ε`.  What an aborted body had written is still in the state it
  hands back; it is `commit` that throws it away, as a host does which runs a
  body and keeps its writes only when the body returns normally.

  The rules have one shape: `x r s = (.ok a, t)` says that body `x`, run in
  context `r` from state `s`, returns `a` and leaves `t`.  Rewriting with the
  `_eq_ok` lemmas turns a body in `do` notation into the conjunction of the
  guards it passed and the equation for the state it left.
-/
import Mathlib.Tactic.Basic
import Mathlib.Logic.Basic

namespace Foundation

/-- A transaction body: context, state, and a result that may be an abort. -/
def Tx (ρ ε σ α : Type) : Type := ρ → σ → Except ε α × σ

namespace Tx

variable {ρ ε σ α β : Type}

/-! ## §1. The monad. -/

protected def pure (a : α) : Tx ρ ε σ α := fun _ s => (.ok a, s)

protected def bind (x : Tx ρ ε σ α) (f : α → Tx ρ ε σ β) : Tx ρ ε σ β := fun r s =>
  match x r s with
  | (.ok a, t) => f a r t
  | (.error e, t) => (.error e, t)

instance : Monad (Tx ρ ε σ) where
  pure := Tx.pure
  bind := Tx.bind

/-- Stop with `e`; the state is handed back as it stands. -/
def abort (e : ε) : Tx ρ ε σ α := fun _ s => (.error e, s)

/-- The context of the running transaction. -/
def context : Tx ρ ε σ ρ := fun r s => (.ok r, s)

/-- Read a part of the state. -/
def reads (f : σ → α) : Tx ρ ε σ α := fun _ s => (.ok (f s), s)

/-- Overwrite the state. -/
def update (f : σ → σ) : Tx ρ ε σ Unit := fun _ s => (.ok (), f s)

/-- Abort with `e` when `c` holds. -/
def rejectIf (c : Prop) [Decidable c] (e : ε) : Tx ρ ε σ Unit :=
  if c then abort e else Tx.pure ()

/-- Unwrap an option, aborting with `e` on `none`. -/
def okOr (o : Option α) (e : ε) : Tx ρ ε σ α :=
  match o with
  | some a => Tx.pure a
  | none => abort e

/-- Run `x` only when `c` holds. -/
def whenever (c : Prop) [Decidable c] (x : Tx ρ ε σ Unit) : Tx ρ ε σ Unit :=
  if c then x else Tx.pure ()

/-- Run `x` and go on with its result, be it an abort. -/
def attempt (x : Tx ρ ε σ α) : Tx ρ ε σ (Except ε α) := fun r s => (.ok (x r s).1, (x r s).2)

/-! ## §2. When a body returns normally. -/

@[simp] theorem bind_eq_ok {x : Tx ρ ε σ α} {f : α → Tx ρ ε σ β} {r : ρ} {s t : σ} {b : β} :
    (x >>= f) r s = (.ok b, t) ↔ ∃ a u, x r s = (.ok a, u) ∧ f a r u = (.ok b, t) := by
  show Tx.bind x f r s = _ ↔ _
  unfold Tx.bind
  rcases x r s with ⟨_ | a, u⟩
  · simp
  · constructor
    · intro h
      exact ⟨a, u, rfl, h⟩
    · intro h
      obtain ⟨a', u', hx, h⟩ := h
      cases hx
      exact h

@[simp] theorem pure_eq_ok {a b : α} {r : ρ} {s t : σ} :
    (pure a : Tx ρ ε σ α) r s = (.ok b, t) ↔ a = b ∧ s = t := by
  show ((Except.ok a : Except ε α), s) = (.ok b, t) ↔ _
  simp

@[simp] theorem abort_eq_ok {e : ε} {b : α} {r : ρ} {s t : σ} :
    (abort e : Tx ρ ε σ α) r s = (.ok b, t) ↔ False := by
  simp [abort]

@[simp] theorem context_eq_ok {b r : ρ} {s t : σ} :
    (context : Tx ρ ε σ ρ) r s = (.ok b, t) ↔ r = b ∧ s = t := by
  simp [context]

@[simp] theorem reads_eq_ok {f : σ → α} {b : α} {r : ρ} {s t : σ} :
    (reads f : Tx ρ ε σ α) r s = (.ok b, t) ↔ f s = b ∧ s = t := by
  simp [reads]

@[simp] theorem update_eq_ok {f : σ → σ} {b : Unit} {r : ρ} {s t : σ} :
    (update f : Tx ρ ε σ Unit) r s = (.ok b, t) ↔ t = f s := by
  simp [update, eq_comm]

@[simp] theorem rejectIf_eq_ok {c : Prop} [Decidable c] {e : ε} {b : Unit} {r : ρ} {s t : σ} :
    (rejectIf c e : Tx ρ ε σ Unit) r s = (.ok b, t) ↔ ¬c ∧ s = t := by
  unfold rejectIf
  split <;> simp_all [abort, Tx.pure]

@[simp] theorem okOr_eq_ok {o : Option α} {e : ε} {b : α} {r : ρ} {s t : σ} :
    (okOr o e : Tx ρ ε σ α) r s = (.ok b, t) ↔ o = some b ∧ s = t := by
  cases o <;> simp [okOr, abort, Tx.pure]

theorem whenever_eq_ok {c : Prop} [Decidable c] {x : Tx ρ ε σ Unit} {b : Unit} {r : ρ}
    {s t : σ} :
    whenever c x r s = (.ok b, t) ↔ (c ∧ x r s = (.ok b, t)) ∨ (¬c ∧ s = t) := by
  unfold whenever
  split <;> simp_all [Tx.pure]

/-! ## §3. Running a body forward. -/

theorem bind_of_ok {x : Tx ρ ε σ α} {f : α → Tx ρ ε σ β} {r : ρ} {s t : σ} {a : α}
    (h : x r s = (.ok a, t)) : (x >>= f) r s = f a r t := by
  show Tx.bind x f r s = _
  unfold Tx.bind
  rw [h]

theorem bind_of_error {x : Tx ρ ε σ α} {f : α → Tx ρ ε σ β} {r : ρ} {s t : σ} {e : ε}
    (h : x r s = (.error e, t)) : (x >>= f) r s = (.error e, t) := by
  show Tx.bind x f r s = _
  unfold Tx.bind
  rw [h]

/-- Two bodies that go on alike from every normal return of `x` run alike. -/
theorem bind_congr_ok {x : Tx ρ ε σ α} {f g : α → Tx ρ ε σ β} {r : ρ} {s : σ}
    (h : ∀ a t, x r s = (.ok a, t) → f a r t = g a r t) : (x >>= f) r s = (x >>= g) r s := by
  rcases hxs : x r s with ⟨e | a, t⟩
  · rw [bind_of_error hxs, bind_of_error hxs]
  · rw [bind_of_ok hxs, bind_of_ok hxs]
    exact h a t hxs

/-- After a check that writes nothing, a body stops there or goes on from the
same state. -/
theorem bind_after_check {x : Tx ρ ε σ α} {f : α → Tx ρ ε σ β} {r : ρ} {s : σ}
    (hx : (x r s).2 = s) : ((x >>= f) r s).2 = s ∨ ∃ a, (x >>= f) r s = f a r s := by
  rcases hxs : x r s with ⟨e | a, t⟩ <;> rw [hxs] at hx <;> subst hx
  · rw [bind_of_error hxs]
    exact Or.inl rfl
  · rw [bind_of_ok hxs]
    exact Or.inr ⟨a, rfl⟩

theorem reads_bind {g : σ → α} {f : α → Tx ρ ε σ β} {r : ρ} {s : σ} :
    (reads g >>= f) r s = f (g s) r s := rfl

theorem update_bind {g : σ → σ} {f : Unit → Tx ρ ε σ β} {r : ρ} {s : σ} :
    (update g >>= f) r s = f () r (g s) := rfl

theorem rejectIf_of_neg {c : Prop} [Decidable c] {e : ε} (h : ¬c) :
    (rejectIf c e : Tx ρ ε σ Unit) = Tx.pure () := if_neg h

theorem whenever_of_pos {c : Prop} [Decidable c] {x : Tx ρ ε σ Unit} (h : c) :
    whenever c x = x := if_pos h

theorem whenever_of_neg {c : Prop} [Decidable c] {x : Tx ρ ε σ Unit} (h : ¬c) :
    whenever c x = Tx.pure () := if_neg h

/-! ## §4. What a body never stops with. -/

/-- No run of `x` stops with `e`. -/
def Avoids (e : ε) (x : Tx ρ ε σ α) : Prop := ∀ r s t, x r s ≠ (.error e, t)

section Avoids

variable {e e' : ε}

theorem Avoids.bind {x : Tx ρ ε σ α} {f : α → Tx ρ ε σ β} (hx : Avoids e x)
    (hf : ∀ a, Avoids e (f a)) : Avoids e (x >>= f) := by
  intro r s t h
  rcases hxs : x r s with ⟨e' | a, u⟩
  · rw [bind_of_error hxs] at h
    cases h
    exact hx r s t hxs
  · rw [bind_of_ok hxs] at h
    exact hf a r u t h

theorem Avoids.pure (a : α) : Avoids e (Pure.pure a : Tx ρ ε σ α) := by
  intro r s t h
  cases h

theorem Avoids.context : Avoids e (Tx.context : Tx ρ ε σ ρ) := by
  intro r s t h
  cases h

theorem Avoids.reads (f : σ → α) : Avoids e (Tx.reads f : Tx ρ ε σ α) := by
  intro r s t h
  cases h

theorem Avoids.update (f : σ → σ) : Avoids e (Tx.update f : Tx ρ ε σ Unit) := by
  intro r s t h
  cases h

theorem Avoids.abort (h : e' ≠ e) : Avoids e (Tx.abort e' : Tx ρ ε σ α) := by
  intro r s t h'
  cases h'
  exact h rfl

theorem Avoids.rejectIf {c : Prop} [Decidable c] (h : e' ≠ e) :
    Avoids e (Tx.rejectIf c e' : Tx ρ ε σ Unit) := by
  unfold Tx.rejectIf
  split
  · exact .abort h
  · exact .pure ()

theorem Avoids.okOr {o : Option α} (h : e' ≠ e) : Avoids e (Tx.okOr o e' : Tx ρ ε σ α) := by
  cases o with
  | none => exact .abort h
  | some a => exact .pure a

theorem Avoids.whenever {c : Prop} [Decidable c] {x : Tx ρ ε σ Unit} (h : Avoids e x) :
    Avoids e (Tx.whenever c x) := by
  unfold Tx.whenever
  split
  · exact h
  · exact .pure ()

end Avoids

/-! ## §5. Commit and rollback. -/

/-- Run a body and keep its writes only if it returns normally. -/
def commit (x : Tx ρ ε σ α) (r : ρ) (s : σ) : Except ε α × σ :=
  match x r s with
  | (.ok a, t) => (.ok a, t)
  | (.error e, _) => (.error e, s)

@[simp] theorem commit_eq_ok {x : Tx ρ ε σ α} {r : ρ} {s t : σ} {a : α} :
    commit x r s = (.ok a, t) ↔ x r s = (.ok a, t) := by
  unfold commit
  rcases x r s with ⟨_ | b, u⟩ <;> simp

/-- **Rollback**: a transaction that aborts leaves the state as it found it. -/
theorem commit_state_of_error {x : Tx ρ ε σ α} {r : ρ} {s : σ} {e : ε}
    (h : (commit x r s).1 = .error e) : (commit x r s).2 = s := by
  unfold commit at h ⊢
  rcases hx : x r s with ⟨_ | b, u⟩ <;> simp_all

/-- The state after a transaction is either the one before it, or the one its
body left when it returned normally. -/
theorem commit_state_cases (x : Tx ρ ε σ α) (r : ρ) (s : σ) :
    (commit x r s).2 = s ∨ ∃ a, x r s = (.ok a, (commit x r s).2) := by
  cases h : (commit x r s).1 with
  -- rolled back, or committed as the body left it
  | error e => exact Or.inl (commit_state_of_error h)
  | ok a => exact Or.inr ⟨a, commit_eq_ok.mp (Prod.ext h rfl)⟩

end Tx

end Foundation
