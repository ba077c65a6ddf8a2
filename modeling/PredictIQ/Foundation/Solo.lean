/-
  PredictIQ.Foundation.Solo: a program alone with its server.

  `Returns S p s a t` says that `p`, run from server state `s` with nobody
  else at the server, can return `a` and leave `t`.  Each question may be
  answered or fail; the rules take a program apart into its questions.
-/
import PredictIQ.Foundation.Process

namespace Foundation

namespace Prog

variable {Q : Type} {R : Q → Type} {ε σ χ α β : Type}

/-- From `s` the program can return `a` and leave `t`. -/
def Returns (S : Server R σ χ) : Prog R ε α → σ → α → σ → Prop
  | .done (.ok b), s, a, t => b = a ∧ s = t
  | .done (.error _), _, _, _ => False
  | .ask q k, s, a, t => ∃ r u, Machine.Answers S s u q r ∧ (k r).Returns S u a t

variable {S : Server R σ χ} {s t : σ}

theorem returns_pure {a b : α} :
    (pure a : Prog R ε α).Returns S s b t ↔ a = b ∧ s = t := Iff.rfl

/-- A question returns what the server answers. -/
theorem returns_call {q : Q} {a : R q} :
    (call q : Prog R ε (R q)).Returns S s a t ↔ ∃ c, S.exec c s q = some (a, t) := by
  constructor
  · intro h
    obtain ⟨r, u, ⟨c, v, rfl, hexec⟩ | ⟨e, rfl, _⟩, hdone⟩ := h
    · obtain ⟨rfl, rfl⟩ := hdone
      exact ⟨c, hexec⟩
    · cases hdone
  · intro h
    obtain ⟨c, hexec⟩ := h
    exact ⟨.ok a, t, .inl ⟨c, a, rfl, hexec⟩, rfl, rfl⟩

theorem returns_bind {p : Prog R ε α} {f : α → Prog R ε β} {b : β} :
    (p >>= f).Returns S s b t ↔ ∃ a u, p.Returns S s a u ∧ (f a).Returns S u b t := by
  induction p generalizing s with
  | done r =>
      cases r with
      | error e =>
          constructor
          · intro h
            cases h
          · intro h
            obtain ⟨_, _, h, _⟩ := h
            cases h
      | ok a =>
          constructor
          · intro h
            exact ⟨a, s, ⟨rfl, rfl⟩, h⟩
          · intro h
            obtain ⟨_, _, ⟨rfl, rfl⟩, h⟩ := h
            exact h
  | ask q k ih =>
      constructor
      · intro h
        obtain ⟨r, v, hr, h⟩ := h
        obtain ⟨a, u, hk, h⟩ := (ih r).mp h
        exact ⟨a, u, ⟨r, v, hr, hk⟩, h⟩
      · intro h
        obtain ⟨a, u, ⟨r, v, hr, hk⟩, h⟩ := h
        exact ⟨r, v, hr, (ih r).mpr ⟨a, u, hk, h⟩⟩

/-- After a program with one outcome, go on from it. -/
theorem returns_bind_of_unique {p : Prog R ε α} {f : α → Prog R ε β} {a : α} {u : σ} {b : β}
    (h : ∀ v w, p.Returns S s v w ↔ v = a ∧ w = u) :
    (p >>= f).Returns S s b t ↔ (f a).Returns S u b t := by
  rw [returns_bind]
  constructor
  · intro hbind
    obtain ⟨v, w, hp, hf⟩ := hbind
    obtain ⟨rfl, rfl⟩ := (h v w).mp hp
    exact hf
  · intro hf
    exact ⟨a, u, (h a u).mpr ⟨rfl, rfl⟩, hf⟩

/-- From `s` the program can end with a result, be it an error, and leave `t`. -/
def Ends (S : Server R σ χ) : Prog R ε α → σ → Except ε α → σ → Prop
  | .done r', s, r, t => r' = r ∧ s = t
  | .ask q k, s, r, t => ∃ x u, Machine.Answers S s u q x ∧ (k x).Ends S u r t

theorem returns_iff_ends {p : Prog R ε α} {a : α} : p.Returns S s a t ↔ p.Ends S s (.ok a) t := by
  induction p generalizing s with
  | done r =>
      cases r with
      | ok b =>
          show b = a ∧ s = t ↔ (Except.ok b : Except ε α) = .ok a ∧ s = t
          rw [Except.ok.injEq]
      | error e =>
          show False ↔ (Except.error e : Except ε α) = .ok a ∧ s = t
          simp only [reduceCtorEq, false_and]
  | ask q k ih =>
      refine exists_congr fun x => exists_congr fun u => and_congr_right fun _ => ?_
      exact ih x

/-- An attempt returns what the program ends with. -/
theorem returns_attempt {p : Prog R ε α} {r : Except ε α} : p.attempt.Returns S s r t ↔ p.Ends S s r t := by
  induction p generalizing s with
  | done r' => exact Iff.rfl
  | ask q k ih =>
      refine exists_congr fun x => exists_congr fun u => and_congr_right fun _ => ?_
      exact ih x

/-- What every answer keeps, a program keeps. -/
theorem Ends.keeps {T : Q → Prop} (rel : σ → σ → Prop) (hrefl : ∀ s, rel s s) (htrans : ∀ s t u, rel s t → rel t u → rel s u)
    (hstep : ∀ q s s' (r : Except ε (R q)), T q → Machine.Answers S s s' q r → rel s s') {p : Prog R ε α}
    (hp : p.Uses T) {r : Except ε α} (h : p.Ends S s r t) : rel s t := by
  induction p generalizing s with
  | done r' =>
      obtain ⟨-, rfl⟩ := h
      exact hrefl s
  | ask q k ih =>
      obtain ⟨x, u, hx, h⟩ := h
      exact htrans s u t (hstep q s u x hp.1 hx) (ih x (hp.2 x) h)

/-- The program alone, each question answered with the same choice. -/
def eval (S : Server R σ χ) (c : χ) : Prog R ε α → σ → Option (Except ε α × σ)
  | .done r, s => some (r, s)
  | .ask q k, s => (S.exec c s q).bind fun v => (k (.ok v.1)).eval S c v.2

theorem ends_of_eval {p : Prog R ε α} {c : χ} {r : Except ε α} (h : p.eval S c s = some (r, t)) :
    p.Ends S s r t := by
  induction p generalizing s with
  | done r' =>
      cases h
      exact ⟨rfl, rfl⟩
  | ask q k ih =>
      obtain ⟨v, hexec, h⟩ := Option.bind_eq_some_iff.mp h
      exact ⟨.ok v.1, v.2, .inl ⟨c, v.1, rfl, hexec⟩, ih _ h⟩

/-- An error's text does not matter to what is returned. -/
theorem returns_mapError {p : Prog R ε α} {g : ε → ε} {a : α} :
    (p.mapError g).Returns S s a t ↔ p.Returns S s a t := by
  induction p generalizing s with
  | done r => cases r <;> exact Iff.rfl
  | ask q k ih =>
      constructor
      · intro h
        obtain ⟨r, u, hr, h⟩ := h
        exact ⟨r, u, hr, (ih r).mp h⟩
      · intro h
        obtain ⟨r, u, hr, h⟩ := h
        exact ⟨r, u, hr, (ih r).mpr h⟩

end Prog

end Foundation
