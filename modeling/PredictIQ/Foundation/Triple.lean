/-
  PredictIQ.Foundation.Triple: pre- and postconditions of monitored programs.

  `M.Triple P p Q E` says that from every phase that meets `P` the program `p`
  asks only what the monitor `M` allows, and ends with a value and a phase that
  meet `Q`, or with an error and a phase that meets `E`.  There is one rule for
  each combinator of programs, and the rule of consequence.
-/
import PredictIQ.Foundation.Process

namespace Foundation

namespace Monitor

variable {Q : Type} {R : Q → Type} {ε Φ α β : Type} (M : Monitor R ε Φ)

/-- What must hold of a phase and a result: `B` of a value, `E` after an error. -/
def outcome (B : Φ → α → Prop) (E : Φ → Prop) : Φ → Except ε α → Prop
  | φ, .ok a => B φ a
  | φ, .error _ => E φ

def Triple (A : Φ → Prop) (p : Prog R ε α) (B : Φ → α → Prop) (E : Φ → Prop) : Prop :=
  ∀ φ, A φ → M.Obeys (outcome B E) φ p

variable {M} {A E : Φ → Prop} {B : Φ → α → Prop} {K : Φ → β → Prop}

theorem Triple.conseq {p : Prog R ε α} {A' E' : Φ → Prop} {B' : Φ → α → Prop}
    (h : M.Triple A p B E) (hpre : ∀ φ, A' φ → A φ) (hgood : ∀ φ a, B φ a → B' φ a)
    (hbad : ∀ φ, E φ → E' φ) : M.Triple A' p B' E' := by
  intro φ hφ
  refine (h φ (hpre φ hφ)).mono fun ψ r hr => ?_
  cases r with
  | ok a => exact hgood ψ a hr
  | error e => exact hbad ψ hr

theorem Triple.strengthen {p : Prog R ε α} {A' : Φ → Prop} (h : M.Triple A p B E)
    (hpre : ∀ φ, A' φ → A φ) : M.Triple A' p B E :=
  fun φ hφ => h φ (hpre φ hφ)

theorem triple_pure {a : α} (h : ∀ φ, A φ → B φ a) : M.Triple A (pure a) B E := h

theorem triple_fail {e : ε} (h : ∀ φ, A φ → E φ) : M.Triple A (Prog.fail e) B E := h

theorem triple_done {r : Except ε α} (hgood : ∀ φ a, A φ → r = .ok a → B φ a) (hbad : ∀ φ, A φ → E φ) :
    M.Triple A (.done r) B E := by
  intro φ hφ
  cases r with
  | ok a => exact hgood φ a hφ rfl
  | error e => exact hbad φ hφ

/-- One question. -/
theorem triple_call {q : Q} {B : Φ → R q → Prop} (hallows : ∀ φ, A φ → M.allows φ q)
    (hgood : ∀ φ a, A φ → B (M.next φ q (.ok a)) a) (hbad : ∀ φ e, A φ → E (M.next φ q (.error e))) :
    M.Triple A (.call q) B E := by
  refine fun φ hφ => ⟨hallows φ hφ, fun r => ?_⟩
  cases r with
  | ok a => exact hgood φ a hφ
  | error e => exact hbad φ e hφ

/-- One program after another. -/
theorem triple_bind {p : Prog R ε α} {f : α → Prog R ε β} (hp : M.Triple A p B E)
    (hf : ∀ a, M.Triple (B · a) (f a) K E) : M.Triple A (p >>= f) K E := by
  intro φ hφ
  refine obeys_bind.mpr ((hp φ hφ).mono fun ψ r hr => ?_)
  cases r with
  | ok a => exact hf a ψ hr
  | error e => exact hr

/-- A result that is looked at, be it an error. -/
theorem triple_attempt_bind {p : Prog R ε α} {f : Except ε α → Prog R ε β} {D : Φ → Prop}
    (hp : M.Triple A p B D) (hok : ∀ a, M.Triple (B · a) (f (.ok a)) K E)
    (herror : ∀ e, M.Triple D (f (.error e)) K E) : M.Triple A (p.attempt >>= f) K E := by
  intro φ hφ
  refine obeys_bind.mpr (obeys_attempt.mpr ((hp φ hφ).mono fun ψ r hr => ?_))
  cases r with
  | ok a => exact hok a ψ hr
  | error e => exact herror e ψ hr

/-- An error that is replaced is an error. -/
theorem triple_mapError {p : Prog R ε α} {g : ε → ε} (h : M.Triple A p B E) : M.Triple A (p.mapError g) B E := by
  intro φ hφ
  refine obeys_mapError.mpr ((h φ hφ).mono fun ψ r hr => ?_)
  cases r <;> exact hr

/-- What does not depend on the phase. -/
theorem triple_ex {ι : Type} {p : Prog R ε α} {P : ι → Φ → Prop} (h : ∀ i, M.Triple (P i) p B E) :
    M.Triple (fun φ => ∃ i, P i φ) p B E := by
  rintro φ ⟨i, hφ⟩
  exact h i φ hφ

theorem triple_of_fact {p : Prog R ε α} {fact : Prop} (hfact : ∀ φ, A φ → fact)
    (h : fact → M.Triple A p B E) : M.Triple A p B E :=
  fun φ hφ => h (hfact φ hφ) φ hφ

/-- Questions that every phase allows and that leave it alone. -/
def Quiet (M : Monitor R ε Φ) (q : Q) : Prop := ∀ φ, M.allows φ q ∧ ∀ r, M.next φ q r = φ

/-- A program of such questions. -/
theorem triple_of_quiet {p : Prog R ε α} (hp : p.Uses M.Quiet) :
    M.Triple A p (fun φ _ => A φ) A := by
  intro φ hφ
  refine obeys_of_uses hp (fun q hq => hq φ) fun r => ?_
  cases r with
  | ok a => exact hφ
  | error e => exact hφ

/-- A program whose questions all keep a property of the phase. -/
theorem triple_of_keeps {p : Prog R ε α} {S : Q → Prop} (hp : p.Uses S)
    (hS : ∀ q φ, S q → A φ → M.allows φ q ∧ ∀ r, A (M.next φ q r)) :
    M.Triple A p (fun φ _ => A φ) A := by
  intro φ hφ
  induction p generalizing φ with
  | done r =>
      cases r with
      | ok a => exact hφ
      | error e => exact hφ
  | ask q k ih => exact ⟨(hS q φ hp.1 hφ).1, fun r => ih r (hp.2 r) _ ((hS q φ hp.1 hφ).2 r)⟩

/-- A program that meets a triple obeys its monitor. -/
theorem Triple.obeys {p : Prog R ε α} (h : M.Triple A p B E) {φ : Φ} (hφ : A φ) :
    M.Obeys (fun _ _ => True) φ p :=
  (h φ hφ).mono fun _ _ _ => trivial

/-! ## Excused phases. -/

section Excused

variable (x : Φ)

/-- Who is excused may ask anything, and stays excused. -/
def Absorbing (M : Monitor R ε Φ) (x : Φ) : Prop := ∀ q, M.allows x q ∧ ∀ r, M.next x q r = x

/-- From `A` the program comes to `B`, or is excused; an error excuses it. -/
def Leads (M : Monitor R ε Φ) (x : Φ) (A : Φ → Prop) (p : Prog R ε α) (B : Φ → α → Prop) : Prop :=
  M.Triple A p (fun φ a => φ = x ∨ B φ a) (· = x)

variable {x}

/-- Who is excused comes to anything. -/
theorem triple_absorbing (hx : M.Absorbing x) {p : Prog R ε α} (hB : ∀ a, B x a) (hE : E x) :
    M.Triple (· = x) p B E := by
  rintro φ rfl
  refine obeys_of_uses (S := fun _ => True) ?_ (fun q _ => hx q) fun r => ?_
  · induction p with
    | done r => trivial
    | ask q k ih => exact ⟨trivial, ih⟩
  · cases r with
    | ok a => exact hB a
    | error e => exact hE

theorem triple_or {p : Prog R ε α} {A' : Φ → Prop} (h : M.Triple A p B E) (h' : M.Triple A' p B E) :
    M.Triple (fun φ => A φ ∨ A' φ) p B E :=
  fun φ hφ => hφ.elim (h φ) (h' φ)

theorem leads_pure {a : α} (h : ∀ φ, A φ → B φ a) : M.Leads x A (pure a) B := fun φ hφ => .inr (h φ hφ)

/-- One question. -/
theorem leads_call {q : Q} {B : Φ → R q → Prop} (hallows : ∀ φ, A φ → M.allows φ q)
    (hgood : ∀ φ a, A φ → M.next φ q (.ok a) = x ∨ B (M.next φ q (.ok a)) a)
    (hbad : ∀ φ e, A φ → M.next φ q (.error e) = x) : M.Leads x A (.call q) B :=
  triple_call hallows hgood hbad

/-- One program after another. -/
theorem leads_bind (hx : M.Absorbing x) {p : Prog R ε α} {f : α → Prog R ε β} (hp : M.Leads x A p B)
    (hf : ∀ a, M.Leads x (B · a) (f a) K) : M.Leads x A (p >>= f) K :=
  triple_bind hp fun a => triple_or (triple_absorbing hx (fun _ => .inl rfl) rfl) (hf a)

/-- A result that is looked at, be it an error. -/
theorem leads_attempt_bind (hx : M.Absorbing x) {p : Prog R ε α} {f : Except ε α → Prog R ε β} (hp : M.Leads x A p B)
    (hf : ∀ a, M.Leads x (B · a) (f (.ok a)) K) : M.Leads x A (p.attempt >>= f) K :=
  triple_attempt_bind hp (fun a => triple_or (triple_absorbing hx (fun _ => .inl rfl) rfl) (hf a)) fun _ =>
    triple_absorbing hx (fun _ => .inl rfl) rfl

end Excused

end Monitor

end Foundation
