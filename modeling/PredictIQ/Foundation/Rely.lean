/-
  PredictIQ.Foundation.Rely: programs that rely on the answers of their server.

  `p.Keeps fair allowed good` says that `p` asks only what is allowed and
  returns only what is good, as long as the answers it gets are fair; an error
  is always fair.  There is one rule for each combinator of programs.

  `rely_run` is the invariant rule: a server that answers fairly from every
  state that meets an invariant, and keeps it under what is allowed, keeps it
  throughout every interleaving, and only what is allowed is ever answered.
-/
import PredictIQ.Foundation.Process

namespace Foundation

namespace Prog

variable {Q : Type} {R : Q → Type} {ε α β : Type}

/-! ## §1. Programs. -/

section Rules

variable (fair : ∀ q, R q → Prop) (allowed : Q → Prop)

def Keeps (good : α → Prop) : Prog R ε α → Prop
  | .done (.ok a) => good a
  | .done (.error _) => True
  | .ask q k => allowed q ∧ (∀ v, fair q v → (k (.ok v)).Keeps good) ∧ ∀ e, (k (.error e)).Keeps good

variable {fair} {allowed} {good : α → Prop}

theorem keeps_pure {a : α} (h : good a) : (pure a : Prog R ε α).Keeps fair allowed good := h

theorem keeps_fail (e : ε) : (fail e : Prog R ε α).Keeps fair allowed good := trivial

theorem keeps_done (good : α → Prop) {r : Except ε α} (h : ∀ a, r = .ok a → good a) :
    (done r : Prog R ε α).Keeps fair allowed good := by
  cases r with
  | ok a => exact h a rfl
  | error e => trivial

theorem keeps_call {q : Q} {good : R q → Prop} (hq : allowed q) (h : ∀ v, fair q v → good v) :
    (call q : Prog R ε (R q)).Keeps fair allowed good :=
  ⟨hq, h, fun _ => trivial⟩

theorem Keeps.mono {good' : α → Prop} {p : Prog R ε α} (hp : p.Keeps fair allowed good)
    (h : ∀ a, good a → good' a) : p.Keeps fair allowed good' := by
  induction p with
  | done r =>
      cases r with
      | ok a => exact h a hp
      | error e => trivial
  | ask q k ih => exact ⟨hp.1, fun v hv => ih _ (hp.2.1 v hv), fun e => ih _ (hp.2.2 e)⟩

theorem keeps_bind {good' : β → Prop} {p : Prog R ε α} {f : α → Prog R ε β}
    (hp : p.Keeps fair allowed good) (hf : ∀ a, good a → (f a).Keeps fair allowed good') :
    (p >>= f).Keeps fair allowed good' := by
  induction p with
  | done r =>
      cases r with
      | ok a => exact hf a hp
      | error e => trivial
  | ask q k ih => exact ⟨hp.1, fun v hv => ih _ (hp.2.1 v hv), fun e => ih _ (hp.2.2 e)⟩

/-- What an attempt may find. -/
def Tried (good : α → Prop) (r : Except ε α) : Prop := ∀ a, r = .ok a → good a

theorem keeps_attempt {p : Prog R ε α} (hp : p.Keeps fair allowed good) :
    p.attempt.Keeps fair allowed (Tried good) := by
  induction p with
  | done r =>
      cases r with
      | ok a =>
          intro a' ha
          obtain rfl := Except.ok.inj ha
          exact hp
      | error e =>
          intro a ha
          cases ha
  | ask q k ih => exact ⟨hp.1, fun v hv => ih _ (hp.2.1 v hv), fun e => ih _ (hp.2.2 e)⟩

/-- A result that is looked at, be it an error. -/
theorem keeps_attempt_bind {good' : β → Prop} {p : Prog R ε α} {f : Except ε α → Prog R ε β}
    (hp : p.Keeps fair allowed good) (hok : ∀ a, good a → (f (.ok a)).Keeps fair allowed good')
    (herror : ∀ e, (f (.error e)).Keeps fair allowed good') :
    (p.attempt >>= f).Keeps fair allowed good' := by
  refine keeps_bind (keeps_attempt hp) fun r hr => ?_
  cases r with
  | ok a => exact hok a (hr a rfl)
  | error e => exact herror e

/-- Where nothing is said of the result, the questions alone count. -/
theorem keeps_of_uses {p : Prog R ε α} (hp : p.Uses allowed) :
    p.Keeps fair allowed fun _ => True := by
  induction p with
  | done r => cases r <;> trivial
  | ask q k ih => exact ⟨hp.1, fun v _ => ih _ (hp.2 (.ok v)), fun e => ih _ (hp.2 (.error e))⟩

end Rules

end Prog

/-! ## §2. Machines. -/

namespace Machine

variable {Q P : Type} [DecidableEq P] {R : Q → Type} {ε σ χ η τ : Type}
variable {S : Server R σ χ} {prog : P → τ → Prog R ε Unit} {outside : η → σ → σ}

/-- Each process asks only what it may, and only that has been answered. -/
structure Relying (fair : ∀ q, R q → Prop) (allowed : P → Q → Prop) (I : σ → Prop)
    (m : Machine P R ε σ) : Prop where
  store : I m.store
  procs : ∀ p l, m.procs p = some l →
    (Prog.ask l.question l.rest).Keeps fair (allowed p) fun _ => True
  log : ∀ x ∈ m.log, allowed x.1 x.2.question

variable {fair : ∀ q, R q → Prop} {allowed : P → Q → Prop} {I : σ → Prop} {m : Machine P R ε σ}

omit [DecidableEq P] in
theorem keeps_of_launch {p : P} {body : Prog R ε Unit} {heard : List (Exchange R ε)} {l : Live R ε}
    (hbody : body.Keeps fair (allowed p) fun _ => True) (hl : Live.of body heard = some l) :
    (Prog.ask l.question l.rest).Keeps fair (allowed p) fun _ => True := by
  cases body with
  | done r => cases hl
  | ask q k =>
      obtain rfl := Option.some.inj hl
      exact hbody

/-- The server answers fairly what is allowed, and keeps the invariant. -/
def Serves (S : Server R σ χ) (fair : ∀ q, R q → Prop) (allowed : P → Q → Prop)
    (I : σ → Prop) : Prop :=
  ∀ c s p q v s', I s → allowed p q → S.exec c s q = some (v, s') → fair q v ∧ I s'

variable (hserves : Serves S fair allowed I)

include hserves

/-- **The step.**  An answer is fair, whether or not it arrives. -/
theorem Relying.step (h : Relying fair allowed I m) {a : Act P τ ε χ η}
    (hprog : ∀ p t, a = .start p t → (prog p t).Keeps fair (allowed p) fun _ => True)
    (houtside : ∀ w s, a = .outside w → I s → I (outside w s)) :
    Relying fair allowed I (step S prog outside m a) := by
  rcases m.step_cases S prog outside a with hstep | ⟨p, task, rfl, -, hstep⟩
    | ⟨p, l, s, r, ha, hl, hr, hstep⟩ | ⟨p, rfl, hstep⟩ | ⟨w, rfl, hstep⟩ <;> rw [hstep]
  · exact h
  · refine ⟨h.store, fun p' l hl => ?_, h.log⟩
    by_cases hpp : p' = p
    · subst hpp
      exact keeps_of_launch (hprog p' task rfl) (by simpa [launch] using hl)
    · exact h.procs p' l (by simpa [launch, hpp] using hl)
  · -- the process is answered, or told of an error
    have hkeeps := h.procs p l hl
    -- a command that took effect was fair and kept the invariant; an error did nothing
    have hserved : I s ∧ (l.rest r).Keeps fair (allowed p) fun _ => True := by
      rcases reply_cases S ha hr with ⟨c, v, -, rfl, hexec⟩ | ⟨e, -, rfl, rfl⟩ | ⟨c, e, v, -, rfl, hexec⟩
      · obtain ⟨hfair, hI⟩ := hserves c _ p _ v s h.store hkeeps.1 hexec
        exact ⟨hI, hkeeps.2.1 v hfair⟩
      · exact ⟨h.store, hkeeps.2.2 e⟩
      · exact ⟨(hserves c _ p _ v s h.store hkeeps.1 hexec).2, hkeeps.2.2 e⟩
    refine ⟨hserved.1, fun p' l' hl' => ?_, fun x hx => ?_⟩
    · by_cases hpp : p' = p
      · subst hpp
        exact keeps_of_launch hserved.2 (by simpa [deliver] using hl')
      · exact h.procs p' l' (by simpa [deliver, hpp] using hl')
    · rcases List.mem_append.mp hx with hx | hx
      · exact h.log x hx
      · obtain rfl := List.mem_singleton.mp hx
        exact hkeeps.1
  · refine ⟨h.store, fun p' l hl => ?_, h.log⟩
    by_cases hpp : p' = p
    · subst hpp
      simp [halt] at hl
    · exact h.procs p' l (by simpa [halt, hpp] using hl)
  · exact ⟨houtside w _ rfl h.store, h.procs, h.log⟩

variable (prog outside) in
/-- **The run**, in which the processes that are started keep to what is allowed. -/
theorem rely_run_of {s : σ} (hs : I s) (houtside : ∀ w s, I s → I (outside w s)) (as : List (Act P τ ε χ η))
    (hprog : ∀ p t, .start p t ∈ as → (prog p t).Keeps fair (allowed p) fun _ => True) :
    Relying fair allowed I (run (Machine.step S prog outside) (idle s) as) := by
  have hidle : Relying fair allowed I (idle s : Machine P R ε σ) := by
    refine ⟨hs, fun p l hl => ?_, fun x hx => ?_⟩
    · cases hl
    · cases hx
  refine run_invariant_of (Machine.step S prog outside) (Relying fair allowed I)
    (fun t => ∀ p task, t.act = .start p task → (prog p task).Keeps fair (allowed p) fun _ => True) hidle
    (fun m a h hstart => h.step hserves hstart fun w s _ => houtside w s) as fun t ht p task hact => ?_
  exact hprog p task (hact ▸ act_mem_of_mem_trace _ ht)

variable (prog outside) in
/-- **The run**, where every process keeps to it. -/
theorem rely_run {s : σ} (hs : I s) (hprog : ∀ p t, (prog p t).Keeps fair (allowed p) fun _ => True)
    (houtside : ∀ w s, I s → I (outside w s)) (as : List (Act P τ ε χ η)) :
    Relying fair allowed I (run (Machine.step S prog outside) (idle s) as) :=
  rely_run_of prog outside hserves hs houtside as fun p t _ => hprog p t

end Machine

end Foundation
