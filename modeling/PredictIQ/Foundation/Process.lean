/-
  PredictIQ.Foundation.Process: programs that call a shared server, and
  machines that interleave them.

  A `Prog` asks questions and goes on with the answers, any of which may be
  an error.  A `Machine` holds one server state and the programs in flight;
  its steps answer one question of one program, fail it before it takes
  effect, let it take effect and lose the answer, start a program, crash one
  at any point, or change the server from outside.

  A `Monitor` watches one program: it keeps a phase, updated by each answer,
  and says which questions that phase allows.  `Obeys` is the judgement that
  a program asks only what its monitor allows, with one rule per combinator;
  `monitored_invariant` turns it into an invariant rule for every interleaving.
-/
import PredictIQ.Foundation.Run
import Mathlib.Logic.Function.Basic

namespace Foundation

/-! ## §1. Programs. -/

/-- A program that asks questions `q`, answered by an `R q` or an error. -/
inductive Prog {Q : Type} (R : Q → Type) (ε α : Type) : Type where
  | done (r : Except ε α)
  | ask (q : Q) (k : Except ε (R q) → Prog R ε α)

namespace Prog

variable {Q : Type} {R : Q → Type} {ε α β : Type}

/-- Go on with the result of `p`, or stop with its error. -/
protected def bind (p : Prog R ε α) (f : α → Prog R ε β) : Prog R ε β :=
  match p with
  | .done (.ok a) => f a
  | .done (.error e) => .done (.error e)
  | .ask q k => .ask q fun r => (k r).bind f

instance : Monad (Prog R ε) where
  pure a := .done (.ok a)
  bind := Prog.bind

/-- Ask one question. -/
def call (q : Q) : Prog R ε (R q) := .ask q .done

/-- Stop with an error. -/
def fail (e : ε) : Prog R ε α := .done (.error e)

/-- Run `p` and go on with its result, be it an error. -/
def attempt (p : Prog R ε α) : Prog R ε (Except ε α) :=
  match p with
  | .done r => .done (.ok r)
  | .ask q k => .ask q fun r => (k r).attempt

/-- Replace the error of `p`. -/
def mapError (g : ε → ε) (p : Prog R ε α) : Prog R ε α :=
  match p with
  | .done r => .done (r.mapError g)
  | .ask q k => .ask q fun r => (k r).mapError g

/-- Every question of the program is in `S`. -/
def Uses (S : Q → Prop) : Prog R ε α → Prop
  | .done _ => True
  | .ask q k => S q ∧ ∀ r, (k r).Uses S

section Uses

variable {S : Q → Prop}

@[simp] theorem uses_pure (a : α) : (pure a : Prog R ε α).Uses S := trivial

@[simp] theorem uses_done (r : Except ε α) : (done r : Prog R ε α).Uses S := trivial

@[simp] theorem uses_fail (e : ε) : (fail e : Prog R ε α).Uses S := trivial

@[simp] theorem uses_call {q : Q} : (call q : Prog R ε (R q)).Uses S ↔ S q :=
  and_iff_left fun _ => trivial

theorem Uses.bind {p : Prog R ε α} {f : α → Prog R ε β} (hp : p.Uses S)
    (hf : ∀ a, (f a).Uses S) : (p >>= f).Uses S := by
  induction p with
  | done r =>
      cases r with
      | error e => trivial
      | ok a => exact hf a
  | ask q k ih => exact ⟨hp.1, fun r => ih r (hp.2 r)⟩

theorem Uses.attempt {p : Prog R ε α} (hp : p.Uses S) : p.attempt.Uses S := by
  induction p with
  | done r => trivial
  | ask q k ih => exact ⟨hp.1, fun r => ih r (hp.2 r)⟩

theorem Uses.mapError {p : Prog R ε α} (hp : p.Uses S) (g : ε → ε) : (p.mapError g).Uses S := by
  induction p with
  | done r => trivial
  | ask q k ih => exact ⟨hp.1, fun r => ih r (hp.2 r)⟩

end Uses

end Prog

/-! ## §2. Monitors. -/

/-- A phase kept beside a program: how answers move it, what it allows. -/
structure Monitor {Q : Type} (R : Q → Type) (ε Φ : Type) where
  start : Φ
  next : Φ → (q : Q) → Except ε (R q) → Φ
  allows : Φ → Q → Prop

namespace Monitor

variable {Q : Type} {R : Q → Type} {ε Φ α β : Type} (M : Monitor R ε Φ)

/-- From phase `φ` the program asks only what is allowed, whatever it is
answered, and ends in a phase and with a result that meet `post`. -/
def Obeys (post : Φ → Except ε α → Prop) : Φ → Prog R ε α → Prop
  | φ, .done r => post φ r
  | φ, .ask q k => M.allows φ q ∧ ∀ r, Obeys post (M.next φ q r) (k r)

/-- What the first of two programs must establish for the second. -/
def andThen (post : Φ → Except ε β → Prop) (f : α → Prog R ε β) : Φ → Except ε α → Prop
  | φ, .ok a => M.Obeys post φ (f a)
  | φ, .error e => post φ (.error e)

variable {M} {post : Φ → Except ε β → Prop} {φ : Φ}

@[simp] theorem obeys_pure {b : β} : M.Obeys post φ (pure b) ↔ post φ (.ok b) := Iff.rfl

@[simp] theorem obeys_call {q : Q} {post : Φ → Except ε (R q) → Prop} :
    M.Obeys post φ (.call q) ↔ M.allows φ q ∧ ∀ r, post (M.next φ q r) r := Iff.rfl

@[simp] theorem andThen_ok {f : α → Prog R ε β} {a : α} :
    M.andThen post f φ (.ok a) ↔ M.Obeys post φ (f a) := Iff.rfl

@[simp] theorem obeys_bind {p : Prog R ε α} {f : α → Prog R ε β} :
    M.Obeys post φ (p >>= f) ↔ M.Obeys (M.andThen post f) φ p := by
  induction p generalizing φ with
  | done r => cases r <;> exact Iff.rfl
  | ask q k ih => exact and_congr_right fun _ => forall_congr' fun r => ih r

@[simp] theorem obeys_attempt {p : Prog R ε α} {post : Φ → Except ε (Except ε α) → Prop} :
    M.Obeys post φ p.attempt ↔ M.Obeys (fun φ r => post φ (.ok r)) φ p := by
  induction p generalizing φ with
  | done r => exact Iff.rfl
  | ask q k ih => exact and_congr_right fun _ => forall_congr' fun r => ih r

@[simp] theorem obeys_mapError {p : Prog R ε β} {g : ε → ε} :
    M.Obeys post φ (p.mapError g) ↔ M.Obeys (fun φ r => post φ (r.mapError g)) φ p := by
  induction p generalizing φ with
  | done r => exact Iff.rfl
  | ask q k ih => exact and_congr_right fun _ => forall_congr' fun r => ih r

/-- One question, and what follows either answer. -/
theorem obeys_call_bind {q : Q} {f : R q → Prog R ε β} :
    M.Obeys post φ (.call q >>= f) ↔ M.allows φ q ∧ (∀ a, M.Obeys post (M.next φ q (.ok a)) (f a))
      ∧ ∀ e, post (M.next φ q (.error e)) (.error e) := by
  rw [obeys_bind, obeys_call]
  refine and_congr_right fun _ => ⟨fun h => ⟨fun a => h (.ok a), fun e => h (.error e)⟩, ?_⟩
  rintro ⟨hok, herr⟩ (e | a)
  · exact herr e
  · exact hok a

/-- The same, where the error is replaced. -/
theorem obeys_mapError_call_bind {q : Q} {g : ε → ε} {f : R q → Prog R ε β} :
    M.Obeys post φ ((Prog.call q).mapError g >>= f) ↔ M.allows φ q
      ∧ (∀ a, M.Obeys post (M.next φ q (.ok a)) (f a))
      ∧ ∀ e, post (M.next φ q (.error e)) (.error (g e)) := by
  rw [obeys_bind, obeys_mapError, obeys_call]
  refine and_congr_right fun _ => ⟨fun h => ⟨fun a => h (.ok a), fun e => h (.error e)⟩, ?_⟩
  rintro ⟨hok, herr⟩ (e | a)
  · exact herr e
  · exact hok a

theorem Obeys.mono {post' : Φ → Except ε β → Prop} {p : Prog R ε β} (h : M.Obeys post φ p)
    (hpost : ∀ φ r, post φ r → post' φ r) : M.Obeys post' φ p := by
  induction p generalizing φ with
  | done r => exact hpost φ r h
  | ask q k ih => exact ⟨h.1, fun r => ih r (h.2 r)⟩

/-- A program whose questions neither need nor change the phase. -/
theorem obeys_of_uses {S : Q → Prop} {p : Prog R ε β} (hp : p.Uses S)
    (hS : ∀ q, S q → M.allows φ q ∧ ∀ r, M.next φ q r = φ) (hpost : ∀ r, post φ r) :
    M.Obeys post φ p := by
  induction p with
  | done r => exact hpost r
  | ask q k ih =>
      refine ⟨(hS q hp.1).1, fun r => ?_⟩
      rw [(hS q hp.1).2 r]
      exact ih r (hp.2 r)

/-- The same, before another program. -/
theorem obeys_bind_of_uses {S : Q → Prop} {p : Prog R ε α} {f : α → Prog R ε β} (hp : p.Uses S)
    (hS : ∀ q, S q → M.allows φ q ∧ ∀ r, M.next φ q r = φ) (hok : ∀ a, M.Obeys post φ (f a))
    (herr : ∀ e, post φ (.error e)) : M.Obeys post φ (p >>= f) := by
  refine obeys_bind.mpr (obeys_of_uses hp hS ?_)
  rintro (e | a)
  · exact herr e
  · exact hok a

/-- A program whose questions are allowed in every phase. -/
theorem obeys_of_uses_allowed {S : Q → Prop} {p : Prog R ε β} (hp : p.Uses S)
    (hS : ∀ φ q, S q → M.allows φ q) : M.Obeys (fun _ _ => True) φ p := by
  induction p generalizing φ with
  | done r => trivial
  | ask q k ih => exact ⟨hS φ q hp.1, fun r => ih r (hp.2 r)⟩

end Monitor

/-! ## §3. Machines. -/

/-- How a server carries out a question, `none` when it turns it down.  The
choice `χ` fixes what the question leaves open.  Questions that are not
`fallible` are always answered. -/
structure Server {Q : Type} (R : Q → Type) (σ χ : Type) where
  exec : χ → σ → (q : Q) → Option (R q × σ)
  fallible : Q → Bool

/-- A question with its answer. -/
structure Exchange {Q : Type} (R : Q → Type) (ε : Type) where
  question : Q
  answer : Except ε (R question)

/-- A program in flight: the question it waits on, what it does with the
answer, and what it has been answered. -/
structure Live {Q : Type} (R : Q → Type) (ε : Type) where
  question : Q
  rest : Except ε (R question) → Prog R ε Unit
  heard : List (Exchange R ε)

/-- A program that is over is not in flight. -/
def Live.of {Q : Type} {R : Q → Type} {ε : Type} (p : Prog R ε Unit) (heard : List (Exchange R ε)) :
    Option (Live R ε) :=
  match p with
  | .done _ => none
  | .ask q k => some ⟨q, k, heard⟩

/-- A server state, the programs in flight, and every answer given so far. -/
structure Machine {Q : Type} (P : Type) (R : Q → Type) (ε σ : Type) where
  store : σ
  procs : P → Option (Live R ε)
  log : List (P × Exchange R ε)

/-- The steps of a machine: a process is started on a task; its question is
answered, or fails before or after it takes effect; it crashes; the server is
changed from outside. -/
inductive Act (P τ ε χ η : Type) where
  | start (p : P) (task : τ)
  | answer (p : P) (c : χ)
  | refuse (p : P) (e : ε)
  | lose (p : P) (c : χ) (e : ε)
  | crash (p : P)
  | outside (w : η)

/-- The process that an action fails: by a crash, or by an error. -/
def Act.failing {P τ ε χ η : Type} : Act P τ ε χ η → Option P
  | .crash p | .refuse p _ | .lose p _ _ => some p
  | .start .. | .answer .. | .outside _ => none

/-- The process whose question an action answers. -/
def Act.asker {P τ ε χ η : Type} : Act P τ ε χ η → Option P
  | .answer p _ | .refuse p _ | .lose p _ _ => some p
  | .start .. | .crash _ | .outside _ => none

namespace Machine

variable {Q P : Type} [DecidableEq P] {R : Q → Type} {ε σ χ η τ Φ : Type}

/-- The machine before anything is started. -/
def idle (s : σ) : Machine P R ε σ := ⟨s, fun _ => none, []⟩

/-- Put a program under way. -/
def launch (m : Machine P R ε σ) (p : P) (body : Prog R ε Unit) : Machine P R ε σ :=
  { m with procs := Function.update m.procs p (Live.of body []) }

/-- Process `p` is gone, wherever it stood. -/
def halt (m : Machine P R ε σ) (p : P) : Machine P R ε σ :=
  { m with procs := Function.update m.procs p none }

/-- Hand process `p`, which stands at `l`, its answer, and leave the server in `s`. -/
def deliver (m : Machine P R ε σ) (p : P) (l : Live R ε) (s : σ) (r : Except ε (R l.question)) :
    Machine P R ε σ where
  store := s
  procs := Function.update m.procs p (Live.of (l.rest r) (l.heard ++ [⟨l.question, r⟩]))
  log := m.log ++ [(p, ⟨l.question, r⟩)]

variable (S : Server R σ χ) (prog : P → τ → Prog R ε Unit) (outside : η → σ → σ)

/-- The server state and the answer that an action gives to a question. -/
def reply (s : σ) (a : Act P τ ε χ η) (q : Q) : Option (σ × Except ε (R q)) :=
  match a with
  | .answer _ c => (S.exec c s q).map fun rs => (rs.2, .ok rs.1)
  | .refuse _ e => if S.fallible q then some (s, .error e) else none
  | .lose _ c e => if S.fallible q then (S.exec c s q).map fun rs => (rs.2, .error e) else none
  | _ => none

/-- Answer what process `p` is waiting for, if it waits and the server can. -/
def serve (m : Machine P R ε σ) (p : P) (a : Act P τ ε χ η) : Machine P R ε σ :=
  match m.procs p with
  | some l =>
      match reply S m.store a l.question with
      | some (s, r) => m.deliver p l s r
      | none => m
  | none => m

def step (m : Machine P R ε σ) (a : Act P τ ε χ η) : Machine P R ε σ :=
  match a with
  | .start p task =>
      match m.procs p with
      | none => m.launch p (prog p task)
      | some _ => m
  | .answer p _ | .refuse p _ | .lose p _ _ => m.serve S p a
  | .crash p => m.halt p
  | .outside w => { m with store := outside w m.store }

/-- What serving a process can do. -/
theorem serve_cases (m : Machine P R ε σ) (p : P) (a : Act P τ ε χ η) :
    m.serve S p a = m ∨ ∃ l s r, m.procs p = some l ∧ reply S m.store a l.question = some (s, r)
      ∧ m.serve S p a = m.deliver p l s r := by
  unfold serve
  split
  · rename_i l hp
    split
    · rename_i s r hr
      exact .inr ⟨l, s, r, hp, hr, rfl⟩
    · exact .inl rfl
  · exact .inl rfl

theorem serve_of_reply {m : Machine P R ε σ} {p : P} {a : Act P τ ε χ η} {l : Live R ε} {s : σ}
    {r : Except ε (R l.question)} (hp : m.procs p = some l) (hr : reply S m.store a l.question = some (s, r)) :
    m.serve S p a = m.deliver p l s r := by
  unfold serve
  simp only [hp, hr]

/-- What one step can be: nothing, a start, an answer, a crash or a change
from outside. -/
theorem step_cases (m : Machine P R ε σ) (a : Act P τ ε χ η) :
    step S prog outside m a = m
      ∨ (∃ p task, a = .start p task ∧ m.procs p = none ∧ step S prog outside m a = m.launch p (prog p task))
      ∨ (∃ p l s r, a.asker = some p ∧ m.procs p = some l ∧ reply S m.store a l.question = some (s, r)
        ∧ step S prog outside m a = m.deliver p l s r)
      ∨ (∃ p, a = .crash p ∧ step S prog outside m a = m.halt p)
      ∨ ∃ w, a = .outside w ∧ step S prog outside m a = { m with store := outside w m.store } := by
  have hserve : ∀ p, a.asker = some p → step S prog outside m a = m.serve S p a →
      step S prog outside m a = m ∨ ∃ p l s r, a.asker = some p ∧ m.procs p = some l
        ∧ reply S m.store a l.question = some (s, r) ∧ step S prog outside m a = m.deliver p l s r := by
    intro p hp hstep
    rw [hstep]
    rcases m.serve_cases S p a with hsame | ⟨l, s, r, hl, hr, hserved⟩
    · exact .inl hsame
    · exact .inr ⟨p, l, s, r, hp, hl, hr, hserved⟩
  cases a with
  | start p task =>
      cases hp : m.procs p with
      | none => exact .inr (.inl ⟨p, task, rfl, hp, by simp only [step, hp]⟩)
      | some l => exact .inl (by simp only [step, hp])
  | answer p c => exact (hserve p rfl rfl).imp_right fun h => .inr (.inl h)
  | refuse p e => exact (hserve p rfl rfl).imp_right fun h => .inr (.inl h)
  | lose p c e => exact (hserve p rfl rfl).imp_right fun h => .inr (.inl h)
  | crash p => exact .inr (.inr (.inr (.inl ⟨p, rfl, rfl⟩)))
  | outside w => exact .inr (.inr (.inr (.inr ⟨w, rfl, rfl⟩)))

/-- The question that an action carries out: it is answered, or its answer is lost. -/
def performs (m : Machine P R ε σ) : Act P τ ε χ η → Option Q
  | .answer p _ | .lose p _ _ => (m.procs p).map (·.question)
  | .start .. | .refuse .. | .crash _ | .outside _ => none

omit [DecidableEq P] in
/-- A question is answered, or turned down, or carried out without an answer. -/
theorem reply_cases {st : σ} {a : Act P τ ε χ η} {p : P} {q : Q} {s : σ} {r : Except ε (R q)}
    (hp : a.asker = some p) (hr : reply S st a q = some (s, r)) :
    (∃ c v, a = .answer p c ∧ r = .ok v ∧ S.exec c st q = some (v, s))
      ∨ (∃ e, a = .refuse p e ∧ r = .error e ∧ s = st)
      ∨ ∃ c e v, a = .lose p c e ∧ r = .error e ∧ S.exec c st q = some (v, s) := by
  cases a with
  | answer p' c =>
      obtain rfl : p' = p := Option.some.inj hp
      obtain ⟨⟨v, s'⟩, hexec, hs⟩ := Option.map_eq_some_iff.mp hr
      cases hs
      exact .inl ⟨c, v, rfl, rfl, hexec⟩
  | refuse p' e =>
      obtain rfl : p' = p := Option.some.inj hp
      simp only [reply] at hr
      split at hr
      · cases hr
        exact .inr (.inl ⟨e, rfl, rfl, rfl⟩)
      · cases hr
  | lose p' c e =>
      obtain rfl : p' = p := Option.some.inj hp
      simp only [reply] at hr
      split at hr
      · obtain ⟨⟨v, s'⟩, hexec, hs⟩ := Option.map_eq_some_iff.mp hr
        cases hs
        exact .inr (.inr ⟨c, e, v, rfl, rfl, hexec⟩)
      · cases hr
  | start p' task => cases hp
  | crash p' => cases hp
  | outside w => cases hp

/-- What an answer says of the server: it has carried the question out, or,
after an error, perhaps. -/
def Answers (s s' : σ) (q : Q) (r : Except ε (R q)) : Prop :=
  (∃ c v, r = .ok v ∧ S.exec c s q = some (v, s')) ∨ ∃ e, r = .error e ∧ (s' = s ∨ ∃ c v, S.exec c s q = some (v, s'))

omit [DecidableEq P] in
theorem answers_of_reply {st : σ} {a : Act P τ ε χ η} {p : P} {q : Q} {s : σ} {r : Except ε (R q)}
    (hp : a.asker = some p) (hr : reply S st a q = some (s, r)) : Answers S st s q r := by
  rcases reply_cases S hp hr with ⟨c, v, -, rfl, hexec⟩ | ⟨e, -, rfl, rfl⟩ | ⟨c, e, v, -, rfl, hexec⟩
  · exact .inl ⟨c, v, rfl, hexec⟩
  · exact .inr ⟨e, rfl, .inl rfl⟩
  · exact .inr ⟨e, rfl, .inr ⟨c, v, hexec⟩⟩

omit [DecidableEq P] in
/-- What a reply leaves of the server: the effect of the question, or nothing. -/
theorem reply_store {m : Machine P R ε σ} {a : Act P τ ε χ η} {p : P} {l : Live R ε} {s : σ}
    {r : Except ε (R l.question)} (hp : a.asker = some p) (hl : m.procs p = some l)
    (hr : reply S m.store a l.question = some (s, r)) :
    s = m.store ∨ ∃ c v, m.performs a = some l.question ∧ S.exec c m.store l.question = some (v, s) := by
  rcases reply_cases S hp hr with ⟨c, v, rfl, -, hexec⟩ | ⟨e, rfl, -, rfl⟩ | ⟨c, e, v, rfl, -, hexec⟩
  · exact .inr ⟨c, v, by simp [performs, hl], hexec⟩
  · exact .inl rfl
  · exact .inr ⟨c, v, by simp [performs, hl], hexec⟩

/-- A step changes the server by what it carries out, and logs it, or from outside. -/
theorem store_step_cases (m : Machine P R ε σ) (a : Act P τ ε χ η) :
    (step S prog outside m a).store = m.store
      ∨ (∃ q c v, m.performs a = some q ∧ S.exec c m.store q = some (v, (step S prog outside m a).store)
        ∧ ∃ p r, (p, ⟨q, r⟩) ∈ (step S prog outside m a).log)
      ∨ ∃ w, a = .outside w ∧ (step S prog outside m a).store = outside w m.store := by
  rcases m.step_cases S prog outside a with hstep | ⟨p, task, rfl, _, hstep⟩ | ⟨p, l, s, r, hp, hl, hr, hstep⟩
    | ⟨p, rfl, hstep⟩ | ⟨w, rfl, hstep⟩
  · exact .inl (by rw [hstep])
  · exact .inl (by rw [hstep]; rfl)
  · rw [hstep]
    rcases reply_store S hp hl hr with hsame | ⟨c, v, hq, hexec⟩
    · exact .inl hsame
    · exact .inr (.inl ⟨l.question, c, v, hq, hexec, p, r, List.mem_append_right _ List.mem_cons_self⟩)
  · exact .inl (by rw [hstep]; rfl)
  · exact .inr (.inr ⟨w, rfl, by rw [hstep]⟩)

/-- The log only grows. -/
theorem log_isPrefix_step (m : Machine P R ε σ) (a : Act P τ ε χ η) :
    m.log <+: (step S prog outside m a).log := by
  have hlog : ∀ (m' : Machine P R ε σ) (new : List (P × Exchange R ε)), step S prog outside m a = m' →
      m'.log = m.log ++ new → m.log <+: (step S prog outside m a).log := by
    intro m' new hstep hlog
    exact ⟨new, hlog.symm.trans (congrArg Machine.log hstep).symm⟩
  have hnil : m.log = m.log ++ [] := (List.append_nil _).symm
  rcases m.step_cases S prog outside a with hstep | ⟨p, task, rfl, _, hstep⟩ | ⟨p, l, s, r, _, _, _, hstep⟩
    | ⟨p, rfl, hstep⟩ | ⟨w, rfl, hstep⟩
  · exact hlog _ [] hstep hnil
  · exact hlog _ [] hstep hnil
  · exact hlog _ _ hstep rfl
  · exact hlog _ [] hstep hnil
  · exact hlog _ [] hstep hnil

/-- A process in flight after a step was so before and still stands where it
stood, or has just been started, or has been answered. -/
theorem procs_step_cases {m : Machine P R ε σ} {a : Act P τ ε χ η} {p : P} {l' : Live R ε}
    (hl' : (step S prog outside m a).procs p = some l') :
    (m.procs p = some l' ∧ (a.asker = some p → step S prog outside m a = m))
      ∨ (∃ task q k, a = .start p task ∧ m.procs p = none ∧ prog p task = .ask q k ∧ l' = ⟨q, k, []⟩)
      ∨ ∃ l s r q k, a.asker = some p ∧ m.procs p = some l ∧ reply S m.store a l.question = some (s, r)
        ∧ step S prog outside m a = m.deliver p l s r ∧ l.rest r = .ask q k
        ∧ l' = ⟨q, k, l.heard ++ [⟨l.question, r⟩]⟩ := by
  rcases m.step_cases S prog outside a with hstep | ⟨p', task, rfl, hp, hstep⟩ | ⟨p', l, s, r, ha, hl, hr, hstep⟩
    | ⟨p', rfl, hstep⟩ | ⟨w, rfl, hstep⟩
  · exact .inl ⟨by rwa [hstep] at hl', fun _ => hstep⟩
  · rw [hstep] at hl'
    by_cases hpp : p = p'
    · subst hpp
      have hof : Live.of (prog p task) [] = some l' := by simpa [launch] using hl'
      cases hbody : prog p task with
      | done r =>
          rw [hbody] at hof
          cases hof
      | ask q k =>
          rw [hbody] at hof
          exact .inr (.inl ⟨task, q, k, rfl, hp, hbody, (Option.some.inj hof).symm⟩)
    · exact .inl ⟨by simpa [launch, hpp] using hl', fun ha' => by cases ha'⟩
  · by_cases hpp : p = p'
    · subst hpp
      have hof : Live.of (l.rest r) (l.heard ++ [⟨l.question, r⟩]) = some l' := by
        rw [hstep] at hl'
        simpa [deliver] using hl'
      cases hrest : l.rest r with
      | done res =>
          rw [hrest] at hof
          cases hof
      | ask q k =>
          rw [hrest] at hof
          exact .inr (.inr ⟨l, s, r, q, k, ha, hl, hr, hstep, hrest, (Option.some.inj hof).symm⟩)
    · rw [hstep] at hl'
      refine .inl ⟨by simpa [deliver, hpp] using hl', fun ha' => ?_⟩
      exact absurd (Option.some.inj (ha'.symm.trans ha)) hpp
  · rw [hstep] at hl'
    have hpp : p ≠ p' := by
      rintro rfl
      simp [halt] at hl'
    exact .inl ⟨by simpa [halt, hpp] using hl', fun ha' => by cases ha'⟩
  · exact .inl ⟨by rwa [hstep] at hl', fun ha' => by cases ha'⟩

/-- What a process has heard after a step it had heard before, or this step has answered. -/
theorem heard_step {m : Machine P R ε σ} {a : Act P τ ε χ η} {p : P} {l' : Live R ε} {x : Exchange R ε}
    (hl' : (step S prog outside m a).procs p = some l') (hx : x ∈ l'.heard) :
    (∃ l, m.procs p = some l ∧ x ∈ l.heard)
      ∨ ∃ q s r, a.asker = some p ∧ reply S m.store a q = some (s, r) ∧ (step S prog outside m a).store = s
        ∧ (p, x) ∈ (step S prog outside m a).log ∧ x = ⟨q, r⟩ := by
  rcases procs_step_cases S prog outside hl' with ⟨hold, -⟩ | ⟨task, q, k, -, -, -, rfl⟩
    | ⟨l, s, r, q, k, ha, hl, hr, hstep, -, rfl⟩
  · exact .inl ⟨l', hold, hx⟩
  · -- a process that is just started has heard nothing
    cases hx
  · rcases List.mem_append.mp hx with hx | hx
    · exact .inl ⟨l, hl, hx⟩
    · obtain rfl := List.mem_singleton.mp hx
      refine .inr ⟨l.question, s, r, ha, hr, by rw [hstep]; rfl, ?_, rfl⟩
      rw [hstep]
      exact List.mem_append_right _ List.mem_cons_self

/-- A process that is not started stays out of flight. -/
theorem procs_step_eq_none {m : Machine P R ε σ} {p : P} {a : Act P τ ε χ η} (hm : m.procs p = none)
    (ha : ∀ task, a ≠ .start p task) : (step S prog outside m a).procs p = none := by
  rcases m.step_cases S prog outside a with hstep | ⟨p', task, rfl, _, hstep⟩ | ⟨p', l, s, r, _, hl, _, hstep⟩
    | ⟨p', rfl, hstep⟩ | ⟨w, rfl, hstep⟩ <;> rw [hstep]
  · exact hm
  · have hpp : p ≠ p' := by
      rintro rfl
      exact ha task rfl
    exact (Function.update_of_ne hpp ..).trans hm
  · have hpp : p ≠ p' := by
      rintro rfl
      rw [hm] at hl
      cases hl
    exact (Function.update_of_ne hpp ..).trans hm
  · show Function.update m.procs p' none p = none
    rw [Function.update_apply]
    split
    · rfl
    · exact hm
  · exact hm

/-- A process that is never started is never in flight. -/
theorem procs_run_eq_none {p : P} {as : List (Act P τ ε χ η)}
    (h : ∀ a ∈ as, ∀ task, a ≠ .start p task) (s : σ) :
    (run (step S prog outside) (idle s) as).procs p = none :=
  run_invariant_of (step S prog outside) (fun m => m.procs p = none)
    (fun t => ∀ task, t.act ≠ .start p task) rfl (fun _ _ hm ha => procs_step_eq_none S prog outside hm ha) as
    fun _ ht => h _ (act_mem_of_mem_trace _ ht)

/-! ## §4. Invariants of every interleaving. -/

section Monitored

variable (M : Monitor R ε Φ)

/-- The phase a monitor is in after some answers. -/
def phaseAfter (heard : List (Exchange R ε)) : Φ :=
  heard.foldl (fun φ x => M.next φ x.question x.answer) M.start

/-- The phase of a process; one that is not in flight is at the start. -/
def phase (m : Machine P R ε σ) (p : P) : Φ :=
  match m.procs p with
  | some l => phaseAfter M l.heard
  | none => M.start

/-- Action `a` takes process `p` out of the machine in phase `φ`: by a crash,
or by the answer its program ends with. -/
inductive Leaves (m : Machine P R ε σ) (a : Act P τ ε χ η) (p : P) (φ : Φ) : Prop where
  | crashed : a = .crash p → m.phase M p = φ → Leaves m a p φ
  | ended (l : Live R ε) (s : σ) (r : Except ε (R l.question)) (res : Except ε Unit) :
      a.asker = some p → m.procs p = some l → reply S m.store a l.question = some (s, r) →
      l.rest r = .done res → M.next (m.phase M p) l.question r = φ → Leaves m a p φ

/-- The phase of a process whose program has become `p`. -/
def phaseOf (p : Prog R ε Unit) (φ : Φ) : Φ :=
  match p with
  | .done _ => M.start
  | .ask .. => φ

theorem phase_launch {m : Machine P R ε σ} {p : P} (hp : m.procs p = none) (body : Prog R ε Unit) :
    (m.launch p body).phase M = m.phase M := by
  funext p'
  unfold phase launch
  by_cases h : p' = p
  · subst h
    cases body <;> simp [hp, Live.of, phaseAfter]
  · simp [h]

theorem phase_halt (m : Machine P R ε σ) (p : P) :
    (m.halt p).phase M = Function.update (m.phase M) p M.start := by
  funext p'
  unfold phase halt
  by_cases h : p' = p
  · subst h
    simp
  · simp [h]

theorem phase_deliver {m : Machine P R ε σ} {p : P} {l : Live R ε} (hp : m.procs p = some l) (s : σ)
    (r : Except ε (R l.question)) :
    (m.deliver p l s r).phase M
      = Function.update (m.phase M) p (phaseOf M (l.rest r) (M.next (m.phase M p) l.question r)) := by
  funext p'
  unfold phase deliver
  by_cases h : p' = p
  · subst h
    cases l.rest r <;> simp [hp, Live.of, phaseOf, phaseAfter]
  · simp [h]

/-- Every program in flight asks only what its monitor allows. -/
def Monitored (m : Machine P R ε σ) : Prop :=
  ∀ p l, m.procs p = some l → M.Obeys (fun _ _ => True) (m.phase M p) (.ask l.question l.rest)

/-- It also ends in a phase and with a result that meet `post`. -/
def MonitoredTo (post : Φ → Except ε Unit → Prop) (m : Machine P R ε σ) : Prop :=
  ∀ p l, m.procs p = some l → M.Obeys post (m.phase M p) (.ask l.question l.rest)

variable {M} {S prog outside} {post : Φ → Except ε Unit → Prop}

omit [DecidableEq P] in
theorem monitoredTo_idle (s : σ) : MonitoredTo M post (idle s : Machine P R ε σ) := by
  intro p l hp
  cases hp

theorem MonitoredTo.launch {m : Machine P R ε σ} (h : MonitoredTo M post m) {p : P} (hp : m.procs p = none)
    {body : Prog R ε Unit} (hbody : M.Obeys post M.start body) :
    MonitoredTo M post (m.launch p body) := by
  intro p' l hl
  rw [phase_launch M hp]
  by_cases hpp : p' = p
  · subst hpp
    have hstart : m.phase M p' = M.start := by simp [phase, hp]
    have hof : Live.of body [] = some l := by simpa [Machine.launch] using hl
    cases body with
    | done r => cases hof
    | ask q k =>
        obtain rfl := Option.some.inj hof
        rwa [hstart]
  · exact h p' l (by simpa [Machine.launch, hpp] using hl)

theorem MonitoredTo.halt {m : Machine P R ε σ} (h : MonitoredTo M post m) (p : P) :
    MonitoredTo M post (m.halt p) := by
  intro p' l hl
  have hpp : p' ≠ p := by
    rintro rfl
    simp [Machine.halt] at hl
  rw [phase_halt, Function.update_of_ne hpp]
  exact h p' l (by simpa [Machine.halt, hpp] using hl)

theorem MonitoredTo.deliver {m : Machine P R ε σ} (h : MonitoredTo M post m) {p : P} {l : Live R ε}
    (hp : m.procs p = some l) (s : σ) (r : Except ε (R l.question)) :
    MonitoredTo M post (m.deliver p l s r) := by
  intro p' l' hl'
  rw [phase_deliver M hp]
  by_cases hpp : p' = p
  · subst hpp
    have hobeys := (h p' l hp).2 r
    have hof : Live.of (l.rest r) (l.heard ++ [⟨l.question, r⟩]) = some l' := by
      simpa [Machine.deliver] using hl'
    rw [Function.update_self]
    cases hrest : l.rest r with
    | done res =>
        rw [hrest] at hof
        cases hof
    | ask q k =>
        rw [hrest] at hof hobeys
        obtain rfl := Option.some.inj hof
        exact hobeys
  · rw [Function.update_of_ne hpp]
    exact h p' l' (by simpa [Machine.deliver, hpp] using hl')

theorem MonitoredTo.step (hprog : ∀ p t, M.Obeys post M.start (prog p t)) {m : Machine P R ε σ}
    (hM : MonitoredTo M post m) (a : Act P τ ε χ η) : MonitoredTo M post (step S prog outside m a) := by
  rcases m.step_cases S prog outside a with hstep | ⟨p, task, rfl, hp, hstep⟩ | ⟨p, l, s, r, _, hl, _, hstep⟩
    | ⟨p, rfl, hstep⟩ | ⟨w, rfl, hstep⟩ <;> rw [hstep]
  · exact hM
  · exact hM.launch hp (hprog p task)
  · exact hM.deliver hl s r
  · exact hM.halt p
  · exact hM

/-- In every state of a run the programs in flight ask only what is allowed, and end as they should. -/
theorem monitoredTo_run (hprog : ∀ p t, M.Obeys post M.start (prog p t)) (s₀ : σ) (as : List (Act P τ ε χ η)) :
    MonitoredTo M post (run (step S prog outside) (idle s₀ : Machine P R ε σ) as) :=
  run_invariant_of (step S prog outside) (MonitoredTo M post) (fun _ => True) (monitoredTo_idle s₀)
    (fun _ a hM _ => hM.step hprog a) as fun _ _ => trivial

omit [DecidableEq P] in
theorem monitored_idle (s : σ) : Monitored M (idle s : Machine P R ε σ) := monitoredTo_idle s

theorem Monitored.launch {m : Machine P R ε σ} (h : Monitored M m) {p : P} (hp : m.procs p = none)
    {body : Prog R ε Unit} (hbody : M.Obeys (fun _ _ => True) M.start body) :
    Monitored M (m.launch p body) := MonitoredTo.launch h hp hbody

theorem Monitored.halt {m : Machine P R ε σ} (h : Monitored M m) (p : P) :
    Monitored M (m.halt p) := MonitoredTo.halt h p

theorem Monitored.deliver {m : Machine P R ε σ} (h : Monitored M m) {p : P} {l : Live R ε}
    (hp : m.procs p = some l) (s : σ) (r : Except ε (R l.question)) :
    Monitored M (m.deliver p l s r) := MonitoredTo.deliver h hp s r

theorem Monitored.step (hprog : ∀ p t, M.Obeys (fun _ _ => True) M.start (prog p t)) {m : Machine P R ε σ}
    (hM : Monitored M m) (a : Act P τ ε χ η) : Monitored M (step S prog outside m a) := MonitoredTo.step hprog hM a

/-- In every state of a run the programs in flight ask only what is allowed. -/
theorem monitored_run (hprog : ∀ p t, M.Obeys (fun _ _ => True) M.start (prog p t)) (s₀ : σ)
    (as : List (Act P τ ε χ η)) :
    Monitored M (run (step S prog outside) (idle s₀ : Machine P R ε σ) as) := monitoredTo_run hprog s₀ as

omit [DecidableEq P] in
/-- What is carried out is allowed in the phase of the process that asks it. -/
theorem Monitored.allows_of_performs {m : Machine P R ε σ} (hm : Monitored M m) {a : Act P τ ε χ η} {q : Q}
    (hq : m.performs a = some q) : ∃ p, a.asker = some p ∧ M.allows (m.phase M p) q := by
  have hasks : ∀ p, a.asker = some p → (m.procs p).map (·.question) = some q →
      ∃ p, a.asker = some p ∧ M.allows (m.phase M p) q := by
    intro p ha hp
    obtain ⟨l, hl, rfl⟩ := Option.map_eq_some_iff.mp hp
    exact ⟨p, ha, (hm p l hl).1⟩
  cases a with
  | answer p c => exact hasks p rfl hq
  | lose p c e => exact hasks p rfl hq
  | start p task => cases hq
  | refuse p e => cases hq
  | crash p => cases hq
  | outside w => cases hq

variable (S prog outside) in
/-- The phase of a process after a step is what it was, or the start, or what
an answer makes of it. -/
theorem phase_step_cases (m : Machine P R ε σ) (a : Act P τ ε χ η) (p : P) :
    (step S prog outside m a).phase M p = m.phase M p ∨ (step S prog outside m a).phase M p = M.start
      ∨ ∃ l s r, a.asker = some p ∧ m.procs p = some l ∧ reply S m.store a l.question = some (s, r)
        ∧ (step S prog outside m a).store = s
        ∧ (step S prog outside m a).phase M p = M.next (m.phase M p) l.question r := by
  rcases m.step_cases S prog outside a with hstep | ⟨p', task, rfl, hp, hstep⟩ | ⟨p', l, s, r, ha, hl, hr, hstep⟩
    | ⟨p', rfl, hstep⟩ | ⟨w, rfl, hstep⟩
  · exact .inl (by rw [hstep])
  · exact .inl (by rw [hstep, phase_launch M hp])
  · rw [hstep, phase_deliver M hl, Function.update_apply]
    split
    · rename_i hpp
      subst hpp
      cases hrest : l.rest r with
      | done res => exact .inr (.inl rfl)
      | ask q k => exact .inr (.inr ⟨l, s, r, ha, hl, hr, rfl, rfl⟩)
    · exact .inl rfl
  · rw [hstep, phase_halt, Function.update_apply]
    split
    · exact .inr (.inl rfl)
    · exact .inl rfl
  · exact .inl (by rw [hstep]; rfl)

/-- **One step**, for what is said of the phases, the server and the log: it is
kept when an allowed question is answered, when a process ends or crashes, and
when the outside changes the server. -/
theorem phases_step_to {I : (P → Φ) → σ → List (P × Exchange R ε) → Prop} {m : Machine P R ε σ} {a : Act P τ ε χ η}
    (hm : MonitoredTo M post m) (h : I (m.phase M) m.store m.log)
    (hend : ∀ φ s log p res, I φ s log → post (φ p) res → I (Function.update φ p M.start) s log)
    (hanswer : ∀ p q s r, a.asker = some p → (m.procs p).map (·.question) = some q → M.allows (m.phase M p) q →
      reply S m.store a q = some (s, r) →
      I (Function.update (m.phase M) p (M.next (m.phase M p) q r)) s (m.log ++ [(p, ⟨q, r⟩)]))
    (hcrash : ∀ p, a = .crash p → I (Function.update (m.phase M) p M.start) m.store m.log)
    (houtside : ∀ w, a = .outside w → I (m.phase M) (outside w m.store) m.log) :
    I ((step S prog outside m a).phase M) (step S prog outside m a).store (step S prog outside m a).log := by
  rcases m.step_cases S prog outside a with hstep | ⟨p, task, rfl, hp, hstep⟩ | ⟨p, l, s, r, ha, hl, hr, hstep⟩
    | ⟨p, rfl, hstep⟩ | ⟨w, rfl, hstep⟩ <;> rw [hstep]
  · exact h
  · rw [phase_launch M hp]
    exact h
  · have hnext := hanswer p l.question s r ha (by rw [hl]; rfl) (hm p l hl).1 hr
    rw [phase_deliver M hl]
    cases hrest : l.rest r with
    | done res =>
        -- the answer is the last one
        have hpost : post (M.next (m.phase M p) l.question r) res := by
          have hobeys := (hm p l hl).2 r
          rwa [hrest] at hobeys
        have hstart := hend _ _ _ p res hnext (by rwa [Function.update_self])
        rwa [Function.update_idem] at hstart
    | ask q k => exact hnext
  · rw [phase_halt]
    exact hcrash p rfl
  · exact houtside w rfl

/-- The same, for what a process that starts again keeps. -/
theorem phases_step {I : (P → Φ) → σ → List (P × Exchange R ε) → Prop} {m : Machine P R ε σ} {a : Act P τ ε χ η}
    (hm : Monitored M m) (h : I (m.phase M) m.store m.log)
    (hrestart : ∀ φ s log p, I φ s log → I (Function.update φ p M.start) s log)
    (hanswer : ∀ p q s r, a.asker = some p → (m.procs p).map (·.question) = some q → M.allows (m.phase M p) q →
      reply S m.store a q = some (s, r) →
      I (Function.update (m.phase M) p (M.next (m.phase M p) q r)) s (m.log ++ [(p, ⟨q, r⟩)]))
    (houtside : ∀ w, a = .outside w → I (m.phase M) (outside w m.store) m.log) :
    I ((step S prog outside m a).phase M) (step S prog outside m a).store (step S prog outside m a).log :=
  phases_step_to hm h (fun φ s log p _ hI _ => hrestart φ s log p hI) hanswer
    (fun p _ => hrestart _ _ _ p h) houtside

/-- **Invariants of every interleaving.**  Programs that obey a monitor may be
interleaved in any way: a property of the machine holds throughout a run as
soon as starting, allowed answers, crashing and the outside keep it, answers
and crashes under a side condition `C` on the step. -/
theorem monitored_invariant (hprog : ∀ p t, M.Obeys (fun _ _ => True) M.start (prog p t))
    (I : Machine P R ε σ → Prop) (C : Transition (Machine P R ε σ) (Act P τ ε χ η) → Prop)
    {s₀ : σ} (h0 : I (idle s₀))
    (hlaunch : ∀ m p task, I m → m.procs p = none → I (m.launch p (prog p task)))
    (hdeliver : ∀ (m : Machine P R ε σ) (a : Act P τ ε χ η) p l s r, I m →
      a.asker = some p → m.procs p = some l → M.allows (m.phase M p) l.question →
      reply S m.store a l.question = some (s, r) → C ⟨m, a, m.deliver p l s r⟩ →
      I (m.deliver p l s r))
    (hhalt : ∀ m p, I m → C ⟨m, .crash p, m.halt p⟩ → I (m.halt p))
    (houtside : ∀ (m : Machine P R ε σ) w, I m → I { m with store := outside w m.store })
    (as : List (Act P τ ε χ η))
    (hC : ∀ t ∈ trace (step S prog outside) (idle s₀) as, C t) :
    I (run (step S prog outside) (idle s₀) as) := by
  refine (run_invariant_of (step S prog outside) (fun m => Monitored M m ∧ I m) C
    ⟨monitored_idle s₀, h0⟩ ?_ as hC).2
  rintro m a ⟨hM, hI⟩ hCa
  have hserve : ∀ p, a.asker = some p → step S prog outside m a = m.serve S p a →
      Monitored M (m.serve S p a) ∧ I (m.serve S p a) := by
    intro p hp hstep
    rw [hstep] at hCa
    rcases m.serve_cases S p a with hsame | ⟨l, s, r, hl, hr, hserved⟩
    · rw [hsame]
      exact ⟨hM, hI⟩
    · rw [hserved] at hCa ⊢
      exact ⟨hM.deliver hl s r, hdeliver m a p l s r hI hp hl (hM p l hl).1 hr hCa⟩
  cases a with
  | start p task =>
      cases hp : m.procs p with
      | none =>
          simp only [step, hp]
          exact ⟨hM.launch hp (hprog p task), hlaunch m p task hI hp⟩
      | some l =>
          simp only [step, hp]
          exact ⟨hM, hI⟩
  | answer p c => exact hserve p rfl rfl
  | refuse p e => exact hserve p rfl rfl
  | lose p c e => exact hserve p rfl rfl
  | crash p => exact ⟨hM.halt p, hhalt m p hI hCa⟩
  | outside w => exact ⟨hM, houtside m w hI⟩

end Monitored

end Machine

end Foundation
