/-
  PredictIQ.Api.Shutdown: `ShutdownCoordinator` of `shutdown.rs`.

  The counter of completed workers is the value of a watch channel:
  `worker_completed` borrows it and sends one more, in two steps.  A call of
  `shutdown` clones the receiver, which has seen version 0, and waits for
  other versions until the value reaches the number of workers or its time is
  up.  The coordinator holds a sender and a receiver, so neither end is closed.
-/
import PredictIQ.Foundation.Run
import PredictIQ.Foundation.SharedCounter
import Mathlib.Data.Fintype.Card

namespace PredictIQ.Shutdown

open Foundation

/-! ## §1. The machine. -/

/-- Where a call of `shutdown` is, with the version its receiver has seen:
about to look at the value, or waiting for another version. -/
inductive Call
  | absent
  | looking (seen : Nat)
  | waiting (seen : Nat)
  | returned
  | timedOut (done : Nat)
  deriving DecidableEq

inductive Action (n : Nat) (κ : Type)
  | borrow (i : Fin n)
  | send (i : Fin n)
  | shutdown (k : κ)
  | poll (k : κ)
  | elapse (k : κ)
  deriving DecidableEq

structure State (n : Nat) (κ : Type) where
  completion : SharedCounter (Fin n)
  version : Nat
  call : κ → Call

section Machine

variable {n : Nat} {κ : Type} [DecidableEq κ]

def init : State n κ := ⟨.init, 0, fun _ => .absent⟩

def State.turn (s : State n κ) (k : κ) (f : Call → Call) : State n κ :=
  { s with call := Function.update s.call k (f (s.call k)) }

/-- The call clones the coordinator's receiver. -/
def begin : Call → Call
  | .absent => .looking 0
  | c => c

/-- A turn of the loop of `wait_for_completion`, up to where it waits. -/
def waitForCompletion (s : State n κ) : Call → Call
  | .looking seen => if n ≤ s.completion.value then .returned else .waiting seen
  | .waiting seen => if s.version ≠ seen then .looking s.version else .waiting seen
  | c => c

/-- The timeout ends the call with the number of workers it reports. -/
def timeout (s : State n κ) : Call → Call
  | .waiting _ => .timedOut s.completion.value
  | c => c

def step (s : State n κ) : Action n κ → State n κ
  | .borrow i => { s with completion := s.completion.read i }
  | .send i =>
      let version := match s.completion.stage i with
        | .read _ => s.version + 1
        | _ => s.version
      { s with completion := s.completion.write i, version }
  | .shutdown k => s.turn k begin
  | .poll k => s.turn k (waitForCompletion s)
  | .elapse k => s.turn k (timeout s)

/-! ## §2. What is claimed of it. -/

def State.Complete (s : State n κ) : Prop := ∀ i, s.completion.stage i = .done

/-- A call that waits. -/
def Call.Pending : Call → Prop
  | .looking _ | .waiting _ => True
  | _ => False

/-- **Shutdown counts every worker**: no call returns before all workers have
completed; when they have, the counter is at `n`, and a waiting call returns
within two of its turns, unless its time is up. -/
def Counts (as : List (Action n κ)) : Prop :=
  (∀ bs k, bs <+: as → (run step init bs).call k = .returned → (run step init bs).Complete)
    ∧ ((run step init as).Complete → (run step init as).completion.value = n
      ∧ ∀ k cs, ((run step init as).call k).Pending → 2 ≤ cs.count (.poll k) → .elapse k ∉ cs →
        (run step init (as ++ cs)).call k = .returned)

/-- No other worker is between its two steps when one sends. -/
def Alone (t : Transition (State n κ) (Action n κ)) : Prop :=
  ∀ i c, t.act = .send i → t.pre.completion.stage i = .read c → t.pre.completion.Solo i

/-! ## §3. What holds in every state. -/

section Invariant

variable {s : State n κ} {c : Call}

/-- A call has seen no later version than the channel's; one that waits with the
latest has seen too small a value; and one that returned has seen `n`. -/
def Honest (s : State n κ) : Call → Prop
  | .looking seen => seen ≤ s.version
  | .waiting seen => seen ≤ s.version ∧ (seen = s.version → s.completion.value < n)
  | .returned => s.Complete
  | _ => True

structure Inv (s : State n κ) : Prop where
  sound : s.completion.Sound
  honest : ∀ k, Honest s (s.call k)

omit [DecidableEq κ] in
theorem inv_init : Inv (init : State n κ) := ⟨SharedCounter.sound_init, fun _ => trivial⟩

omit [DecidableEq κ] in
/-- At `n` the counter has counted all workers. -/
theorem complete_of_le (hsound : s.completion.Sound) (h : n ≤ s.completion.value) : s.Complete := by
  apply SharedCounter.completions_eq_card_iff.mp
  have hcard : s.completion.completions ≤ Fintype.card (Fin n) := Finset.card_filter_le _ _
  have hvalue := hsound.value_le
  rw [Fintype.card_fin] at hcard ⊢
  omega

theorem Honest.borrow (h : Honest s c) (i : Fin n) : Honest (step s (.borrow i)) c := by
  cases c with
  | looking seen => exact h
  | waiting seen => exact ⟨h.1, fun hseen => (s.completion.value_read i).trans_lt (h.2 hseen)⟩
  | returned => exact fun j => SharedCounter.stage_read_done (h j)
  | absent | timedOut _ => trivial

theorem Honest.send (h : Honest s c) (i : Fin n) : Honest (step s (.send i)) c := by
  cases hstage : s.completion.stage i with
  | read current =>
      -- the channel has a version that nobody has seen
      have hversion : (step s (.send i)).version = s.version + 1 := by
        simp only [step, hstage]
      cases c with
      | looking seen =>
          show seen ≤ _
          rw [hversion]
          exact Nat.le_succ_of_le h
      | waiting seen =>
          have hle := h.1
          refine ⟨?_, fun hseen => ?_⟩
          · rw [hversion]
            omega
          · rw [hversion] at hseen
            omega
      | returned => exact fun j => SharedCounter.stage_write_done (h j)
      | absent | timedOut _ => trivial
  | idle | done =>
      have hsame : step s (.send i) = s := by
        simp only [step, hstage]
        rw [SharedCounter.write_of_not_read (by rw [hstage]; nofun)]
      rwa [hsame]

omit [DecidableEq κ] in
/-- **A turn is honest**: a call that returns has seen the value at `n`. -/
theorem Honest.waitForCompletion (h : Honest s c) (hsound : s.completion.Sound) :
    Honest s (waitForCompletion s c) := by
  cases c with
  | looking seen =>
      by_cases hvalue : n ≤ s.completion.value
      · rw [show Shutdown.waitForCompletion s (.looking seen) = .returned from if_pos hvalue]
        exact complete_of_le hsound hvalue
      · rw [show Shutdown.waitForCompletion s (.looking seen) = .waiting seen from if_neg hvalue]
        exact ⟨h, fun _ => Nat.not_le.mp hvalue⟩
  | waiting seen =>
      by_cases hseen : s.version ≠ seen
      · rw [show Shutdown.waitForCompletion s (.waiting seen) = .looking s.version from if_pos hseen]
        exact Nat.le_refl _
      · rw [show Shutdown.waitForCompletion s (.waiting seen) = .waiting seen from if_neg hseen]
        exact h
  | absent | returned | timedOut _ => exact h

theorem Inv.turn (h : Inv s) (k : κ) {f : Call → Call} (hf : ∀ c, Honest s c → Honest s (f c)) : Inv (s.turn k f) := by
  refine ⟨h.sound, fun j => ?_⟩
  show Honest s (Function.update s.call k (f (s.call k)) j)
  by_cases hj : j = k
  · subst hj
    rw [Function.update_self]
    exact hf _ (h.honest j)
  · rw [Function.update_of_ne hj]
    exact h.honest j

theorem Inv.step (h : Inv s) (a : Action n κ) : Inv (step s a) := by
  cases a with
  | borrow i => exact ⟨h.sound.read i, fun k => (h.honest k).borrow i⟩
  | send i => exact ⟨h.sound.write i, fun k => (h.honest k).send i⟩
  | shutdown k =>
      refine h.turn k fun c hc => ?_
      cases c with
      | absent => exact Nat.zero_le _
      | looking _ | waiting _ | returned | timedOut _ => exact hc
  | poll k => exact h.turn k fun c hc => hc.waitForCompletion h.sound
  | elapse k =>
      refine h.turn k fun c hc => ?_
      cases c with
      | waiting _ => exact trivial
      | absent | looking _ | returned | timedOut _ => exact hc

theorem inv_run (as : List (Action n κ)) : Inv (run step (init : State n κ) as) :=
  run_invariant_of step Inv (fun _ => True) inv_init (fun _ a h _ => h.step a) as fun _ _ => trivial

end Invariant

/-! ## §4. Calls return. -/

section Returning

variable {s : State n κ} {k : κ}

/-- The turns that a waiting call needs when the counter is at `n`. -/
def Call.turns : Call → Nat
  | .looking _ => 1
  | .waiting _ => 2
  | _ => 0

theorem Call.turns_le (c : Call) : c.turns ≤ 2 := by
  cases c <;> simp [Call.turns]

theorem Call.Pending.turns_pos {c : Call} (h : c.Pending) : 0 < c.turns := by
  cases c with
  | looking _ | waiting _ => exact Nat.succ_pos _
  | absent | returned | timedOut _ => cases h

/-- When all workers are done, nobody touches the counter any more. -/
theorem State.Complete.completion_step (h : s.Complete) (a : Action n κ) : (step s a).completion = s.completion := by
  cases a with
  | borrow i => exact SharedCounter.read_of_not_idle (by rw [h i]; nofun)
  | send i => exact SharedCounter.write_of_not_read (by rw [h i]; nofun)
  | shutdown k | poll k | elapse k => rfl

/-- A call is moved by its own actions. -/
theorem call_step_of_ne {a : Action n κ} (hbegin : a ≠ .shutdown k) (hpoll : a ≠ .poll k) (helapse : a ≠ .elapse k) :
    (step s a).call k = s.call k := by
  cases a with
  | borrow i | send i => rfl
  | shutdown j => exact Function.update_of_ne (fun h => hbegin (by rw [h])) _ _
  | poll j => exact Function.update_of_ne (fun h => hpoll (by rw [h])) _ _
  | elapse j => exact Function.update_of_ne (fun h => helapse (by rw [h])) _ _

/-- A call that has begun does not begin again. -/
theorem call_step_shutdown (h : s.call k ≠ .absent) : (step s (.shutdown k)).call k = s.call k := by
  show Function.update s.call k (begin (s.call k)) k = _
  rw [Function.update_self]
  cases hcall : s.call k with
  | absent => contradiction
  | looking _ | waiting _ | returned | timedOut _ => rfl

/-- **A turn brings a waiting call nearer**: with the counter at `n` it looks and
returns, or finds a version it has not seen. -/
theorem turns_poll (h : Inv s) (hvalue : s.completion.value = n) (hcall : (s.call k).Pending ∨ s.call k = .returned) :
    (((step s (.poll k)).call k).Pending ∨ (step s (.poll k)).call k = .returned)
      ∧ ((step s (.poll k)).call k).turns ≤ (s.call k).turns - 1 := by
  have hpoll : (step s (.poll k)).call k = waitForCompletion s (s.call k) := Function.update_self _ _ _
  have hhonest := h.honest k
  rw [hpoll]
  cases hstage : s.call k with
  | looking seen =>
      rw [show waitForCompletion s (.looking seen) = .returned from if_pos hvalue.ge]
      exact ⟨.inr rfl, Nat.le_refl _⟩
  | waiting seen =>
      rw [hstage] at hhonest
      have hseen : s.version ≠ seen := fun heq => by
        have hlt := hhonest.2 heq.symm
        omega
      rw [show waitForCompletion s (.waiting seen) = .looking s.version from if_pos hseen]
      exact ⟨.inl trivial, Nat.le_refl _⟩
  | returned => exact ⟨.inr rfl, Nat.le_refl _⟩
  | absent | timedOut _ =>
      rw [hstage] at hcall
      rcases hcall with hcall | hcall <;> cases hcall

/-- **A waiting call returns** once it has had its turns. -/
theorem returned_of_turns (h : Inv s) (hall : s.Complete) (hvalue : s.completion.value = n)
    (hcall : (s.call k).Pending ∨ s.call k = .returned) (cs : List (Action n κ))
    (hturns : (s.call k).turns ≤ cs.count (.poll k)) (htime : .elapse k ∉ cs) : (run step s cs).call k = .returned := by
  induction cs generalizing s with
  | nil =>
      rcases hcall with hcall | hcall
      · exact absurd hturns (Nat.not_le.mpr hcall.turns_pos)
      · exact hcall
  | cons a cs ih =>
      have hsame := hall.completion_step a
      have hnext : ((step s a).call k).Pending ∨ (step s a).call k = .returned →
          ((step s a).call k).turns ≤ cs.count (.poll k) → (run step s (a :: cs)).call k = .returned := fun hc ht =>
        ih (h.step a) (fun i => by rw [hsame]; exact hall i) (by rw [hsame]; exact hvalue) hc ht
          fun hmem => htime (List.mem_cons_of_mem _ hmem)
      by_cases hpoll : a = .poll k
      · subst hpoll
        rw [List.count_cons_self] at hturns
        obtain ⟨hc, ht⟩ := turns_poll h hvalue hcall
        exact hnext hc (by omega)
      · have hkeep : (step s a).call k = s.call k := by
          by_cases hbegin : a = .shutdown k
          · subst hbegin
            refine call_step_shutdown fun habsent => ?_
            rw [habsent] at hcall
            rcases hcall with hcall | hcall <;> cases hcall
          · exact call_step_of_ne hbegin hpoll fun helapse => htime (helapse ▸ List.mem_cons_self)
        rw [List.count_cons_of_ne hpoll, ← hkeep] at hturns
        exact hnext (by rw [hkeep]; exact hcall) hturns

end Returning

/-! ## §5. Which runs are counted. -/

section Runs

variable {s : State n κ}

/-- A step alone keeps the count exact. -/
theorem exact_step (h : s.completion.Exact) (a : Action n κ) (halone : Alone ⟨s, a, step s a⟩) :
    (step s a).completion.Exact := by
  cases a with
  | borrow i => exact h.read i
  | send i => exact h.write fun c hstage => halone i c rfl hstage
  | shutdown k | poll k | elapse k => exact h

/-- No step mends the count. -/
theorem doomed_step (h : s.completion.Doomed) (hsound : s.completion.Sound) (a : Action n κ) :
    (step s a).completion.Doomed := by
  cases a with
  | borrow i => exact h.read i
  | send i => exact h.write hsound i
  | shutdown k | poll k | elapse k => exact h

theorem doomed_run (h : s.completion.Doomed) (hinv : Inv s) (as : List (Action n κ)) :
    (run step s as).completion.Doomed := by
  have hrun := run_invariant_of step (fun s => Inv s ∧ s.completion.Doomed) (fun _ => True) ⟨hinv, h⟩
    (fun _ a hs _ => ⟨hs.1.step a, doomed_step hs.2 hs.1.sound a⟩) as fun _ _ => trivial
  exact hrun.2

/-- **Which runs are counted**: those that are not complete, and those in which
no worker sends while another is between its two steps. -/
theorem counts_iff (as : List (Action n κ)) :
    Counts as ↔ ((run step (init : State n κ) as).Complete → ∀ t ∈ trace step init as, Alone t) := by
  constructor
  · rintro ⟨-, hcounts⟩ hcomplete t ht i c hact hstage
    by_contra hsolo
    obtain ⟨bs, cs, rfl, hpre, -⟩ := mem_trace step ht
    rw [hact] at hcomplete hcounts
    rw [hpre] at hstage hsolo
    -- the increment of the worker that has read is lost
    have hdoomed : (run step (step (run step init bs) (.send i)) cs).completion.Doomed :=
      doomed_run (SharedCounter.doomed_of_not_solo (inv_run bs).sound hstage hsolo) ((inv_run bs).step _) cs
    have hrun : run step (init : State n κ) (bs ++ .send i :: cs) = run step (step (run step init bs) (.send i)) cs := by
      rw [run_append]
      rfl
    have hshort := hdoomed.value_lt (hrun ▸ hcomplete)
    have hvalue := (hcounts hcomplete).1
    rw [hrun] at hvalue
    rw [Fintype.card_fin] at hshort
    omega
  · intro h
    refine ⟨fun bs k _ hreturned => ?_, fun hcomplete => ?_⟩
    · have hhonest := (inv_run bs).honest k
      rwa [hreturned] at hhonest
    · have hexact := run_invariant_of step (fun s : State n κ => s.completion.Exact) Alone SharedCounter.exact_init
        (fun _ a hs halone => exact_step hs a halone) as (h hcomplete)
      have hvalue : (run step (init : State n κ) as).completion.value = n := by
        rw [hexact.value_eq, SharedCounter.completions_eq_card_iff.mpr hcomplete, Fintype.card_fin]
      refine ⟨hvalue, fun k cs hpending hpolls htime => ?_⟩
      rw [run_append]
      exact returned_of_turns (inv_run as) hcomplete hvalue (.inl hpending) cs ((Call.turns_le _).trans hpolls) htime

/-- Of two workers that read the same value one is not counted. -/
theorem one_of_two_lost :
    ¬Counts ([.borrow 0, .borrow 1, .send 0, .send 1] : List (Action 2 Unit)) := by
  rintro ⟨-, hcounts⟩
  have hcomplete : (run step (init : State 2 Unit) [.borrow 0, .borrow 1, .send 0, .send 1]).Complete := by
    intro i
    match i with
    | 0 => rfl
    | 1 => rfl
  exact absurd (hcounts hcomplete).1 (by decide)

end Runs

end Machine

end PredictIQ.Shutdown
