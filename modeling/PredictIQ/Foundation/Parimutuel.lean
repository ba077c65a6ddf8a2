/-
  PredictIQ.Foundation.Parimutuel: what a betting house is for.

  A board of pools.  A pool has terms, a phase, and what each account staked
  on each outcome.  Pools are opened under fresh numbers, take stakes while
  their phase says so, move on through a proposal or a contest to a verdict
  or to nothing, and may be taken down once settled.  `Board.Later` is what
  any run leaves of a board: terms, closed stakes and verdicts.
-/
import Mathlib.Logic.Function.Basic
import Mathlib.Logic.Relation
import Mathlib.Order.Basic
import Mathlib.Data.Nat.Basic

namespace Foundation

/-! ## §1. Phases. -/

/-- Where a pool stands. -/
inductive Phase (V : Type)
  | taking
  | proposed (verdict : V)
  | contested
  | settled (verdict : V)
  | void

/-- Neither settled nor void. -/
def Phase.Running {V : Type} : Phase V → Prop
  | settled _ => False
  | void => False
  | _ => True

/-- The ways on from a phase. -/
inductive Phase.Next {V : Type} : Phase V → Phase V → Prop
  | propose (v : V) : Next .taking (.proposed v)
  | contest (v : V) : Next (.proposed v) .contested
  | confirm (v : V) : Next (.proposed v) (.settled v)
  | decide (v : V) : Next .contested (.settled v)
  | rule (p : Phase V) (v : V) (running : p.Running) : Next p (.settled v)
  | call (p : Phase V) (running : p.Running) : Next p .void

/-- Some way on, or none. -/
abbrev Phase.Onward {V : Type} : Phase V → Phase V → Prop := Relation.ReflTransGen Phase.Next

theorem Phase.Next.running {V : Type} {p q : Phase V} (h : p.Next q) : p.Running := by
  cases h with
  | rule _ _ running => exact running
  | call _ running => exact running
  | _ => trivial

/-- Nothing comes after the end. -/
theorem Phase.Onward.eq_of_ended {V : Type} {p q : Phase V} (h : p.Onward q) (hp : ¬p.Running) : q = p := by
  rcases Relation.ReflTransGen.cases_head h with rfl | ⟨r, hr, _⟩
  · rfl
  · exact absurd hr.running hp

theorem Phase.Next.ne_taking {V : Type} {p q : Phase V} (h : p.Next q) : q ≠ .taking := by
  cases h <;> exact fun h => nomatch h

/-- A pool that stopped taking stakes never takes any again. -/
theorem Phase.Onward.ne_taking {V : Type} {p q : Phase V} (h : p.Onward q) (hp : p ≠ .taking) :
    q ≠ .taking := by
  induction h with
  | refl => exact hp
  | tail _ hnext _ => exact hnext.ne_taking

/-! ## §2. Boards. -/

/-- A pool: its terms, where it stands, and who staked what on which outcome. -/
structure Pool (A O V T : Type) where
  terms : T
  phase : Phase V
  stake : A → O → Int

/-- The pools by number, and the last number drawn. -/
structure Board (A O V T : Type) where
  pool : Nat → Option (Pool A O V T)
  drawn : Nat

/-- What the rules read off a pool's terms. -/
structure House (A O T : Type) where
  owner : T → A
  closes : T → Nat
  offers : T → O → Prop

section Boards

variable {A O V T : Type}

/-- `x` more of `a` on `o`. -/
def Pool.staked [DecidableEq A] [DecidableEq O] (p : Pool A O V T) (a : A) (o : O) (x : Int) : Pool A O V T :=
  { p with stake := fun a' o' => p.stake a' o' + if a' = a ∧ o' = o then x else 0 }

/-- The board with another pool, or none, under a number. -/
def Board.set (b : Board A O V T) (k : Nat) (p : Option (Pool A O V T)) : Board A O V T :=
  { b with pool := Function.update b.pool k p }

theorem Board.set_pool (b : Board A O V T) (k : Nat) (p : Option (Pool A O V T)) (j : Nat) :
    (b.set k p).pool j = if j = k then p else b.pool j := Function.update_apply b.pool k p j

/-- One step of the house, at a time and under the signatures at hand. -/
inductive Board.Step [DecidableEq A] [DecidableEq O] (H : House A O T) (signed : A → Prop) (now : Nat) :
    Board A O V T → Board A O V T → Prop
  | idle (b : Board A O V T) : Step H signed now b b
  | opened (b : Board A O V T) (t : T) (sign : signed (H.owner t)) (ahead : now < H.closes t) :
      Step H signed now b
        { pool := Function.update b.pool (b.drawn + 1) (some ⟨t, .taking, fun _ _ => 0⟩)
          drawn := b.drawn + 1 }
  | staked (b : Board A O V T) (k : Nat) (p : Pool A O V T) (a : A) (o : O) (x : Int)
      (here : b.pool k = some p) (taking : p.phase = .taking) (sign : signed a)
      (inTime : now < H.closes p.terms) (offered : H.offers p.terms o) :
      Step H signed now b (b.set k (some (p.staked a o x)))
  | moved (b : Board A O V T) (k : Nat) (p : Pool A O V T) (q : Phase V)
      (here : b.pool k = some p) (next : p.phase.Next q) :
      Step H signed now b (b.set k (some { p with phase := q }))
  | retired (b : Board A O V T) (k : Nat) (p : Pool A O V T) (v : V)
      (here : b.pool k = some p) (settled : p.phase = .settled v) :
      Step H signed now b (b.set k none)

/-- No pool under a number not drawn yet. -/
def Board.Fresh (b : Board A O V T) : Prop := ∀ k, b.drawn < k → b.pool k = none

/-! ## §3. What a run leaves. -/

/-- A pool at a later time: the terms are the same, the phase moved on if at
all, and the stakes are the same unless the pool was taking some. -/
structure Pool.Later (p q : Pool A O V T) : Prop where
  terms : q.terms = p.terms
  phase : p.phase.Onward q.phase
  stakes : p.phase ≠ .taking → q.stake = p.stake

theorem Pool.Later.refl (p : Pool A O V T) : p.Later p := ⟨rfl, .refl, fun _ => rfl⟩

theorem Pool.Later.trans {p q r : Pool A O V T} (h : p.Later q) (h' : q.Later r) : p.Later r := by
  refine ⟨h'.terms.trans h.terms, h.phase.trans h'.phase, ?_⟩
  intro hp
  exact (h'.stakes (h.phase.ne_taking hp)).trans (h.stakes hp)

/-- An ended pool is left alone. -/
theorem Pool.Later.eq_of_ended {p q : Pool A O V T} (h : p.Later q) (hp : ¬p.phase.Running) : q = p := by
  have hphase : q.phase = p.phase := h.phase.eq_of_ended hp
  have hstake : q.stake = p.stake := h.stakes fun ht => hp (ht ▸ trivial)
  obtain ⟨terms, phase, stake⟩ := q
  obtain rfl : terms = p.terms := h.terms
  obtain rfl : phase = p.phase := hphase
  obtain rfl : stake = p.stake := hstake
  rfl

/-- A number's pool at a later time: still there, or settled and taken down. -/
def KeptOrRetired (p : Pool A O V T) (o : Option (Pool A O V T)) : Prop :=
  (∃ q, o = some q ∧ p.Later q) ∨ (o = none ∧ ∃ v, p.phase.Onward (.settled v))

/-- A board at a later time. -/
structure Board.Later (b b' : Board A O V T) : Prop where
  drawn : b.drawn ≤ b'.drawn
  kept : ∀ k p, b.pool k = some p → KeptOrRetired p (b'.pool k)
  unused : ∀ k, k ≤ b.drawn → b.pool k = none → b'.pool k = none

theorem Board.Later.refl (b : Board A O V T) : b.Later b :=
  ⟨le_refl _, fun _ p hp => .inl ⟨p, hp, .refl p⟩, fun _ _ h => h⟩

theorem Board.Later.trans {b c d : Board A O V T} (hb : b.Fresh) (h : b.Later c) (h' : c.Later d) :
    b.Later d := by
  refine ⟨h.drawn.trans h'.drawn, ?_, ?_⟩
  · intro k p hp
    rcases h.kept k p hp with ⟨q, hq, hpq⟩ | ⟨hnone, hv⟩
    · rcases h'.kept k q hq with ⟨r, hr, hqr⟩ | ⟨hnone, v, hv⟩
      · exact .inl ⟨r, hr, hpq.trans hqr⟩
      · exact .inr ⟨hnone, v, hpq.phase.trans hv⟩
    · -- the number was drawn, so it is not used again
      have hk : k ≤ b.drawn := by
        by_contra hlt
        rw [hb k (not_le.mp hlt)] at hp
        cases hp
      exact .inr ⟨h'.unused k (hk.trans h.drawn) hnone, hv⟩
  · intro k hk hnone
    exact h'.unused k (hk.trans h.drawn) (h.unused k hk hnone)

/-- Rewriting one pool, the others staying. -/
theorem Board.Later.of_set {b : Board A O V T} {k : Nat} {p : Pool A O V T} {o : Option (Pool A O V T)}
    (hp : b.pool k = some p) (ho : KeptOrRetired p o) : b.Later (b.set k o) := by
  refine ⟨le_refl _, ?_, ?_⟩
  · intro j q hq
    rw [Board.set_pool]
    by_cases hj : j = k
    · subst hj
      rw [if_pos rfl, ← Option.some.inj (hp.symm.trans hq)]
      exact ho
    · rw [if_neg hj]
      exact .inl ⟨q, hq, .refl q⟩
  · intro j _ hnone
    have hj : j ≠ k := by
      rintro rfl
      rw [hp] at hnone
      cases hnone
    rw [Board.set_pool, if_neg hj]
    exact hnone

section Steps

variable [DecidableEq A] [DecidableEq O] {H : House A O T} {signed : A → Prop} {now : Nat} {b b' : Board A O V T}

theorem Board.Step.later (hb : b.Fresh) (h : Board.Step H signed now b b') : b.Later b' := by
  cases h with
  | idle => exact .refl b
  | opened t =>
      refine ⟨Nat.le_succ _, ?_, ?_⟩
      · intro k p hp
        have hk : k ≠ b.drawn + 1 := by
          rintro rfl
          rw [hb _ (Nat.lt_succ_self _)] at hp
          cases hp
        refine .inl ⟨p, ?_, .refl p⟩
        show Function.update b.pool (b.drawn + 1) _ k = some p
        rw [Function.update_of_ne hk, hp]
      · intro k hk hnone
        show Function.update b.pool (b.drawn + 1) _ k = none
        rw [Function.update_of_ne (by omega), hnone]
  | staked k p a o x here taking =>
      exact .of_set here (.inl ⟨_, rfl, rfl, .refl, fun hp => absurd taking hp⟩)
  | moved k p q here next =>
      exact .of_set here (.inl ⟨_, rfl, rfl, .single next, fun _ => rfl⟩)
  | retired k p v here settled =>
      refine .of_set here (.inr ⟨rfl, v, ?_⟩)
      rw [settled]

end Steps

/-! ## §4. What a later board cannot undo. -/

section Ends

variable {b b' : Board A O V T} {k : Nat} {p : Pool A O V T}

/-- A pool that is still there has its old terms, and its old stakes once it
stopped taking any. -/
theorem Board.Later.pool (h : b.Later b') (hp : b.pool k = some p) {q : Pool A O V T}
    (hq : b'.pool k = some q) : p.Later q := by
  rcases h.kept k p hp with ⟨r, hr, hpr⟩ | ⟨hnone, _⟩
  · rw [hq] at hr
    rw [Option.some.inj hr]
    exact hpr
  · rw [hq] at hnone
    cases hnone

/-- A pool called off stays, as it is. -/
theorem Board.Later.void (h : b.Later b') (hp : b.pool k = some p) (hv : p.phase = .void) :
    b'.pool k = some p := by
  have hended : ¬p.phase.Running := by rw [hv]; exact id
  rcases h.kept k p hp with ⟨q, hq, hpq⟩ | ⟨_, v, hsettled⟩
  · rw [hq, hpq.eq_of_ended hended]
  · -- what is void was never settled
    have hboth := hsettled.eq_of_ended hended
    rw [hv] at hboth
    cases hboth

end Ends

end Boards

end Foundation
