/-
  PredictIQ.Foundation.Custody: jobs handed between shared places and processes.

  A process takes a job, holds it, and puts it down again.  Meanwhile it may
  list the job under its own name, so that others find it should the process
  die; once it has put the job down it will take its own entry off the list,
  which is why that entry no longer counts.  A job is kept while it is in a
  safe place, on the list of a process that has not put it down, or held.
-/
import Mathlib.Logic.Function.Basic

namespace Foundation

/-- What a process is doing: nothing, working on a job that it has yet to put
down, or on one that it has put down. -/
inductive Stage (J : Type) where
  | free
  | holding (j : J)
  | placed (j : J)

structure Custody (P J : Type) where
  safe : J → Prop
  listed : P → J → Prop
  stage : P → Stage J

namespace Custody

variable {P J : Type} {c c' : Custody P J} {p : P} {j : J}

/-- A process is in the middle of an operation on a job. -/
def AtWork (c : Custody P J) (p : P) (j : J) : Prop :=
  c.stage p = .holding j ∨ c.stage p = .placed j

/-- Somebody or something answers for the job. -/
def Kept (c : Custody P J) (j : J) : Prop :=
  c.safe j ∨ (∃ p, c.listed p j ∧ c.stage p ≠ .placed j) ∨ ∃ p, c.stage p = .holding j

/-- A kept job that nobody is at work on can be found. -/
theorem Kept.found (h : c.Kept j) (hfree : ∀ p, ¬c.AtWork p j) : c.safe j ∨ ∃ p, c.listed p j := by
  rcases h with hsafe | ⟨p, hlisted, _⟩ | ⟨p, hholding⟩
  · exact .inl hsafe
  · exact .inr ⟨p, hlisted⟩
  · exact absurd (.inl hholding) (hfree p)

/-- **One process moves.**  A job stays kept when whatever answered for it
does so afterwards, or something else does. -/
theorem Kept.move (h : c.Kept j) (hothers : ∀ x, x ≠ p → c'.stage x = c.stage x)
    (hsafe : c.safe j → c'.Kept j)
    (hlisted : ∀ x, c.listed x j → c.stage x ≠ .placed j → c'.listed x j ∨ c'.Kept j)
    (hholding : c.stage p = .holding j → c'.Kept j)
    (hplaced : c'.stage p = .placed j → c.stage p = .placed j ∨ c'.Kept j) : c'.Kept j := by
  rcases h with h | ⟨x, hx, hstage⟩ | ⟨x, hx⟩
  · exact hsafe h
  · rcases hlisted x hx hstage with hx' | hkept
    · by_cases hplaced' : c'.stage x = .placed j
      · by_cases hxp : x = p
        · subst hxp
          exact (hplaced hplaced').resolve_left hstage
        · exact absurd (hothers x hxp ▸ hplaced') hstage
      · exact .inr (.inl ⟨x, hx', hplaced'⟩)
    · exact hkept
  · by_cases hxp : x = p
    · subst hxp
      exact hholding hx
    · exact .inr (.inr ⟨x, (hothers x hxp).trans hx⟩)

/-- Process `p` changes its stage. -/
def setStage [DecidableEq P] (c : Custody P J) (p : P) (stage : Stage J) : Custody P J :=
  { c with stage := Function.update c.stage p stage }

@[simp] theorem stage_setStage_self [DecidableEq P] (c : Custody P J) (p : P) (stage : Stage J) :
    (c.setStage p stage).stage p = stage := Function.update_self ..

theorem stage_setStage_of_ne [DecidableEq P] (c : Custody P J) {p x : P} (stage : Stage J)
    (h : x ≠ p) : (c.setStage p stage).stage x = c.stage x := Function.update_of_ne h ..

/-- **One process leaves.**  A job in its hands must be written down. -/
theorem Kept.leave [DecidableEq P] (h : c.Kept j)
    (hdown : c.stage p = .holding j → c.safe j ∨ c.listed p j) : (c.setStage p .free).Kept j := by
  refine h.move (fun x hx => stage_setStage_of_ne c .free hx) .inl (fun x hx _ => .inl hx) ?_ ?_
  · intro hholding
    rcases hdown hholding with hsafe | hlisted
    · exact .inl hsafe
    · exact .inr (.inl ⟨p, hlisted, by simp⟩)
  · simp

end Custody

end Foundation
