/-
  PredictIQ.Foundation.SessionLock: a pool of sessions and a lock that sessions hold.

  A session is checked out by one process at a time; one that has ended is
  never handed out again.  The lock belongs to a session, which may take it
  several times, and falls free when the session ends.

  A process believes itself inside once it was told that its session has the
  lock.  `Tenancy` is what makes that true, and `Tenancy.unique` says that no
  two processes are inside.  Every operation keeps it, except the end of a
  session through which somebody is inside (`Tenancy.close`).
-/
import Mathlib.Data.Finset.Basic
import Mathlib.Logic.Function.Basic

namespace Foundation

/-- The sessions that are checked out, those that have ended, and the session
that holds the lock, with the number of times it has taken it. -/
structure Sessions where
  out : Finset Nat
  ended : Finset Nat
  lock : Option (Nat × Nat)
  deriving DecidableEq

namespace Sessions

/-! ## §1. Operations. -/

def checkOut (c : Sessions) (s : Nat) : Option Sessions :=
  if s ∈ c.out ∨ s ∈ c.ended then none else some { c with out := insert s c.out }

def checkIn (c : Sessions) (s : Nat) : Sessions := { c with out := c.out.erase s }

/-- The session ends, and what it holds falls free. -/
def close (c : Sessions) (s : Nat) : Sessions where
  out := c.out.erase s
  ended := insert s c.ended
  lock := c.lock.filter fun holder => holder.1 != s

def tryLock (c : Sessions) (s : Nat) : Option (Bool × Sessions) :=
  if s ∈ c.ended then none
  else match c.lock with
    | none => some (true, { c with lock := some (s, 1) })
    | some (holder, n) => if holder = s then some (true, { c with lock := some (s, n + 1) }) else some (false, c)

def unlock (c : Sessions) (s : Nat) : Option (Bool × Sessions) :=
  if s ∈ c.ended then none
  else match c.lock with
    | none => some (false, c)
    | some (holder, n) =>
        if holder = s then some (true, { c with lock := if n ≤ 1 then none else some (s, n - 1) }) else some (false, c)

end Sessions

/-! ## §2. Who is inside. -/

/-- Where a process stands: without a session, with one, or inside the lock with one. -/
inductive Seat where
  | none
  | outside (s : Nat)
  | inside (s : Nat)
  deriving DecidableEq

def Seat.session : Seat → Option Nat
  | .none => Option.none
  | .outside s | .inside s => some s

/-- The processes have sessions of their own, and who is inside has the lock. -/
structure Tenancy {P : Type} (seats : P → Seat) (c : Sessions) : Prop where
  taken : ∀ p s, (seats p).session = some s → s ∈ c.out ∨ s ∈ c.ended
  distinct : ∀ p p' s, (seats p).session = some s → (seats p').session = some s → p = p'
  holds : ∀ p s, seats p = .inside s → ∃ n, c.lock = some (s, n)

namespace Tenancy

variable {P : Type} [DecidableEq P] {seats : P → Seat} {c c' : Sessions} {p p' : P} {s s' : Nat}

omit [DecidableEq P] in
/-- **At most one process is inside.** -/
theorem unique (h : Tenancy seats c) (hp : seats p = .inside s) (hp' : seats p' = .inside s') : p = p' := by
  obtain ⟨n, hlock⟩ := h.holds p s hp
  obtain ⟨n', hlock'⟩ := h.holds p' s' hp'
  have hss : s = s' := by simpa using congrArg (Option.map Prod.fst) (hlock.symm.trans hlock')
  exact h.distinct p p' s (by rw [hp]; rfl) (by rw [hp', hss]; rfl)

omit [DecidableEq P] in
/-- Nobody has a session. -/
theorem vacant (hseats : ∀ p, seats p = .none) : Tenancy seats c where
  taken p s hs := by simp [hseats p, Seat.session] at hs
  distinct p _ s hs := by simp [hseats p, Seat.session] at hs
  holds p s hs := by simp [hseats p] at hs

/-- One process takes another seat. -/
theorem move (h : Tenancy seats c) (x : Seat) (hout : c.out ⊆ c'.out ∪ c'.ended) (hended : c.ended ⊆ c'.ended)
    (htaken : ∀ s, x.session = some s → (s ∈ c'.out ∨ s ∈ c'.ended) ∧ ∀ p', (seats p').session = some s → p' = p)
    (hholds : ∀ s, x = .inside s → ∃ n, c'.lock = some (s, n))
    (hothers : ∀ p' s, p' ≠ p → seats p' = .inside s → ∃ n, c'.lock = some (s, n)) :
    Tenancy (Function.update seats p x) c' := by
  refine ⟨fun q s hs => ?_, fun q q' s hs hs' => ?_, fun q s hs => ?_⟩
  · by_cases hq : q = p
    · simp only [hq, Function.update_self] at hs
      exact (htaken s hs).1
    · simp only [Function.update_of_ne hq] at hs
      rcases h.taken q s hs with hin | hin
      · exact Finset.mem_union.mp (hout hin)
      · exact .inr (hended hin)
  · by_cases hq : q = p <;> by_cases hq' : q' = p
    · exact hq.trans hq'.symm
    · simp only [hq, Function.update_self] at hs
      rw [Function.update_of_ne hq'] at hs'
      exact absurd ((htaken s hs).2 q' hs') hq'
    · simp only [hq', Function.update_self] at hs'
      rw [Function.update_of_ne hq] at hs
      exact absurd ((htaken s hs').2 q hs) hq
    · rw [Function.update_of_ne hq] at hs
      rw [Function.update_of_ne hq'] at hs'
      exact h.distinct q q' s hs hs'
  · by_cases hq : q = p
    · simp only [hq, Function.update_self] at hs
      exact hholds s hs
    · rw [Function.update_of_ne hq] at hs
      exact hothers q s hq hs

/-- A process leaves its seat, or steps out of the lock. -/
theorem leave (h : Tenancy seats c) (p : P) : Tenancy (Function.update seats p .none) c :=
  h.move .none Finset.subset_union_left subset_rfl (fun s hs => by cases hs) (fun s hs => by cases hs)
    fun p' s _ hs => h.holds p' s hs

theorem stepOut (h : Tenancy seats c) (hp : (seats p).session = some s) :
    Tenancy (Function.update seats p (.outside s)) c := by
  refine h.move _ Finset.subset_union_left subset_rfl (fun s' hs' => ?_) (fun s hs => by cases hs)
    fun p' s _ hs => h.holds p' s hs
  cases hs'
  exact ⟨h.taken p s hp, fun p' hp' => h.distinct p' p s hp' hp⟩

theorem checkOut (h : Tenancy seats c) (hc : c.checkOut s = some c') :
    Tenancy (Function.update seats p (.outside s)) c' := by
  unfold Sessions.checkOut at hc
  split at hc
  · cases hc
  · rename_i hfree
    cases hc
    refine h.move _ (fun s' hs' => ?_) subset_rfl (fun s' hs' => ?_) (fun s hs => by cases hs)
      fun p' s _ hs => h.holds p' s hs
    · simp [hs']
    · cases hs'
      exact ⟨.inl (Finset.mem_insert_self s c.out), fun p' hp' => absurd (h.taken p' s hp') hfree⟩

omit [DecidableEq P] in
/-- A session that was checked out for nobody. -/
theorem checkOut_lost (h : Tenancy seats c) (hc : c.checkOut s = some c') : Tenancy seats c' := by
  unfold Sessions.checkOut at hc
  split at hc
  · cases hc
  · cases hc
    refine ⟨fun p s' hs' => ?_, h.distinct, h.holds⟩
    exact (h.taken p s' hs').imp_left (Finset.mem_insert_of_mem ·)

theorem checkIn (h : Tenancy seats c) (hp : (seats p).session = some s) :
    Tenancy (Function.update seats p .none) (c.checkIn s) := by
  have hleave := h.leave p
  refine ⟨fun q s' hs' => ?_, hleave.distinct, hleave.holds⟩
  have hne : s' ≠ s := by
    rintro rfl
    by_cases hq : q = p
    · simp [hq, Seat.session] at hs'
    · rw [Function.update_of_ne hq] at hs'
      exact hq (h.distinct q p s' hs' hp)
  simpa [Sessions.checkIn, hne] using hleave.taken q s' hs'

/-! ## §3. The lock. -/

/-- What trying the lock does to the pool. -/
theorem tryLock_eq_some {b : Bool} (hc : c.tryLock s = some (b, c')) : c'.out = c.out ∧ c'.ended = c.ended
    ∧ (b = true → ∃ n, c'.lock = some (s, n)) ∧ ∀ s' n, c.lock = some (s', n) → ∃ n', c'.lock = some (s', n') := by
  unfold Sessions.tryLock at hc
  split at hc
  · cases hc
  · cases hlock : c.lock with
    | none =>
        simp only [hlock] at hc
        cases hc
        simp
    | some holder =>
        obtain ⟨holder, n⟩ := holder
        simp only [hlock] at hc
        split at hc <;> cases hc
        · rename_i hholder
          subst hholder
          simp
        · simp [hlock]

omit [DecidableEq P] in
/-- It lets nobody in who is not told so. -/
theorem tryLock (h : Tenancy seats c) {b : Bool} (hc : c.tryLock s = some (b, c')) : Tenancy seats c' := by
  obtain ⟨hout, hended, -, hkept⟩ := tryLock_eq_some hc
  refine ⟨?_, h.distinct, fun p s' hs' => ?_⟩
  · rw [hout, hended]
    exact h.taken
  · obtain ⟨n, hlock⟩ := h.holds p s' hs'
    exact hkept s' n hlock

theorem tryLock_true (h : Tenancy seats c) (hp : (seats p).session = some s) (hc : c.tryLock s = some (true, c')) :
    Tenancy (Function.update seats p (.inside s)) c' := by
  have hkept := h.tryLock hc
  refine hkept.move _ Finset.subset_union_left subset_rfl (fun s' hs' => ?_) (fun s' hs' => ?_)
    fun p' s _ hs => hkept.holds p' s hs
  · cases hs'
    exact ⟨hkept.taken p s hp, fun p' hp' => h.distinct p' p s hp' hp⟩
  · cases hs'
    exact (tryLock_eq_some hc).2.2.1 rfl

/-- Unlocking frees nothing that another session holds. -/
theorem unlock_eq_some {b : Bool} (hc : c.unlock s = some (b, c')) : c'.out = c.out ∧ c'.ended = c.ended
    ∧ ∀ s' n, s' ≠ s → c.lock = some (s', n) → c'.lock = some (s', n) := by
  unfold Sessions.unlock at hc
  split at hc
  · cases hc
  · cases hlock : c.lock with
    | none =>
        simp only [hlock] at hc
        cases hc
        simp [hlock]
    | some holder =>
        simp only [hlock] at hc
        split at hc <;> cases hc
        · rename_i hholder
          refine ⟨rfl, rfl, fun s' n hne heq => ?_⟩
          cases heq
          exact absurd hholder hne
        · exact ⟨rfl, rfl, fun s' n _ heq => hlock.trans heq⟩

theorem unlock (h : Tenancy seats c) (hp : (seats p).session = some s) {b : Bool} (hc : c.unlock s = some (b, c')) :
    Tenancy (Function.update seats p (.outside s)) c' := by
  obtain ⟨hout, hended, hkept⟩ := unlock_eq_some hc
  have hunion : c.out ⊆ c'.out ∪ c'.ended := hout ▸ Finset.subset_union_left
  refine h.move _ hunion hended.ge (fun s' hs' => ?_) (fun s hs => by cases hs) fun p' s' hne hs' => ?_
  · cases hs'
    rw [hout, hended]
    exact ⟨h.taken p s hp, fun p' hp' => h.distinct p' p s hp' hp⟩
  · obtain ⟨n, hlock⟩ := h.holds p' s' hs'
    refine ⟨n, hkept s' n ?_ hlock⟩
    rintro rfl
    exact hne (h.distinct p' p s' (by rw [hs']; rfl) hp)

omit [DecidableEq P] in
/-- **A session ends.**  Nobody may be inside through it. -/
theorem close (h : Tenancy seats c) (hs : ∀ p, seats p ≠ .inside s) : Tenancy seats (c.close s) := by
  refine ⟨fun p s' hs' => ?_, h.distinct, fun p s' hs' => ?_⟩
  · by_cases hss : s' = s
    · exact .inr (by simp [Sessions.close, hss])
    · simpa [Sessions.close, hss] using h.taken p s' hs'
  · obtain ⟨n, hlock⟩ := h.holds p s' hs'
    have hne : s' ≠ s := fun hss => hs p (hss ▸ hs')
    exact ⟨n, by simp [Sessions.close, hlock, hne]⟩

end Tenancy

end Foundation
