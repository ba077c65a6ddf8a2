/-
  PredictIQ.Safety.BreakerProbes: recovery of the circuit breaker over a run.

  An open breaker half-opens once its cool-down has passed, and lets five
  guarded calls through.  The sixth should trip it open again, from where it
  would recover after another cool-down.  That write comes with an error
  return and is dropped: the breaker stays HalfOpen with its five operations
  used, and refuses from then on.
-/
import PredictIQ.Contract.BreakerSteps

namespace PredictIQ.Contract

open Foundation Tx

variable {X : Externs}

/-! ## §1. Guarded calls of a run. -/

/-- A call of `cast_vote` or `file_dispute`. -/
def AsksGuard (a : Action) : Prop := ∃ env c, a = .call env c ∧ GuardedCall c

/-- `require_closed` refuses the call `a` made in `w`. -/
def GuardRefuses (w : World) (a : Action) : Prop :=
  ∃ env c e v, a = .call env c ∧ GuardedCall c ∧ requireClosed env w = (.error e, v)

/-- `require_closed` lets the call `a` made in `w` through. -/
def GuardPasses (w : World) (a : Action) : Prop :=
  ∃ env c v, a = .call env c ∧ GuardedCall c ∧ requireClosed env w = (.ok (), v)

/-- A breaker call by the admin, the guardian account or the guardians. -/
def Action.governsBreaker : Action → Bool
  | .call _ (.setCircuitBreaker _) => true
  | .call _ .pause => true
  | .call _ .unpause => true
  | .call _ (.emergencyPause _) => true
  | _ => false

/-- After a refusal at time `t`, the first guarded call from `t + 21600` on is
let through. -/
def GetsProbe (X : Externs) (w : World) (as : List Action) : Prop :=
  ∀ bs x cs y ds, as = bs ++ x :: (cs ++ y :: ds) →
    GuardRefuses (run (step X) w bs) x → AsksGuard y →
    -- no guarded call comes between the end of the wait and `y`
    (∀ es z fs, cs = es ++ z :: fs → AsksGuard z →
      (run (step X) w (bs ++ x :: es)).timestamp
        < (run (step X) w bs).timestamp + cooldownSeconds) →
    (run (step X) w bs).timestamp + cooldownSeconds
      ≤ (run (step X) w (bs ++ x :: cs)).timestamp →
    (run (step X) w (bs ++ x :: cs)).timestamp < 2 ^ 64 →
    GuardPasses (run (step X) w (bs ++ x :: cs)) y

/-- HalfOpen with the five operations used. -/
def BreakerStore.Exhausted (s : BreakerStore) : Prop :=
  s.getState = .halfOpen ∧ halfOpenMaxOps ≤ s.probesUsed

instance (s : BreakerStore) : Decidable s.Exhausted := inferInstanceAs (Decidable (_ ∧ _))

/-- Open or HalfOpen. -/
def BreakerStore.Tripped (s : BreakerStore) : Prop :=
  s.getState = .opened ∨ s.getState = .halfOpen

theorem guardPasses_iff {w : World} {a : Action} :
    GuardPasses w a ↔ AsksGuard a ∧ w.breaker.Passes w.timestamp := by
  constructor
  · intro h
    obtain ⟨env, c, v, ha, hc, hv⟩ := h
    exact ⟨⟨env, c, ha, hc⟩, requireClosed_passes_iff.mp ⟨v, hv⟩⟩
  · intro h
    obtain ⟨⟨env, c, ha, hc⟩, hpass⟩ := h
    obtain ⟨v, hv⟩ := requireClosed_passes_iff.mpr hpass
    exact ⟨env, c, v, ha, hc, hv⟩

theorem guardRefuses_iff {w : World} {a : Action} :
    GuardRefuses w a ↔ AsksGuard a ∧ ¬w.breaker.Passes w.timestamp := by
  constructor
  · intro h
    obtain ⟨env, c, e, v, ha, hc, hv⟩ := h
    refine ⟨⟨env, c, ha, hc⟩, ?_⟩
    intro hpass
    obtain ⟨v', hv'⟩ := requireClosed_passes_iff.mpr hpass
    rw [hv] at hv'
    cases hv'
  · intro h
    obtain ⟨⟨env, c, ha, hc⟩, hpass⟩ := h
    rcases hx : requireClosed env w with ⟨e | _, v⟩
    · exact ⟨env, c, e, v, ha, hc, hx⟩
    · exact absurd (requireClosed_passes_iff.mp ⟨v, hx⟩) hpass

theorem BreakerStore.Exhausted.not_passes {s : BreakerStore} (h : s.Exhausted) (now : Nat) :
    ¬s.Passes now := by
  unfold BreakerStore.Passes
  rw [h.1]
  exact not_lt.mpr h.2

theorem BreakerStore.Exhausted.refuses {w : World} (h : w.breaker.Exhausted) (a : Action) :
    ¬GuardPasses w a := by
  intro hpass
  exact h.not_passes _ (guardPasses_iff.mp hpass).2

theorem BreakerStore.Exhausted.guardRefuses {w : World} {a : Action} (h : w.breaker.Exhausted)
    (ha : AsksGuard a) : GuardRefuses w a :=
  guardRefuses_iff.mpr ⟨ha, h.not_passes _⟩

/-! ## §2. The breaker along a run without breaker calls. -/

/-- A breaker never opened in the future. -/
theorem Reachable.openedAt_le {w : World} (h : Reachable X w) :
    w.breaker.openedAt.getD 0 ≤ w.timestamp := by
  obtain ⟨b, t, s, as, rfl⟩ := h
  refine run_invariant_of (step X) (fun v => v.breaker.openedAt.getD 0 ≤ v.timestamp)
    (fun _ => True) (s := genesis b t s) (Nat.zero_le t) ?_ as fun _ _ => trivial
  intro v a hv _
  cases a with
  | advance seconds ledgers => exact Nat.le_trans hv (Nat.le_add_right _ _)
  | external balances => exact hv
  | call env c =>
      rw [step_call_timestamp]
      rcases step_breaker X v (.call env c) with hsame | ⟨_, _, _, _, hstep⟩
      · rw [hsame]
        exact hv
      · generalize (step X v (.call env c)).breaker = br at hstep ⊢
        cases hstep with
        | set state => cases state <;> first | exact hv | exact le_refl _
        | guarded _ _ _ pass => cases pass <;> exact hv
        | _ => exact hv

/-- Without breaker calls a tripped breaker stays Open or HalfOpen, and the
time it opened at is not written. -/
theorem tripped_step {w : World} {a : Action} (h : w.breaker.Tripped)
    (ha : a.governsBreaker = false) :
    (step X w a).breaker.Tripped ∧ (step X w a).breaker.openedAt = w.breaker.openedAt := by
  rcases step_breaker X w a with hsame | ⟨env, c, rfl, _, hstep⟩
  · rw [hsame]
    exact ⟨h, rfl⟩
  · generalize (step X w (.call env c)).breaker = br at hstep ⊢
    cases hstep with
    | set => cases ha
    | paused => cases ha
    | unpaused => cases ha
    | emergency => cases ha
    | guarded _ _ _ pass =>
        cases pass with
        | closed => exact ⟨h, rfl⟩
        | recovers => exact ⟨Or.inr rfl, rfl⟩
        | probes => exact ⟨h, rfl⟩
    | _ => exact ⟨h, rfl⟩

theorem tripped_run {w : World} {as : List Action} (h : w.breaker.Tripped)
    (quiet : ∀ a ∈ as, a.governsBreaker = false) :
    (run (step X) w as).breaker.Tripped
      ∧ (run (step X) w as).breaker.openedAt = w.breaker.openedAt := by
  induction as generalizing w with
  | nil => exact ⟨h, rfl⟩
  | cons a as ih =>
      obtain ⟨hstep, hopened⟩ := tripped_step (X := X) h (quiet a List.mem_cons_self)
      obtain ⟨hrun, hopened'⟩ := ih hstep fun b hb => quiet b (List.mem_cons_of_mem a hb)
      exact ⟨hrun, hopened'.trans hopened⟩

/-- Once the five operations are used, only a breaker call changes that. -/
theorem exhausted_step {w : World} {a : Action} (h : w.breaker.Exhausted)
    (ha : a.governsBreaker = false) : (step X w a).breaker.Exhausted := by
  rcases step_breaker X w a with hsame | ⟨env, c, rfl, _, hstep⟩
  · rw [hsame]
    exact h
  · generalize (step X w (.call env c)).breaker = br at hstep ⊢
    cases hstep with
    | set => cases ha
    | paused => cases ha
    | unpaused => cases ha
    | emergency => cases ha
    | guarded _ v hc pass =>
        exact absurd (guardPasses_iff.mpr ⟨⟨env, c, rfl, hc⟩, pass.passes⟩) (h.refuses _)
    | _ => exact h

theorem exhausted_run {w : World} {as : List Action} (h : w.breaker.Exhausted)
    (quiet : ∀ a ∈ as, a.governsBreaker = false) :
    (run (step X) w as).breaker.Exhausted := by
  induction as generalizing w with
  | nil => exact h
  | cons a as ih =>
      have hstep := exhausted_step (X := X) h (quiet a List.mem_cons_self)
      exact ih hstep fun b hb => quiet b (List.mem_cons_of_mem a hb)

/-- A tripped breaker whose cool-down is over lets a call through, unless its
operations are used. -/
theorem BreakerStore.Tripped.passes {s : BreakerStore} {now : Nat} (h : s.Tripped)
    (hnow : now < 2 ^ 64) (hcooled : s.reopenAt ≤ now) (hleft : ¬s.Exhausted) : s.Passes now := by
  unfold BreakerStore.Passes
  rcases h with hs | hs
  · rw [hs]
    exact ⟨lt_of_le_of_lt hcooled hnow, hcooled⟩
  · rw [hs]
    exact not_le.mp fun hused => hleft ⟨hs, hused⟩

/-! ## §3. Probes. -/

/-- **The breaker recovers unless its operations ran out.**  In a run without
breaker calls, a refused call is followed by a probe one cool-down later, as
long as no guarded call meets a HalfOpen breaker with its five operations
used.  From such a state on every guarded call is refused. -/
theorem half_open_probe {w : World} (hreach : Reachable X w) (htripped : w.breaker.Tripped)
    (as : List Action) (quiet : ∀ a ∈ as, a.governsBreaker = false) :
    ((∀ t ∈ trace (step X) w as, AsksGuard t.act → ¬t.pre.breaker.Exhausted) → GetsProbe X w as)
      ∧ ∀ bs cs y ds, as = bs ++ (cs ++ y :: ds) → (run (step X) w bs).breaker.Exhausted →
          ¬GuardPasses (run (step X) w (bs ++ cs)) y := by
  constructor
  · intro hleft
    unfold GetsProbe
    intro bs x cs y ds has _ hy _ hwait hfits
    -- `y` finds the breaker as tripped as it was, opened when it was opened in `w`
    have hquiet : ∀ a ∈ bs ++ x :: cs, a.governsBreaker = false := by
      intro a ha
      refine quiet a ?_
      rw [has]
      simp only [List.mem_append, List.mem_cons] at ha ⊢
      tauto
    obtain ⟨htrip, hopened⟩ := tripped_run (X := X) htripped hquiet
    have hleft' : ¬(run (step X) w (bs ++ x :: cs)).breaker.Exhausted := by
      have hmem := mem_trace_append_cons (step X) w (bs ++ x :: cs) y ds
      have hsplit : (bs ++ x :: cs) ++ y :: ds = as := by
        rw [has]
        simp
      rw [hsplit] at hmem
      exact hleft _ hmem hy
    have hcooled : (run (step X) w (bs ++ x :: cs)).breaker.reopenAt
        ≤ (run (step X) w (bs ++ x :: cs)).timestamp := by
      unfold BreakerStore.reopenAt
      rw [hopened]
      calc w.breaker.openedAt.getD 0 + cooldownSeconds
          ≤ w.timestamp + cooldownSeconds := Nat.add_le_add_right hreach.openedAt_le _
        _ ≤ (run (step X) w bs).timestamp + cooldownSeconds :=
            Nat.add_le_add_right (run_timestamp_le X w bs) _
        _ ≤ _ := hwait
    exact guardPasses_iff.mpr ⟨hy, htrip.passes hfits hcooled hleft'⟩
  · intro bs cs y ds has hex
    have hquiet : ∀ a ∈ cs, a.governsBreaker = false := by
      intro a ha
      refine quiet a ?_
      rw [has]
      simp only [List.mem_append, List.mem_cons]
      tauto
    rw [run_append]
    exact (exhausted_run hex hquiet).refuses y

/-! ## §4. A breaker that stays shut. -/

/-- Six markets whose answers are in, and a breaker the admin half-opened. -/
def sampleHalfOpened : List Action :=
  .call everybody (.initializeContract ⟨1⟩ 0)
    :: List.replicate 6 (.call everybody (.createMarket (sampleMarket ⟨2⟩ ⟨10⟩)))
    ++ .advance 200000 0
    :: (List.range 6).map (fun i => .call everybody (.setOracleResult (i + 1) 0 0))
    ++ (List.range 6).map (fun i => .call everybody (.attemptOracleResolution (i + 1)))
    ++ [.call everybody (.setCircuitBreaker .halfOpen)]

/-- A dispute filed against market `id`. -/
def sampleGuardedCall (id : Nat) : Action := .call everybody (.fileDispute ⟨4⟩ id)

/-- Five probes. -/
def sampleProbes : List Action := (List.range 5).map fun i => sampleGuardedCall (i + 1)

theorem sampleGuardedCall_asks (id : Nat) : AsksGuard (sampleGuardedCall id) :=
  ⟨everybody, .fileDispute ⟨4⟩ id, rfl, .fileDispute ⟨4⟩ id⟩

/-- Opened by the admin: refused, and let through six hours later. -/
theorem half_open_probe_sample : GetsProbe sampleExterns
    (sampleRun (sampleHalfOpened ++ [.call everybody (.setCircuitBreaker .opened)]))
    [sampleGuardedCall 6, .advance cooldownSeconds 0, sampleGuardedCall 6] :=
  (half_open_probe (sampleRun_reachable _) (Or.inl (by decide +kernel)) _
    (by decide +kernel)).1 fun t ht _ =>
      (by decide +kernel : ∀ t ∈ trace (step sampleExterns)
        (sampleRun (sampleHalfOpened ++ [.call everybody (.setCircuitBreaker .opened)]))
        [sampleGuardedCall 6, .advance cooldownSeconds 0, sampleGuardedCall 6],
        ¬t.pre.breaker.Exhausted) t ht

/-- The sixth operation is refused, and so is the next one six hours later. -/
theorem sampleProbes_stay_shut :
    (sampleRun sampleHalfOpened).breaker.getState = .halfOpen
      ∧ ¬GetsProbe sampleExterns (sampleRun sampleHalfOpened)
          (sampleProbes ++ sampleGuardedCall 6
            :: ([.advance cooldownSeconds 0] ++ sampleGuardedCall 6 :: [])) := by
  refine ⟨by decide +kernel, ?_⟩
  intro hprobe
  have hused : (run (step sampleExterns) (sampleRun sampleHalfOpened) sampleProbes).breaker.Exhausted
    := by decide +kernel
  have hused' : (run (step sampleExterns) (sampleRun sampleHalfOpened)
      (sampleProbes ++ sampleGuardedCall 6 :: [.advance cooldownSeconds 0])).breaker.Exhausted := by
    decide +kernel
  refine hused'.refuses (sampleGuardedCall 6) (hprobe sampleProbes (sampleGuardedCall 6)
    [.advance cooldownSeconds 0] (sampleGuardedCall 6) [] rfl
    (hused.guardRefuses (sampleGuardedCall_asks 6)) (sampleGuardedCall_asks 6) ?_ ?_ ?_)
  · -- waiting is no call
    intro es z fs hz hasks
    have hmem : z ∈ [Action.advance cooldownSeconds 0] := by
      rw [hz]
      exact List.mem_append_right _ List.mem_cons_self
    obtain ⟨env, c, hcall, _⟩ := hasks
    rw [List.mem_singleton.mp hmem] at hcall
    cases hcall
  · decide +kernel
  · decide +kernel

end PredictIQ.Contract
