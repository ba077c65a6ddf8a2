/-
  PredictIQ.Safety.BreakerBookkeeping: the breaker's own functions, with all
  their writes kept.

  Here the functions of `circuit_breaker.rs` and `monitoring.rs` run one after
  another and nothing is rolled back, not even the writes of a function that
  returns an error.  Two modules write the breaker's state; only one of them
  stamps the time it opened at.  The two laws below say what the stamp is for,
  and hold exactly as long as `trackError` finds it in order.
-/
import PredictIQ.Contract.CircuitBreaker
import PredictIQ.Contract.Entrypoints

namespace PredictIQ.Contract

open Foundation Tx

/-! ## §1. The machine. -/

/-- The functions that touch the breaker. -/
inductive BreakerOp where
  | setState (state : CircuitBreakerState)
  | forcePause
  | pause
  | unpause
  | maybeRecover
  | requireClosed
  | trackError
  | resetMonitoring

def BreakerOp.body : BreakerOp → Body Unit
  | .setState state => PredictIQ.Contract.setState state
  | .forcePause => PredictIQ.Contract.forcePause
  | .pause => PredictIQ.Contract.pause
  | .unpause => PredictIQ.Contract.unpause
  | .maybeRecover => PredictIQ.Contract.maybeRecover
  | .requireClosed => PredictIQ.Contract.requireClosed
  | .trackError => PredictIQ.Contract.trackError
  | .resetMonitoring => PredictIQ.Contract.resetMonitoring

/-- The state a function sets with admin or guardian authority. -/
def BreakerOp.writes : BreakerOp → Option CircuitBreakerState
  | .setState state => some state
  | .forcePause => some .paused
  | .pause => some .paused
  | .unpause => some .closed
  | _ => none

/-- A function runs, or time passes. -/
inductive BreakerAct where
  | op (env : Env) (f : BreakerOp)
  | wait (seconds : Nat)

/-- One step; every write of the function persists. -/
def breakerStep (w : World) : BreakerAct → World
  | .op env f => (f.body env w).2
  | .wait seconds => { w with timestamp := w.timestamp + seconds }

/-- Done with admin or guardian authority. -/
def BreakerAct.byAuthority : BreakerAct → Bool
  | .op _ f => f.writes.isSome
  | .wait _ => false

/-- `unpause` or `set_state`. -/
def BreakerAct.mayUnpause : BreakerAct → Bool
  | .op _ .unpause => true
  | .op _ (.setState _) => true
  | _ => false

/-! ## §2. The two laws. -/

/-- The state became Open at time `t`, and nobody with authority changed it
since. -/
def OpenSince (history : List (Transition World BreakerAct)) (t : Nat) : Prop :=
  ∃ before x after, history = before ++ x :: after ∧ x.pre.breaker.getState ≠ .opened
    ∧ x.post.breaker.getState = .opened ∧ x.post.timestamp = t
    ∧ ∀ y ∈ after, y.act.byAuthority = true →
        y.post.breaker.getState = y.pre.breaker.getState

/-- `require_closed` lets no call through before `deadline`. -/
def RefusesUntil (w : World) (deadline : Nat) : Prop :=
  ∀ now env, w.timestamp ≤ now → now < deadline →
    ¬∃ v, requireClosed env { w with timestamp := now } = (.ok (), v)

/-- In every state of the run, a breaker that became Open refuses for a whole
cool-down; and no step leaves Paused but `unpause` and `set_state`. -/
structure Bookkept (w : World) (as : List BreakerAct) : Prop where
  refuses : ∀ bs cs, as = bs ++ cs → ∀ t, OpenSince (trace breakerStep w bs) t →
    RefusesUntil (run breakerStep w bs) (t + cooldownSeconds)
  paused : ∀ x ∈ trace breakerStep w as, x.pre.breaker.getState = .paused →
    x.act.mayUnpause = true ∨ x.post.breaker.getState = .paused

/-- Where `trackError` may open the breaker: it is open already, or it is not
Paused and was last opened no earlier than now. -/
def TripSafe (w : World) : Prop :=
  w.breaker.getState = .opened ∨ (w.breaker.getState ≠ .paused
    ∧ (2 ^ 64 ≤ w.breaker.reopenAt ∨ w.timestamp ≤ w.breaker.openedAt.getD 0))

instance (w : World) : Decidable (TripSafe w) := inferInstanceAs (Decidable (_ ∨ _))

/-- `trackError` opens the breaker in this step. -/
def Trips (x : Transition World BreakerAct) : Prop :=
  (∃ env, x.act = .op env .trackError) ∧ x.pre.breaker.Trips

/-! ## §3. What each function leaves. -/

/-- The world a function leaves behind, error or not. -/
inductive OpStep (w : World) : BreakerOp → World → Prop
  | refused (f : BreakerOp) (hf : f.writes ≠ none) : OpStep w f w
  | written (f : BreakerOp) (state : CircuitBreakerState) (evs : List Event)
      (hf : f.writes = some state) :
      OpStep w f { w with breaker := w.breaker.setState w.timestamp state, events := evs }
  | recovered (res : Except Abort Unit) (w' : World) (h : Recovered w res w') :
      OpStep w .maybeRecover w'
  | guarded (res : Except Abort Unit) (w' : World) (h : Guarded w res w') :
      OpStep w .requireClosed w'
  | tracked (res : Except Abort Unit) (w' : World) (h : Tracked w res w') :
      OpStep w .trackError w'
  | reset (evs : List Event) :
      OpStep w .resetMonitoring { w with
        breaker := { w.breaker with errorCount := some 0, lastObservation := some 0 }
        events := evs }

/-- A state change behind a check of authority. -/
theorem opStep_of_check {w : World} {env : Env} {f : BreakerOp} {state : CircuitBreakerState}
    {check : Body Unit} (hf : f.writes = some state) (hcheck : (check env w).2 = w)
    (hbody : f.body = check >>= fun _ => setStateInternal state) :
    OpStep w f (f.body env w).2 := by
  rw [hbody]
  rcases bind_after_check (f := fun _ => setStateInternal state) hcheck with h | ⟨_, h⟩
  · rw [h]
    exact .refused f (by rw [hf]; simp)
  · rw [h]
    exact .written f state _ hf

theorem breakerOp_step (env : Env) (w : World) (f : BreakerOp) :
    OpStep w f (f.body env w).2 := by
  cases f with
  | setState state => exact opStep_of_check rfl (requireAdmin_state env w) rfl
  | forcePause => exact .written _ .paused _ rfl
  | pause => exact opStep_of_check rfl (requireGuardianOrAdmin_state env w) rfl
  | unpause => exact opStep_of_check rfl (requireGuardianOrAdmin_state env w) rfl
  | maybeRecover => exact .recovered _ _ (maybeRecover_recovered env w)
  | requireClosed => exact .guarded _ _ (requireClosed_guarded env w)
  | trackError => exact .tracked _ _ (trackError_tracked env w)
  | resetMonitoring => exact .reset _

theorem OpStep.timestamp_eq {w w' : World} {f : BreakerOp} (h : OpStep w f w') :
    w'.timestamp = w.timestamp := by
  cases h with
  | recovered _ _ h => cases h <;> rfl
  | guarded _ _ h => cases h <;> rfl
  | tracked _ _ h => cases h <;> rfl
  | _ => rfl

/-! ## §4. The stamp. -/

/-- The stamp covers an opening at time `t`: it is no older, or so large that
the end of its cool-down is past the clock's range. -/
def Stamped (w : World) (t : Nat) : Prop :=
  2 ^ 64 ≤ w.breaker.reopenAt ∨ t ≤ w.breaker.openedAt.getD 0

/-- Under a stamp the cool-down does not end early. -/
theorem Stamped.cooling {w : World} {t now : Nat} (h : Stamped w t)
    (hnow : now < t + cooldownSeconds) (hsum : w.breaker.reopenAt < 2 ^ 64) :
    now < w.breaker.reopenAt := by
  rcases h with hover | hstamp
  · exact absurd hsum (not_lt.mpr hover)
  · unfold BreakerStore.reopenAt
    omega

/-- Whatever opens the breaker stamps it, `trackError` where it is safe. -/
theorem OpStep.stamps {w w' : World} {f : BreakerOp} (h : OpStep w f w')
    (hpre : w.breaker.getState ≠ .opened) (hpost : w'.breaker.getState = .opened)
    (hsafe : f = .trackError → w.breaker.Trips → TripSafe w) : Stamped w' w'.timestamp := by
  cases h with
  | refused => exact absurd hpost hpre
  | written f state evs hf =>
      obtain rfl : state = .opened := (BreakerStore.getState_setState _ _ _).symm.trans hpost
      exact Or.inr (le_refl _)
  | recovered _ _ h =>
      cases h with
      | halfOpens => cases hpost
      | _ => exact absurd hpost hpre
  | guarded _ _ h =>
      cases h with
      | recovers => cases hpost
      | retrips => exact Or.inr (le_refl _)
      | _ => exact absurd hpost hpre
  | tracked _ _ h =>
      cases h with
      | opened trips =>
          -- the state is set, the stamp is as it was
          rcases hsafe rfl trips with hopen | ⟨_, hstamp⟩
          · exact absurd hopen hpre
          · exact hstamp
      | _ => exact absurd hpost hpre
  | reset => exact absurd hpost hpre

/-- A stamped breaker stays Open through its cool-down, unless authority
changes it. -/
theorem OpStep.keeps_stamp {w w' : World} {f : BreakerOp} {t : Nat} (h : OpStep w f w')
    (hopen : w.breaker.getState = .opened) (hstamp : Stamped w t) (ht : t ≤ w.timestamp)
    (hearly : w.timestamp < t + cooldownSeconds)
    (hauth : f.writes ≠ none → w'.breaker.getState = w.breaker.getState) :
    w'.breaker.getState = .opened ∧ Stamped w' t := by
  cases h with
  | refused => exact ⟨hopen, hstamp⟩
  | written f state evs hf =>
      have hsame := hauth (by rw [hf]; simp)
      obtain rfl : state = .opened :=
        (BreakerStore.getState_setState _ _ _).symm.trans (hsame.trans hopen)
      exact ⟨rfl, Or.inr ht⟩
  | recovered _ _ h =>
      cases h with
      | halfOpens _ sum cooled => exact absurd (hstamp.cooling hearly sum) (not_lt.mpr cooled)
      | _ => exact ⟨hopen, hstamp⟩
  | guarded _ _ h =>
      cases h with
      | recovers _ sum cooled => exact absurd (hstamp.cooling hearly sum) (not_lt.mpr cooled)
      | probes state => exact absurd (hopen.symm.trans state) (by decide)
      | retrips state => exact absurd (hopen.symm.trans state) (by decide)
      | _ => exact ⟨hopen, hstamp⟩
  | tracked _ _ h =>
      cases h with
      | opened => exact ⟨rfl, hstamp⟩
      | _ => exact ⟨hopen, hstamp⟩
  | reset => exact ⟨hopen, hstamp⟩

/-! ## §5. Safe trips keep the books. -/

theorem openSince_concat {history : List (Transition World BreakerAct)}
    {x : Transition World BreakerAct} {t : Nat} (h : OpenSince (history ++ [x]) t) :
    (x.pre.breaker.getState ≠ .opened ∧ x.post.breaker.getState = .opened ∧ x.post.timestamp = t)
      ∨ (OpenSince history t
          ∧ (x.act.byAuthority = true → x.post.breaker.getState = x.pre.breaker.getState)) := by
  obtain ⟨before, y, after, heq, hpre, hpost, ht, hafter⟩ := h
  -- the opening is the last step, or it lies in the history
  rcases List.eq_nil_or_concat after with rfl | ⟨rest, z, rfl⟩
  · obtain ⟨rfl, hxy⟩ := List.append_inj' heq rfl
    obtain rfl := (List.cons.inj hxy).1
    exact Or.inl ⟨hpre, hpost, ht⟩
  · have hsplit : history ++ [x] = (before ++ y :: rest) ++ [z] := by
      rw [heq]
      simp
    obtain ⟨rfl, hxz⟩ := List.append_inj' hsplit rfl
    obtain rfl := (List.cons.inj hxz).1
    refine Or.inr ⟨⟨before, y, rest, rfl, hpre, hpost, ht, ?_⟩, hafter _ (by simp)⟩
    intro v hv
    exact hafter v (by simp [hv])

/-- An opening that authority left alone is in the past, and its cool-down is
over or covered by the stamp. -/
def OpenStamped (history : List (Transition World BreakerAct)) (w : World) : Prop :=
  ∀ t, OpenSince history t → t ≤ w.timestamp
    ∧ (t + cooldownSeconds ≤ w.timestamp ∨ (w.breaker.getState = .opened ∧ Stamped w t))

theorem OpenStamped.refuses {history : List (Transition World BreakerAct)} {w : World}
    (h : OpenStamped history w) {t : Nat} (ht : OpenSince history t) :
    RefusesUntil w (t + cooldownSeconds) := by
  intro now env hle hlt
  rw [requireClosed_passes_iff]
  obtain ⟨_, hover | ⟨hopen, hstamp⟩⟩ := h t ht
  · omega
  · show ¬w.breaker.Passes now
    unfold BreakerStore.Passes
    rw [hopen]
    intro hpass
    exact absurd (hstamp.cooling hlt hpass.1) (not_lt.mpr hpass.2)

theorem openStamped_step (history : List (Transition World BreakerAct)) (w : World)
    (a : BreakerAct) (h : OpenStamped history w)
    (hsafe : Trips ⟨w, a, breakerStep w a⟩ → TripSafe w) :
    OpenStamped (history ++ [⟨w, a, breakerStep w a⟩]) (breakerStep w a) := by
  intro t ht
  cases a with
  | wait seconds =>
      -- waiting opens nothing
      rcases openSince_concat ht with ⟨hpre, hpost, _⟩ | ⟨ht, _⟩
      · exact absurd hpost hpre
      · obtain ⟨hle, hcover⟩ := h t ht
        refine ⟨Nat.le_add_right_of_le hle, ?_⟩
        rcases hcover with hover | hcover
        · exact Or.inl (Nat.le_add_right_of_le hover)
        · exact Or.inr hcover
  | op env f =>
      have hstep := breakerOp_step env w f
      have htime := hstep.timestamp_eq
      show t ≤ (f.body env w).2.timestamp ∧ (_ ≤ (f.body env w).2.timestamp ∨ _)
      rcases openSince_concat ht with ⟨hpre, hpost, rfl⟩ | ⟨ht, hauth⟩
      · have hstamped := hstep.stamps hpre hpost fun hf htrips =>
          hsafe ⟨⟨env, by rw [hf]⟩, htrips⟩
        exact ⟨le_refl _, Or.inr ⟨hpost, hstamped⟩⟩
      · obtain ⟨hle, hcover⟩ := h t ht
        rw [htime]
        refine ⟨hle, ?_⟩
        by_cases hearly : w.timestamp < t + cooldownSeconds
        · rcases hcover with hover | ⟨hopen, hstamp⟩
          · exact absurd hearly (not_lt.mpr hover)
          · refine Or.inr (hstep.keeps_stamp hopen hstamp hle hearly ?_)
            intro hf
            exact hauth (Option.isSome_iff_ne_none.mpr hf)
        · exact Or.inl (not_lt.mp hearly)

theorem openStamped_run (w : World) (as : List BreakerAct)
    (hsafe : ∀ x ∈ trace breakerStep w as, Trips x → TripSafe x.pre) :
    OpenStamped (trace breakerStep w as) (run breakerStep w as) := by
  refine history_invariant breakerStep OpenStamped (fun x => Trips x → TripSafe x.pre) ?_ ?_ as
    hsafe
  · intro t ht
    obtain ⟨before, x, after, heq, _⟩ := ht
    cases before <;> cases heq
  · intro bs a h hx
    exact openStamped_step _ _ a h hx

/-- Only `unpause`, `set_state` and an unsafe trip end a pause. -/
theorem paused_step {w : World} {a : BreakerAct} (hpaused : w.breaker.getState = .paused)
    (hsafe : Trips ⟨w, a, breakerStep w a⟩ → TripSafe w) :
    a.mayUnpause = true ∨ (breakerStep w a).breaker.getState = .paused := by
  cases a with
  | wait seconds => exact Or.inr hpaused
  | op env f =>
      have hstep := breakerOp_step env w f
      show _ ∨ (f.body env w).2.breaker.getState = .paused
      generalize (f.body env w).2 = w' at hstep ⊢
      cases hstep with
      | refused => exact Or.inr hpaused
      | written f state evs hf =>
          cases f with
          | setState state => exact Or.inl rfl
          | unpause => exact Or.inl rfl
          | forcePause =>
              cases hf
              exact Or.inr rfl
          | pause =>
              cases hf
              exact Or.inr rfl
          | maybeRecover => cases hf
          | requireClosed => cases hf
          | trackError => cases hf
          | resetMonitoring => cases hf
      | recovered _ _ h =>
          cases h with
          | halfOpens state => exact absurd (hpaused.symm.trans state) (by decide)
          | _ => exact Or.inr hpaused
      | guarded _ _ h =>
          cases h with
          | recovers state => exact absurd (hpaused.symm.trans state) (by decide)
          | retrips state => exact absurd (hpaused.symm.trans state) (by decide)
          | _ => exact Or.inr hpaused
      | tracked _ _ h =>
          cases h with
          | opened trips =>
              rcases hsafe ⟨⟨env, rfl⟩, trips⟩ with hopen | ⟨hnot, _⟩
              · exact absurd (hpaused.symm.trans hopen) (by decide)
              · exact absurd hpaused hnot
          | _ => exact Or.inr hpaused
      | reset => exact Or.inr hpaused

/-! ## §6. Unsafe trips break them. -/

/-- What `trackError` leaves when it opens the breaker. -/
theorem trips_post {w : World} (env : Env) (htrips : w.breaker.Trips) :
    (breakerStep w (.op env .trackError)).breaker.getState = .opened
      ∧ (breakerStep w (.op env .trackError)).breaker.openedAt = w.breaker.openedAt
      ∧ (breakerStep w (.op env .trackError)).timestamp = w.timestamp := by
  have h := trackError_tracked env w
  show (trackError env w).2.breaker.getState = .opened
    ∧ (trackError env w).2.breaker.openedAt = w.breaker.openedAt
    ∧ (trackError env w).2.timestamp = w.timestamp
  generalize (trackError env w).1 = res at h
  generalize (trackError env w).2 = w' at h ⊢
  obtain ⟨hmany, hfits⟩ := htrips
  cases h with
  | overflows sum => omega
  | counted few => omega
  | opened => exact ⟨rfl, rfl, rfl⟩

/-- **Kept books mean safe trips.** -/
theorem Bookkept.trips_safe {w : World} {as : List BreakerAct} (h : Bookkept w as) :
    ∀ x ∈ trace breakerStep w as, Trips x → TripSafe x.pre := by
  intro x hx htrips
  obtain ⟨⟨env, hact⟩, htrips⟩ := htrips
  by_cases hopen : x.pre.breaker.getState = .opened
  · exact Or.inl hopen
  obtain ⟨bs, cs, has, hpre, hpost⟩ := mem_trace breakerStep hx
  rw [hact] at has hpost
  obtain ⟨hpostOpen, hstamp, htime⟩ := trips_post env htrips
  rw [← hpost] at hpostOpen hstamp htime
  refine Or.inr ⟨?_, ?_⟩
  · -- a pause ended by `trackError` is against the second law
    intro hpaused
    rcases h.paused x hx hpaused with hmay | hstays
    · rw [hact] at hmay
      cases hmay
    · exact absurd (hstays.symm.trans hpostOpen) (by decide)
  · -- an older stamp lets a call through before the cool-down is over
    by_contra hstale
    obtain ⟨hsum, hold⟩ := not_or.mp hstale
    have hlast : trace breakerStep w (bs ++ [.op env .trackError])
        = trace breakerStep w bs ++ [x] := by
      rw [trace_concat, ← hpre, ← hpost, ← hact]
    have hsince : OpenSince (trace breakerStep w (bs ++ [.op env .trackError])) x.post.timestamp := by
      rw [hlast]
      exact ⟨_, x, [], rfl, hopen, hpostOpen, rfl, fun y hy => absurd hy List.not_mem_nil⟩
    have hrun : run breakerStep w (bs ++ [.op env .trackError]) = x.post := by
      rw [run_concat, ← hpre, hpost]
    have hsplit : as = (bs ++ [.op env .trackError]) ++ cs := by
      rw [has]
      simp
    have hrefuses := h.refuses _ cs hsplit _ hsince
    rw [hrun] at hrefuses
    unfold BreakerStore.reopenAt at hsum
    refine hrefuses (max x.post.timestamp x.post.breaker.reopenAt) env (le_max_left _ _) ?_ ?_
    · have hpos : 0 < cooldownSeconds := by decide
      unfold BreakerStore.reopenAt
      rw [hstamp, htime]
      omega
    · rw [requireClosed_passes_iff]
      show x.post.breaker.Passes _
      unfold BreakerStore.Passes
      rw [hpostOpen]
      refine ⟨?_, le_max_right _ _⟩
      unfold BreakerStore.reopenAt
      rw [hstamp]
      omega

/-- **The breaker's books.**  Over every sequence of its functions, the two
laws hold exactly when every opening by `trackError` is a safe one. -/
theorem breaker_bookkept_iff (w : World) (as : List BreakerAct) :
    Bookkept w as ↔ ∀ x ∈ trace breakerStep w as, Trips x → TripSafe x.pre := by
  constructor
  · exact Bookkept.trips_safe
  · intro hsafe
    constructor
    · intro bs cs has t ht
      have hprefix : ∀ x ∈ trace breakerStep w bs, Trips x → TripSafe x.pre := by
        intro x hx
        refine hsafe x ?_
        rw [has, trace_append]
        exact List.mem_append_left _ hx
      exact (openStamped_run w bs hprefix).refuses ht
    · intro x hx hpaused
      obtain ⟨bs, cs, _, hpre, hpost⟩ := mem_trace breakerStep hx
      rw [hpost]
      refine paused_step hpaused ?_
      rw [← hpost]
      exact hsafe x hx

/-- A pause by the guardians at time 100000, and eleven errors after it. -/
def sampleErrors : List BreakerAct :=
  .op everybody .forcePause :: List.replicate 11 (.op everybody .trackError)

/-- The eleventh error opens the Paused breaker, which then lets the next call
through at once. -/
theorem sampleErrors_not_bookkept :
    (run breakerStep (genesis sampleBalances 100000 0) (sampleErrors.take 11)).breaker.getState
        = .paused
      ∧ (run breakerStep (genesis sampleBalances 100000 0) sampleErrors).breaker.getState = .opened
      ∧ (run breakerStep (genesis sampleBalances 100000 0)
          (sampleErrors ++ [.op everybody .requireClosed])).breaker.getState = .halfOpen
      ∧ ¬Bookkept (genesis sampleBalances 100000 0) sampleErrors := by
  refine ⟨by decide +kernel, by decide +kernel, by decide +kernel, ?_⟩
  intro h
  have hmem := mem_trace_append_cons breakerStep (genesis sampleBalances 100000 0)
    (sampleErrors.take 11) (.op everybody .trackError) []
  have hsafe := h.trips_safe _ hmem ⟨⟨everybody, rfl⟩, by decide +kernel⟩
  revert hsafe
  decide +kernel

end PredictIQ.Contract
