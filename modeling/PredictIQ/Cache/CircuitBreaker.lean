/-
  PredictIQ.Cache.CircuitBreaker: the states of the cache's circuit breaker.

  `CircuitBreaker` is the breaker under calls one after another; the programs
  of `RedisCache` do the same to the two atomics.  `Openings` says when the
  circuit ought to have been opened last.  `record_failure` opens it only when
  `opened_at_ms` is zero, so that a failed probe does not open it again.
-/
import PredictIQ.Cache.RedisCache
import PredictIQ.Foundation.Solo

namespace PredictIQ.Cache

open Foundation

/-! ## §1. The breaker. -/

/-- A length of time. -/
structure Duration where
  nanos : Nat
  deriving DecidableEq, Repr

namespace Duration

def asMillis (d : Duration) : Nat := d.nanos / 1000000

/-- `as_millis() as u64`. -/
def asMillisU64 (d : Duration) : Nat := d.asMillis % 2 ^ 64

def ofSecs (n : Nat) : Duration := ⟨n * 1000000000⟩

/-- Nothing is lost when the duration is counted in milliseconds. -/
def Exact (d : Duration) : Prop := d.asMillisU64 * 1000000 = d.nanos

instance (d : Duration) : Decidable d.Exact := inferInstanceAs (Decidable (_ = _))

theorem asMillisU64_le (d : Duration) : d.asMillisU64 * 1000000 ≤ d.nanos :=
  Nat.le_trans (Nat.mul_le_mul_right _ (Nat.mod_le _ _)) (Nat.div_mul_le_self _ _)

end Duration

structure CircuitBreaker where
  failureCount : UInt32
  openedAtMs : Nat
  threshold : UInt32
  resetTimeout : Duration

namespace CircuitBreaker

def new (threshold : UInt32) (resetTimeout : Duration) : CircuitBreaker :=
  ⟨0, 0, threshold, resetTimeout⟩

variable (cb : CircuitBreaker) (nowMs : Nat)

def state : CircuitState :=
  if cb.openedAtMs = 0 then .closed
  else if cb.resetTimeout.asMillisU64 ≤ nowMs - cb.openedAtMs then .halfOpen
  else .opened

def recordSuccess : CircuitBreaker := { cb with failureCount := 0, openedAtMs := 0 }

def recordFailure : CircuitBreaker :=
  if cb.threshold ≤ cb.failureCount + 1 ∧ cb.openedAtMs = 0 then
    { cb with failureCount := cb.failureCount + 1, openedAtMs := nowMs }
  else { cb with failureCount := cb.failureCount + 1 }

def allow : Bool :=
  match cb.state nowMs with
  | .closed | .halfOpen => true
  | .opened => false

theorem allow_eq_false_iff : cb.allow nowMs = false ↔ cb.state nowMs = .opened := by
  unfold allow
  cases cb.state nowMs <;> simp

/-! ## §2. The programs of the cache do the same. -/

/-- The atomics of a backend, under the settings of a cache, are this breaker's. -/
structure Held {W : Setting} (cfg : RedisCacheConfig) (b : Backend W) : Prop where
  threshold : cfg.cbThreshold = cb.threshold
  resetTimeout : cfg.cbResetTimeoutMs = cb.resetTimeout.asMillisU64
  failureCount : b.failureCount = cb.failureCount
  openedAtMs : b.openedAtMs = cb.openedAtMs

variable {W : Setting} {cfg : RedisCacheConfig} {b t : Backend W} {cb : CircuitBreaker}

theorem Held.state_eq (h : cb.Held cfg b) (nowMs : Nat) :
    cfg.state b.openedAtMs nowMs = cb.state nowMs := by
  unfold RedisCacheConfig.state CircuitBreaker.state
  rw [h.openedAtMs, h.resetTimeout]

/-- `recordSuccess` leaves the breaker of `record_success`. -/
theorem Held.recordSuccess (h : cb.Held cfg b)
    (hret : (RedisCacheConfig.recordSuccess : CacheM W Unit).Returns (server W) b () t) :
    cb.recordSuccess.Held cfg t := by
  obtain ⟨_, u, hcount, hopened⟩ := Prog.returns_bind.mp hret
  obtain ⟨_, hcount⟩ := Prog.returns_call.mp hcount
  obtain ⟨_, hopened⟩ := Prog.returns_call.mp hopened
  obtain ⟨_, rfl⟩ := Prod.mk.inj (Option.some.inj hcount)
  obtain ⟨_, rfl⟩ := Prod.mk.inj (Option.some.inj hopened)
  exact ⟨h.threshold, h.resetTimeout, rfl, rfl⟩

/-- `recordFailure` leaves the breaker of `record_failure` at the time of the backend. -/
theorem Held.recordFailure (h : cb.Held cfg b)
    (hret : (cfg.recordFailure : CacheM W Unit).Returns (server W) b () t) :
    (cb.recordFailure b.nowMs).Held cfg t := by
  obtain ⟨prev, u, hcount, hrest⟩ := Prog.returns_bind.mp hret
  obtain ⟨_, hcount⟩ := Prog.returns_call.mp hcount
  obtain ⟨rfl, rfl⟩ := Prod.mk.inj (Option.some.inj hcount)
  unfold CircuitBreaker.recordFailure
  rw [← h.threshold, ← h.failureCount, ← h.openedAtMs]
  by_cases hthr : cfg.cbThreshold ≤ b.failureCount + 1
  · rw [if_pos hthr] at hrest
    obtain ⟨openedAt, u, hload, hrest⟩ := Prog.returns_bind.mp hrest
    obtain ⟨_, hload⟩ := Prog.returns_call.mp hload
    obtain ⟨rfl, rfl⟩ := Prod.mk.inj (Option.some.inj hload)
    -- the time is stored only where none is
    by_cases hzero : b.openedAtMs = 0
    · rw [if_pos hzero] at hrest
      obtain ⟨now, u, hclock, hstore⟩ := Prog.returns_bind.mp hrest
      obtain ⟨_, hclock⟩ := Prog.returns_call.mp hclock
      obtain ⟨_, hstore⟩ := Prog.returns_call.mp hstore
      obtain ⟨rfl, rfl⟩ := Prod.mk.inj (Option.some.inj hclock)
      obtain ⟨_, rfl⟩ := Prod.mk.inj (Option.some.inj hstore)
      rw [if_pos ⟨hthr, hzero⟩]
      exact ⟨rfl, h.resetTimeout, rfl, rfl⟩
    · rw [if_neg hzero] at hrest
      obtain ⟨_, rfl⟩ := hrest
      rw [if_neg fun hboth => hzero hboth.2]
      exact ⟨rfl, h.resetTimeout, rfl, rfl⟩
  · rw [if_neg hthr] at hrest
    obtain ⟨_, rfl⟩ := hrest
    rw [if_neg fun hboth => hthr hboth.1]
    exact ⟨rfl, h.resetTimeout, rfl, rfl⟩

/-- `allow` answers what `CircuitBreaker::allow` does, and writes nothing. -/
theorem Held.allow (h : cb.Held cfg b) {a : Bool}
    (hret : (cfg.allow : CacheM W Bool).Returns (server W) b a t) :
    a = cb.allow b.nowMs ∧ t = b := by
  obtain ⟨openedAt, u, hload, hrest⟩ := Prog.returns_bind.mp hret
  obtain ⟨_, hload⟩ := Prog.returns_call.mp hload
  obtain ⟨rfl, rfl⟩ := Prod.mk.inj (Option.some.inj hload)
  have hstate := h.state_eq b.nowMs
  by_cases hzero : b.openedAtMs = 0
  · rw [if_pos hzero] at hrest
    obtain ⟨rfl, rfl⟩ := hrest
    rw [RedisCacheConfig.state, if_pos hzero] at hstate
    refine ⟨?_, rfl⟩
    rw [CircuitBreaker.allow, ← hstate]
  · rw [if_neg hzero] at hrest
    obtain ⟨now, u, hclock, hdone⟩ := Prog.returns_bind.mp hrest
    obtain ⟨_, hclock⟩ := Prog.returns_call.mp hclock
    obtain ⟨rfl, rfl⟩ := Prod.mk.inj (Option.some.inj hclock)
    obtain ⟨rfl, rfl⟩ := hdone
    refine ⟨?_, rfl⟩
    rw [CircuitBreaker.allow, hstate]
    cases cb.state b.nowMs <;> rfl

end CircuitBreaker

/-! ## §3. Calls, and when the circuit ought to have been opened. -/

inductive BreakerCall where
  | recordSuccess | recordFailure | allow
  deriving DecidableEq, Repr

/-- A call, and what the clock read then. -/
structure TimedCall where
  atMs : Nat
  call : BreakerCall

/-- The clock is after the epoch, and does not go back. -/
structure Readings (calls : List TimedCall) : Prop where
  ordered : calls.Pairwise fun c d => c.atMs ≤ d.atMs
  positive : ∀ c ∈ calls, 0 < c.atMs

theorem Readings.of_prefix {calls past : List TimedCall} (h : Readings calls) (hp : past <+: calls) :
    Readings past :=
  ⟨h.ordered.sublist hp.sublist, fun c hc => h.positive c (hp.subset hc)⟩

/-- What one call does to the breaker. -/
def CircuitBreaker.step (cb : CircuitBreaker) (c : TimedCall) : CircuitBreaker :=
  match c.call with
  | .recordSuccess => cb.recordSuccess
  | .recordFailure => cb.recordFailure c.atMs
  | .allow => cb

/-- Since the last success: the failures that were recorded, and the latest opening. -/
structure Openings where
  failures : Nat := 0
  latest : Option Nat := none

namespace Openings

variable (threshold : UInt32) (resetTimeout : Duration)

/-- Closed without an opening, open for `resetTimeout` from the latest, half-open after that. -/
def state (o : Openings) (nowMs : Nat) : CircuitState :=
  match o.latest with
  | none => .closed
  | some openedAt => if (nowMs - openedAt) * 1000000 < resetTimeout.nanos then .opened else .halfOpen

/-- The failure that reaches the threshold opens the circuit, and so does one while it is half-open. -/
def step (o : Openings) (c : TimedCall) : Openings :=
  match c.call with
  | .recordSuccess => {}
  | .recordFailure =>
      if o.failures + 1 = threshold.toNat ∨ o.state resetTimeout c.atMs = .halfOpen then
        ⟨o.failures + 1, some c.atMs⟩
      else ⟨o.failures + 1, o.latest⟩
  | .allow => o

theorem state_eq_closed_iff {o : Openings} {nowMs : Nat} :
    o.state resetTimeout nowMs = .closed ↔ o.latest = none := by
  unfold state
  cases o.latest with
  | none => simp
  | some openedAt =>
      simp only [reduceCtorEq, iff_false]
      split <;> simp

end Openings

/-! ## §4. What holds along every sequence of calls. -/

section Calls

variable (threshold : UInt32) (resetTimeout : Duration)

/-- The breaker after calls. -/
def breakerAfter (calls : List TimedCall) : CircuitBreaker :=
  run CircuitBreaker.step (.new threshold resetTimeout) calls

/-- The openings after calls. -/
def openingsAfter (calls : List TimedCall) : Openings :=
  run (Openings.step threshold resetTimeout) {} calls

theorem breakerAfter_concat (past : List TimedCall) (c : TimedCall) :
    breakerAfter threshold resetTimeout (past ++ [c])
      = (breakerAfter threshold resetTimeout past).step c :=
  run_concat CircuitBreaker.step (.new threshold resetTimeout) past c

theorem openingsAfter_concat (past : List TimedCall) (c : TimedCall) :
    openingsAfter threshold resetTimeout (past ++ [c])
      = (openingsAfter threshold resetTimeout past).step threshold resetTimeout c :=
  run_concat (Openings.step threshold resetTimeout) {} past c

/-- The breaker is open since an opening exactly when there was one, and until
then it counts the failures. -/
structure Tracks (cb : CircuitBreaker) (o : Openings) : Prop where
  threshold_eq : cb.threshold = threshold
  resetTimeout_eq : cb.resetTimeout = resetTimeout
  opened : cb.openedAtMs = 0 ↔ o.latest = none
  reached : o.latest = none ↔ o.failures < threshold.toNat
  counted : o.latest = none → cb.failureCount.toNat = o.failures

variable {threshold resetTimeout} {cb : CircuitBreaker} {o : Openings}

/-- Before an opening, a failure opens the breaker at the threshold. -/
theorem Tracks.recordFailure_of_none (h : Tracks threshold resetTimeout cb o)
    (hnone : o.latest = none) (nowMs : Nat) :
    cb.recordFailure nowMs = if o.failures + 1 = threshold.toNat
      then { cb with failureCount := cb.failureCount + 1, openedAtMs := nowMs }
      else { cb with failureCount := cb.failureCount + 1 } := by
  have hlt := h.reached.mp hnone
  have hcount := h.counted hnone
  have hbound := threshold.toNat_lt
  have hiff : cb.threshold ≤ cb.failureCount + 1 ∧ cb.openedAtMs = 0
      ↔ o.failures + 1 = threshold.toNat := by
    rw [h.threshold_eq, h.opened, UInt32.le_iff_toNat_le, UInt32.toNat_add, hcount]
    -- the threshold is a `u32` not yet reached, so the count does not wrap
    have hone : UInt32.toNat 1 = 1 := rfl
    rw [hone, Nat.mod_eq_of_lt (by omega)]
    simp only [hnone, and_true]
    omega
  unfold CircuitBreaker.recordFailure
  simp only [hiff]

/-- After one, a failure only counts. -/
theorem Tracks.recordFailure_of_some (h : Tracks threshold resetTimeout cb o)
    (hsome : o.latest ≠ none) (nowMs : Nat) :
    cb.recordFailure nowMs = { cb with failureCount := cb.failureCount + 1 } := by
  unfold CircuitBreaker.recordFailure
  exact if_neg fun hboth => hsome (h.opened.mp hboth.2)

/-- What a failure does to the openings, while there is none. -/
theorem Openings.step_failure_of_none (hnone : o.latest = none) {nowMs : Nat} :
    o.step threshold resetTimeout ⟨nowMs, .recordFailure⟩
      = ⟨o.failures + 1, if o.failures + 1 = threshold.toNat then some nowMs else none⟩ := by
  have hstate : o.state resetTimeout nowMs ≠ .halfOpen := by
    rw [(Openings.state_eq_closed_iff resetTimeout).mpr hnone]
    simp
  simp only [Openings.step, hstate, or_false, hnone]
  split <;> rfl

/-- A failure while half-open is an opening. -/
theorem Openings.step_failure_of_halfOpen {nowMs : Nat}
    (hhalf : o.state resetTimeout nowMs = .halfOpen) :
    o.step threshold resetTimeout ⟨nowMs, .recordFailure⟩ = ⟨o.failures + 1, some nowMs⟩ :=
  if_pos (.inr hhalf)

/-- A circuit is open when it has just been opened. -/
theorem Openings.state_latest_self (hpos : 0 < resetTimeout.nanos) (failures nowMs : Nat) :
    (⟨failures, some nowMs⟩ : Openings).state resetTimeout nowMs = .opened := by
  simp [Openings.state, hpos]

variable (threshold resetTimeout) in
/-- A failure does not undo an opening. -/
theorem Openings.step_failure_of_some (hsome : o.latest ≠ none) (nowMs : Nat) :
    (o.step threshold resetTimeout ⟨nowMs, .recordFailure⟩).latest ≠ none
      ∧ (o.step threshold resetTimeout ⟨nowMs, .recordFailure⟩).failures = o.failures + 1 := by
  simp only [Openings.step]
  split
  · exact ⟨Option.some_ne_none _, rfl⟩
  · exact ⟨hsome, rfl⟩

theorem Tracks.step (h : Tracks threshold resetTimeout cb o) (hthr : 1 ≤ threshold) {c : TimedCall}
    (hpos : 0 < c.atMs) :
    Tracks threshold resetTimeout (cb.step c) (o.step threshold resetTimeout c) := by
  obtain ⟨nowMs, call⟩ := c
  cases call with
  | recordSuccess =>
      have hone : 1 ≤ threshold.toNat := UInt32.le_iff_toNat_le.mp hthr
      exact ⟨h.threshold_eq, h.resetTimeout_eq, by simp [CircuitBreaker.step,
        CircuitBreaker.recordSuccess, Openings.step], by simp only [Openings.step, true_iff]; omega,
        fun _ => rfl⟩
  | allow => exact h
  | recordFailure =>
      by_cases hnone : o.latest = none
      · have hlt := h.reached.mp hnone
        have hcount := h.counted hnone
        have hopened := h.opened.mpr hnone
        -- the count stays below the threshold while closed, so that it cannot wrap
        have hbound := threshold.toNat_lt
        have hnext : (cb.failureCount + 1).toNat = o.failures + 1 := by
          have hone : UInt32.toNat 1 = 1 := rfl
          rw [UInt32.toNat_add, hcount, hone, Nat.mod_eq_of_lt (by omega)]
        have hcb := h.recordFailure_of_none hnone nowMs
        rw [Openings.step_failure_of_none hnone]
        show Tracks _ _ (cb.recordFailure nowMs) _
        rw [hcb]
        by_cases hat : o.failures + 1 = threshold.toNat
        · rw [if_pos hat, if_pos hat]
          have hpos' : nowMs ≠ 0 := Nat.ne_of_gt hpos
          exact ⟨h.threshold_eq, h.resetTimeout_eq, by simp [hpos'], by simp; omega, by simp⟩
        · rw [if_neg hat, if_neg hat]
          exact ⟨h.threshold_eq, h.resetTimeout_eq, by simp [hopened], by simp; omega,
            fun _ => hnext⟩
      · obtain ⟨hsome, hfail⟩ := Openings.step_failure_of_some threshold resetTimeout hnone nowMs
        -- open already: the count goes on, and the first time stays
        have hge := mt h.reached.mpr hnone
        show Tracks _ _ (cb.recordFailure nowMs) _
        rw [h.recordFailure_of_some hnone nowMs]
        refine ⟨h.threshold_eq, h.resetTimeout_eq, ?_, ?_, fun habs => absurd habs hsome⟩
        · exact iff_of_false (mt h.opened.mp hnone) hsome
        · rw [hfail]
          exact iff_of_false hsome (by omega)

variable (resetTimeout) in
/-- **The breaker tracks the openings**, along every sequence of calls. -/
theorem tracks_after (hthr : 1 ≤ threshold) {calls : List TimedCall} (h : Readings calls) :
    Tracks threshold resetTimeout (breakerAfter threshold resetTimeout calls)
      (openingsAfter threshold resetTimeout calls) := by
  induction calls using List.reverseRecOn with
  | nil =>
      have hone : 1 ≤ threshold.toNat := UInt32.le_iff_toNat_le.mp hthr
      exact ⟨rfl, rfl, by simp [breakerAfter, openingsAfter, run, CircuitBreaker.new],
        by simp only [openingsAfter, run, List.foldl_nil, true_iff]; omega, fun _ => rfl⟩
  | append_singleton past c ih =>
      have hpast := ih (h.of_prefix (List.prefix_append _ _))
      rw [breakerAfter_concat, openingsAfter_concat]
      exact hpast.step hthr (h.positive c (by simp))

/-! ## §5. When the state is the one that the openings give. -/

variable (threshold resetTimeout)

/-- After each call, and until the next, the state is the one that the openings
give, and calls are turned down exactly while it is open. -/
def StatesAsOpened (calls : List TimedCall) : Prop :=
  ∀ past, past <+: calls → ∀ nowMs, (∀ c ∈ past, c.atMs ≤ nowMs) →
    (breakerAfter threshold resetTimeout past).state nowMs
        = (openingsAfter threshold resetTimeout past).state resetTimeout nowMs
      ∧ ((breakerAfter threshold resetTimeout past).allow nowMs = false
          ↔ (openingsAfter threshold resetTimeout past).state resetTimeout nowMs = .opened)

/-- No failure is recorded by a breaker that is half-open. -/
def NoFailureWhileHalfOpen (calls : List TimedCall) : Prop :=
  ∀ past nowMs, past ++ [⟨nowMs, .recordFailure⟩] <+: calls →
    (breakerAfter threshold resetTimeout past).state nowMs ≠ .halfOpen

/-- There are never as many failures in a row as the threshold. -/
def NeverReached (calls : List TimedCall) : Prop :=
  ∀ past, past <+: calls → (openingsAfter threshold resetTimeout past).failures < threshold.toNat

variable {threshold resetTimeout} {calls past : List TimedCall}

/-- With the time of the latest opening in the breaker, the states are the same. -/
theorem Tracks.state_eq (h : Tracks threshold resetTimeout cb o) (hexact : resetTimeout.Exact)
    (hat : ∀ openedAt, o.latest = some openedAt →
      cb.openedAtMs = openedAt ∨ resetTimeout.nanos = 0) (nowMs : Nat) :
    cb.state nowMs = o.state resetTimeout nowMs := by
  unfold CircuitBreaker.state Openings.state
  rw [h.resetTimeout_eq]
  cases hlatest : o.latest with
  | none => simp [h.opened.mpr hlatest]
  | some openedAt =>
      have hne : cb.openedAtMs ≠ 0 := fun hzero => by
        rw [h.opened.mp hzero] at hlatest
        cases hlatest
      have hnanos : resetTimeout.asMillisU64 * 1000000 = resetTimeout.nanos := hexact
      simp only [if_neg hne]
      obtain hat | hzero := hat openedAt hlatest
      · rw [hat]
        by_cases hle : resetTimeout.asMillisU64 ≤ nowMs - openedAt
        · rw [if_pos hle, if_neg (by omega)]
        · rw [if_neg hle, if_pos (by omega)]
      · rw [if_pos (by omega), if_neg (by omega)]

/-- Where no failure is recorded while half-open, the breaker holds the time of
the latest opening. -/
theorem openedAtMs_eq (hthr : 1 ≤ threshold) (hexact : resetTimeout.Exact)
    (h : Readings calls) (hcond : NoFailureWhileHalfOpen threshold resetTimeout calls) :
    ∀ openedAt, (openingsAfter threshold resetTimeout calls).latest = some openedAt →
      (breakerAfter threshold resetTimeout calls).openedAtMs = openedAt := by
  induction calls using List.reverseRecOn with
  | nil => intro openedAt hlatest; cases hlatest
  | append_singleton past c ih =>
      have hpast := h.of_prefix (List.prefix_append past [c])
      have htracks := tracks_after resetTimeout hthr hpast
      have hbefore := ih hpast fun bs nowMs hbs => hcond bs nowMs
        (hbs.trans (List.prefix_append _ _))
      rw [breakerAfter_concat, openingsAfter_concat]
      intro openedAt hlatest
      obtain ⟨nowMs, call⟩ := c
      cases call with
      | recordSuccess => cases hlatest
      | allow => exact hbefore openedAt hlatest
      | recordFailure =>
          have hshut := hcond past nowMs List.prefix_rfl
          generalize breakerAfter threshold resetTimeout past = cb at *
          generalize openingsAfter threshold resetTimeout past = o at *
          show (cb.recordFailure nowMs).openedAtMs = openedAt
          by_cases hnone : o.latest = none
          · rw [Openings.step_failure_of_none hnone] at hlatest
            rw [htracks.recordFailure_of_none hnone nowMs]
            by_cases hreach : o.failures + 1 = threshold.toNat
            · rw [if_pos hreach] at hlatest ⊢
              exact Option.some.inj hlatest
            · rw [if_neg hreach] at hlatest
              cases hlatest
          · rw [htracks.recordFailure_of_some hnone nowMs]
            rw [htracks.state_eq hexact fun t ht => .inl (hbefore t ht)] at hshut
            have hge := mt htracks.reached.mpr hnone
            have hkept : ¬(o.failures + 1 = threshold.toNat
                ∨ o.state resetTimeout nowMs = .halfOpen) := by
              rintro (hreach | hhalf)
              · omega
              · exact hshut hhalf
            simp only [Openings.step, if_neg hkept] at hlatest
            exact hbefore openedAt hlatest

theorem statesAsOpened_of_eq
    (h : ∀ past, past <+: calls → ∀ nowMs, (breakerAfter threshold resetTimeout past).state nowMs
      = (openingsAfter threshold resetTimeout past).state resetTimeout nowMs) :
    StatesAsOpened threshold resetTimeout calls := by
  intro past hpast nowMs _
  have heq := h past hpast nowMs
  refine ⟨heq, ?_⟩
  rw [CircuitBreaker.allow_eq_false_iff, heq]

/-- Somewhere a sequence that reaches the threshold has its first opening. -/
theorem exists_first_opening
    (hlatest : (openingsAfter threshold resetTimeout calls).latest ≠ none) :
    ∃ past nowMs, past ++ [⟨nowMs, .recordFailure⟩] <+: calls
      ∧ (openingsAfter threshold resetTimeout past).latest = none
      ∧ (openingsAfter threshold resetTimeout past).failures + 1 = threshold.toNat := by
  induction calls using List.reverseRecOn with
  | nil => exact absurd rfl hlatest
  | append_singleton past c ih =>
      by_cases hnone : (openingsAfter threshold resetTimeout past).latest = none
      · rw [openingsAfter_concat] at hlatest
        obtain ⟨nowMs, call⟩ := c
        cases call with
        | recordSuccess => exact absurd rfl hlatest
        | allow => exact absurd hnone hlatest
        | recordFailure =>
            rw [Openings.step_failure_of_none hnone] at hlatest
            refine ⟨past, nowMs, List.prefix_rfl, hnone, ?_⟩
            by_contra hreach
            exact hlatest (if_neg hreach)
      · obtain ⟨bs, nowMs, hbs, hfirst⟩ := ih hnone
        exact ⟨bs, nowMs, hbs.trans (List.prefix_append _ _), hfirst⟩

/-- The readings before a call are not after its own. -/
theorem Readings.le_last {c : TimedCall} (h : Readings (past ++ [c])) :
    ∀ d ∈ past ++ [c], d.atMs ≤ c.atMs := by
  intro d hd
  obtain hd | hd := List.mem_append.mp hd
  · exact (List.pairwise_append.mp h.ordered).2.2 d hd c (by simp)
  · rw [List.mem_singleton.mp hd]

/-- A first opening shows the duration that the breaker counts. -/
theorem exact_of_statesAsOpened (hthr : 1 ≤ threshold) (h : Readings calls)
    (hstates : StatesAsOpened threshold resetTimeout calls) (hpast : past <+: calls)
    (hlatest : (openingsAfter threshold resetTimeout past).latest ≠ none) :
    resetTimeout.Exact := by
  obtain ⟨bs, nowMs, hbs, hnone, hreach⟩ := exists_first_opening hlatest
  have hbs := hbs.trans hpast
  have hreadings := h.of_prefix hbs
  have htracks := tracks_after resetTimeout hthr
    (hreadings.of_prefix (List.prefix_append _ _))
  have hbreaker : breakerAfter threshold resetTimeout (bs ++ [⟨nowMs, .recordFailure⟩])
      = (breakerAfter threshold resetTimeout bs).recordFailure nowMs :=
    breakerAfter_concat threshold resetTimeout bs _
  -- as long after the opening as the breaker counts
  have hafter := (hstates _ hbs (nowMs + resetTimeout.asMillisU64) fun c hc =>
    Nat.le_trans (hreadings.le_last c hc) (Nat.le_add_right _ _)).1
  rw [hbreaker, openingsAfter_concat, htracks.recordFailure_of_none hnone, Openings.step_failure_of_none hnone,
    if_pos hreach, if_pos hreach] at hafter
  have hpos : nowMs ≠ 0 := Nat.ne_of_gt (hreadings.positive ⟨nowMs, .recordFailure⟩ (by simp))
  simp only [CircuitBreaker.state, htracks.resetTimeout_eq, if_neg hpos, Openings.state,
    Nat.add_sub_cancel_left, Nat.le_refl, if_true] at hafter
  have hnot : ¬resetTimeout.asMillisU64 * 1000000 < resetTimeout.nanos := by
    intro hlt
    rw [if_pos hlt] at hafter
    cases hafter
  exact Nat.le_antisymm resetTimeout.asMillisU64_le (Nat.le_of_not_lt hnot)

/-- A failed probe is an opening, which leaves the breaker half-open as before. -/
theorem noFailureWhileHalfOpen_of_statesAsOpened (hthr : 1 ≤ threshold) (h : Readings calls)
    (hpos : 0 < resetTimeout.nanos) (hstates : StatesAsOpened threshold resetTimeout calls) :
    NoFailureWhileHalfOpen threshold resetTimeout calls := by
  intro past nowMs hpast hhalf
  have hreadings := h.of_prefix hpast
  have hbefore := hreadings.of_prefix (List.prefix_append _ _)
  have htracks := tracks_after resetTimeout hthr hbefore
  have hlast := hreadings.le_last
  have hstate := (hstates past ((List.prefix_append _ _).trans hpast) nowMs
    fun c hc => hlast c (List.mem_append_left _ hc)).1
  have hafter := (hstates _ hpast nowMs hlast).1
  have hbreaker : breakerAfter threshold resetTimeout (past ++ [⟨nowMs, .recordFailure⟩])
      = (breakerAfter threshold resetTimeout past).recordFailure nowMs :=
    breakerAfter_concat threshold resetTimeout past _
  -- half-open, so that there was an opening before the probe
  have hsome : (openingsAfter threshold resetTimeout past).latest ≠ none := fun hnone => by
    rw [(Openings.state_eq_closed_iff resetTimeout).mpr hnone, hhalf] at hstate
    cases hstate
  rw [hbreaker, openingsAfter_concat, htracks.recordFailure_of_some hsome] at hafter
  rw [hhalf] at hstate
  rw [Openings.step_failure_of_halfOpen hstate.symm, Openings.state_latest_self hpos] at hafter
  have hkept : CircuitBreaker.state { breakerAfter threshold resetTimeout past with
      failureCount := (breakerAfter threshold resetTimeout past).failureCount + 1 } nowMs
      = (breakerAfter threshold resetTimeout past).state nowMs := rfl
  rw [hkept, hhalf] at hafter
  cases hafter

/-- **The breaker's state is the one that the openings give exactly when** the
threshold is never reached, or the reset timeout is a whole number of
milliseconds that fits a `u64` and no failure is recorded while half-open; with
a timeout of zero that does not matter. -/
theorem statesAsOpened_iff (hthr : 1 ≤ threshold) (h : Readings calls) :
    StatesAsOpened threshold resetTimeout calls ↔
      NeverReached threshold resetTimeout calls
        ∨ resetTimeout.Exact ∧ (resetTimeout.nanos = 0
          ∨ NoFailureWhileHalfOpen threshold resetTimeout calls) := by
  constructor
  · intro hstates
    by_cases hnever : NeverReached threshold resetTimeout calls
    · exact .inl hnever
    refine .inr ⟨?_, ?_⟩
    · unfold NeverReached at hnever
      push Not at hnever
      obtain ⟨past, hpast, hge⟩ := hnever
      refine exact_of_statesAsOpened hthr h hstates hpast fun hnone => ?_
      have hlt := (tracks_after resetTimeout hthr (h.of_prefix hpast)).reached.mp hnone
      omega
    · by_cases hzero : resetTimeout.nanos = 0
      · exact .inl hzero
      exact .inr (noFailureWhileHalfOpen_of_statesAsOpened hthr h (Nat.pos_of_ne_zero hzero) hstates)
  · rintro (hnever | ⟨hexact, hcond⟩)
    · refine statesAsOpened_of_eq fun past hpast nowMs => ?_
      have htracks := tracks_after resetTimeout hthr (h.of_prefix hpast)
      have hnone := htracks.reached.mpr (hnever past hpast)
      rw [(Openings.state_eq_closed_iff resetTimeout).mpr hnone, CircuitBreaker.state,
        if_pos (htracks.opened.mpr hnone)]
    · refine statesAsOpened_of_eq fun past hpast nowMs => ?_
      have hreadings := h.of_prefix hpast
      refine (tracks_after resetTimeout hthr hreadings).state_eq hexact (fun openedAt hlatest => ?_) nowMs
      obtain hzero | hcond := hcond
      · exact .inr hzero
      · exact .inl (openedAtMs_eq hthr hexact hreadings
          (fun bs nowMs hbs => hcond bs nowMs (hbs.trans hpast)) openedAt hlatest)

end Calls

/-- Redis fails, and fails again at the probe half a minute later. -/
def failedProbe : List TimedCall := [⟨1000, .recordFailure⟩, ⟨31000, .allow⟩, ⟨31000, .recordFailure⟩]

theorem readings_failedProbe : Readings failedProbe :=
  ⟨by simp [failedProbe], by simp [failedProbe]⟩

theorem statesAsOpened_failedProbe :
    StatesAsOpened 1 (.ofSecs 30) failedProbe ↔ NeverReached 1 (.ofSecs 30) failedProbe
      ∨ (Duration.ofSecs 30).Exact ∧ ((Duration.ofSecs 30).nanos = 0
        ∨ NoFailureWhileHalfOpen 1 (.ofSecs 30) failedProbe) :=
  statesAsOpened_iff (by decide) readings_failedProbe

/-- The failed probe leaves the circuit half-open, where it ought to be open again. -/
theorem failed_probe_stays_halfOpen :
    1 ≤ (1 : UInt32) ∧ Readings failedProbe ∧ ¬StatesAsOpened 1 (.ofSecs 30) failedProbe := by
  refine ⟨by decide, readings_failedProbe, fun h => ?_⟩
  have hstate := (h failedProbe List.prefix_rfl 31001 (by simp [failedProbe])).1
  have hbreaker : (breakerAfter 1 (.ofSecs 30) failedProbe).state 31001 = .halfOpen := by decide
  have hopenings : (openingsAfter 1 (.ofSecs 30) failedProbe).state (.ofSecs 30) 31001 = .opened := by
    decide
  rw [hbreaker, hopenings] at hstate
  cases hstate

end PredictIQ.Cache
