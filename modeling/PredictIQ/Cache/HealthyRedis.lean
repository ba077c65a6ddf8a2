/-
  PredictIQ.Cache.HealthyRedis: what a circuit breaker hears of a Redis that
  never fails.

  `exec` counts an error of its operation as a failure of Redis, and an
  operation that reads a text errs when serde does.  `Legible` says of a step
  that a text is read as a format it is one of; `circuit_stays_closed` says
  that in a run of such steps no failure is counted, as long as Redis does not
  fail, and `sampleHit_opens` that two readers of a plain value open it.
-/
import PredictIQ.Cache.RedisCache

namespace PredictIQ.Cache

open Foundation

variable {W : Setting}

/-! ## §1. Programs made of cache calls. -/

/-- A program that uses the cache through its operations, and calls the world
outside; the fetcher of a `getOrSetJson` may use the cache itself. -/
inductive Calls (cfg : RedisCacheConfig) : {α : Type} → CacheM W α → Prop where
  | done {α : Type} (r : Except String α) : Calls cfg (.done r : CacheM W α)
  | bind {α β : Type} {p : CacheM W α} {f : α → CacheM W β} :
      Calls cfg p → (∀ a, Calls cfg (f a)) → Calls cfg (p >>= f)
  | attempt {α : Type} {p : CacheM W α} : Calls cfg p → Calls cfg p.attempt
  | outside (q : W.Question) : Calls cfg (ask (.outside q))
  | getJson (f : Format W.Code) (key : String) : Calls cfg (cfg.getJson f key)
  | setJson (i : W.Code) (key : String) (value : W.Val i) (ttl : Nat) : Calls cfg (cfg.setJson i key value ttl)
  | del (key : String) : Calls cfg (cfg.del key)
  | incrWithTtl (key : String) (ttl : Nat) : Calls cfg (cfg.incrWithTtl key ttl)
  | getOrSetJson {i : W.Code} (key : String) (ttl : Nat) {fetcher : CacheM W (W.Val i)} :
      Calls cfg fetcher → Calls cfg (cfg.getOrSetJson i key ttl fetcher)

/-- A request of the API, as far as the cache is concerned. -/
structure Request (W : Setting) (cfg : RedisCacheConfig) where
  body : CacheM W Unit
  calls : Calls cfg body

/-! ## §2. What one process has met. -/

/-- Nothing but success, or an error of Redis or of serde. -/
inductive Pulse where
  | calm | failed
  deriving DecidableEq, Repr

namespace Pulse

def next : Pulse → (q : Command W) → Except String (Reply q) → Pulse
  | .failed, _, _ => .failed
  | .calm, .get _ f, .ok val => if (W.parse f val).isOk then .calm else .failed
  | .calm, q, .error _ => if q.isRedis then .failed else .calm
  | .calm, _, .ok _ => .calm

/-- Who has met no error counts none. -/
def allows : Pulse → Command W → Prop
  | .calm, .fetchAddFailureCount => False
  | .calm, .storeOpenedAt ms => ms = 0
  | .calm, .storeFailureCount n => n = 0
  | _, _ => True

end Pulse

def pulseMonitor (W : Setting) : Monitor (Reply (W := W)) String Pulse := ⟨.calm, Pulse.next, Pulse.allows⟩

/-- The program counts no failure before it has met one. -/
def Calm {α : Type} (p : CacheM W α) : Prop := (pulseMonitor W).Obeys (fun _ _ => True) .calm p

section Calm

open Monitor

variable {α β : Type}

/-- After a failure everything goes. -/
theorem obeys_failed (p : CacheM W α) : (pulseMonitor W).Obeys (fun _ _ => True) .failed p := by
  induction p with
  | done r => trivial
  | ask q k ih => exact ⟨trivial, fun r => ih r⟩

theorem Calm.bind {p : CacheM W α} {f : α → CacheM W β} (hp : Calm p) (hf : ∀ a, Calm (f a)) :
    Calm (p >>= f) := by
  refine obeys_bind.mpr (Obeys.mono hp ?_)
  rintro (_ | _) (e | a) -
  · trivial
  · exact hf a
  · trivial
  · exact obeys_failed (f a)

theorem Calm.attempt {p : CacheM W α} (hp : Calm p) : Calm p.attempt :=
  obeys_attempt.mpr (Obeys.mono hp fun _ _ _ => trivial)

theorem calm_done (r : Except String α) : Calm (.done r : CacheM W α) := trivial

theorem calm_ask {q : Command W} (hq : Pulse.allows .calm q) : Calm (ask q) := ⟨hq, fun _ => trivial⟩

theorem calm_recordSuccess : Calm (RedisCacheConfig.recordSuccess : CacheM W Unit) :=
  (calm_ask (q := .storeFailureCount 0) rfl).bind fun _ => calm_ask (q := .storeOpenedAt 0) rfl

variable (cfg : RedisCacheConfig)

theorem calm_allow : Calm (cfg.allow : CacheM W Bool) := by
  refine (calm_ask (q := .loadOpenedAt) trivial).bind fun openedAt => ?_
  split
  · exact calm_done _
  · exact (calm_ask (q := .nowMs) trivial).bind fun now => calm_done _

/-- **An operation that errs only at a failure is retried only after one.** -/
theorem calm_exec {op : CacheM W α}
    (hop : (pulseMonitor W).Obeys (fun φ r => (∃ e, r = .error e) → φ = .failed) .calm op) :
    Calm (cfg.exec op) := by
  refine (calm_allow cfg).bind fun allowed => ?_
  split
  · -- the first attempt succeeds, or what follows comes after a failure
    unfold RedisCacheConfig.attempts
    rw [if_neg (by omega)]
    refine obeys_bind.mpr (obeys_attempt.mpr ⟨trivial, ?_⟩)
    rintro (e | _)
    · exact obeys_failed _
    · refine obeys_bind.mpr (obeys_attempt.mpr (Obeys.mono hop ?_))
      rintro φ (e | v) hφ
      · obtain rfl := hφ ⟨e, rfl⟩
        exact obeys_failed _
      · cases φ with
        | calm => exact calm_recordSuccess.bind fun _ => calm_done _
        | failed => exact obeys_failed _
  · exact calm_done _

/-- A single command of Redis errs only when Redis does. -/
theorem obeys_ask_redis {q : Command W} (hredis : q.isRedis = true) :
    (pulseMonitor W).Obeys (fun φ r => (∃ e, r = .error e) → φ = .failed) .calm (ask q) := by
  refine ⟨?_, ?_⟩
  · cases q <;> trivial
  · rintro (e | v)
    · intro _
      cases q <;> first | rfl | cases hredis
    · rintro ⟨e, ⟨⟩⟩

theorem calm_getJson (f : Format W.Code) (key : String) : Calm (cfg.getJson f key : CacheM W _) := by
  refine calm_exec cfg (obeys_call_bind.mpr ⟨trivial, fun val => ?_, fun e _ => rfl⟩)
  -- the text is read, or reading it is the failure
  show (∃ e, W.parse f val = .error e) → (if (W.parse f val).isOk then Pulse.calm else .failed) = .failed
  rintro ⟨e, he⟩
  rw [he]
  rfl

theorem calm_setJson (i : W.Code) (key : String) (value : W.Val i) (ttl : Nat) :
    Calm (cfg.setJson i key value ttl) :=
  (calm_done _).bind fun _ => calm_exec cfg (obeys_ask_redis rfl)

theorem calm_setEntry (i : W.Code) (key : String) (entry : CachedEntry (W.Val i)) (ttl : Nat) :
    Calm (cfg.setEntry i key entry ttl) :=
  (calm_done _).bind fun _ => calm_exec cfg (obeys_ask_redis rfl)

theorem calm_del (key : String) : Calm (cfg.del key : CacheM W Unit) := by
  refine calm_exec cfg (obeys_call_bind.mpr ⟨trivial, fun n => ?_, fun e _ => rfl⟩)
  rintro ⟨e, ⟨⟩⟩

theorem calm_incrWithTtl (key : String) (ttl : Nat) : Calm (cfg.incrWithTtl key ttl : CacheM W Int) :=
  calm_exec cfg (obeys_ask_redis rfl)

theorem calm_xfetchShouldRefresh {T : Type} (entry : CachedEntry T) :
    Calm (RedisCacheConfig.xfetchShouldRefresh entry : CacheM W Bool) := by
  refine (calm_ask (q := .nowMs) trivial).bind fun now => ?_
  dsimp only
  split
  · exact calm_done _
  · exact calm_ask (q := .xfetchScore ..) trivial

theorem calm_okSome {p : CacheM W (Option α)} (hp : Calm p) : Calm (RedisCacheConfig.okSome p) := by
  refine hp.attempt.bind fun found => ?_
  cases found <;> exact calm_done _

theorem calm_cachedValue (i : W.Code) (key : String) : Calm (cfg.cachedValue i key : CacheM W _) := by
  refine (calm_okSome (calm_getJson cfg (.entry i) key)).bind fun found => ?_
  cases found with
  | none => exact calm_okSome (calm_getJson cfg (.plain i) key)
  | some entry =>
      refine (calm_xfetchShouldRefresh entry).bind fun refresh => ?_
      cases refresh <;> exact calm_done _

theorem calm_lockAcquired (key : String) : Calm (cfg.lockAcquired key : CacheM W Bool) := by
  refine (calm_exec cfg (obeys_ask_redis rfl)).attempt.bind fun acquired => ?_
  cases acquired <;> exact calm_done _

theorem calm_poll (i : W.Code) (key : String) (n : Nat) : Calm (cfg.poll i key n : CacheM W _) := by
  induction n with
  | zero => exact calm_done _
  | succ n ih =>
      refine (calm_ask (q := .sleep 50) trivial).bind fun _ => ?_
      refine (calm_okSome (calm_getJson cfg (.entry i) key)).bind fun entry => ?_
      cases entry with
      | some entry => exact calm_done _
      | none =>
          refine (calm_okSome (calm_getJson cfg (.plain i) key)).bind fun value => ?_
          cases value with
          | some value => exact calm_done _
          | none =>
              refine (calm_allow cfg).bind fun allowed => ?_
              cases allowed with
              | false => exact calm_done _
              | true => exact ih

/-- **Fetch or set**, with a fetcher that counts no failure either. -/
theorem calm_getOrSetJson (i : W.Code) (key : String) (ttl : Nat) {fetcher : CacheM W (W.Val i)}
    (hfetcher : Calm fetcher) : Calm (cfg.getOrSetJson i key ttl fetcher) := by
  have hnow : Calm (ask .nowMs : CacheM W Nat) := calm_ask (q := .nowMs) trivial
  have hrecompute : Calm (cfg.recompute i key ttl fetcher) :=
    hnow.bind fun _ => hfetcher.bind fun value => hnow.bind fun _ => hnow.bind fun _ =>
      (calm_setEntry cfg i key _ ttl).attempt.bind fun _ =>
        (calm_del cfg _).attempt.bind fun _ => calm_done _
  have hawait : Calm (cfg.await i key ttl fetcher) := by
    refine (calm_poll cfg i key 20).bind fun found => ?_
    cases found with
    | some value => exact calm_done _
    | none =>
        exact hfetcher.bind fun value => (calm_setJson cfg i key value ttl).attempt.bind fun _ => calm_done _
  refine (calm_allow cfg).bind fun allowed => ?_
  cases allowed with
  | false => exact hfetcher.bind fun value => calm_done _
  | true =>
      refine (calm_cachedValue cfg i key).bind fun found => ?_
      cases found with
      | some value => exact calm_done _
      | none =>
          refine (calm_lockAcquired cfg key).bind fun acquired => ?_
          cases acquired with
          | true => exact hrecompute
          | false => exact hawait

/-- **Every program made of cache calls.** -/
theorem Calls.calm {p : CacheM W α} (h : Calls cfg p) : Calm p := by
  induction h with
  | done r => exact calm_done r
  | bind _ _ ihp ihf => exact ihp.bind ihf
  | attempt _ ih => exact ih.attempt
  | outside q => exact calm_ask (q := .outside q) trivial
  | getJson f key => exact calm_getJson cfg f key
  | setJson i key value ttl => exact calm_setJson cfg i key value ttl
  | del key => exact calm_del cfg key
  | incrWithTtl key ttl => exact calm_incrWithTtl cfg key ttl
  | getOrSetJson key ttl _ ih => exact calm_getOrSetJson cfg _ key ttl ih

end Calm

/-! ## §3. Runs. -/

abbrev Action (W : Setting) (cfg : RedisCacheConfig) : Type :=
  Act Nat (Request W cfg) String (Choice W) Outside

def System.step (cfg : RedisCacheConfig) : System W → Action W cfg → System W :=
  Machine.step (server W) (fun _ request => request.body) outside

/-- A command that a calm process may ask leaves a closed circuit closed. -/
theorem breaker_of_exec {c : Choice W} {b b' : Backend W} {q : Command W} {v : Reply q}
    (h : exec c b q = some (v, b')) (hallows : Pulse.allows .calm q)
    (hb : b.failureCount = 0 ∧ b.openedAtMs = 0) : b'.failureCount = 0 ∧ b'.openedAtMs = 0 := by
  cases q with
  | fetchAddFailureCount => exact absurd hallows id
  | storeOpenedAt ms =>
      cases h
      exact ⟨hb.1, hallows⟩
  | storeFailureCount n =>
      cases h
      exact ⟨hallows, hb.2⟩
  | setEx key text seconds =>
      simp only [exec] at h
      split at h <;> cases h
      exact hb
  | setNxEx key text seconds =>
      simp only [exec] at h
      split at h
      · cases h
      · split at h <;> cases h <;> exact hb
  | incrWithTtl key seconds =>
      simp only [exec, Backend.incrWithTtl] at h
      split at h
      · split at h
        · split at h
          · split at h
            · cases h
              exact hb
            · split at h <;> cases h
              exact hb
          · cases h
        · cases h
          exact hb
      · cases h
        exact hb
  | outside q =>
      obtain ⟨r, -, hr⟩ := Option.map_eq_some_iff.mp h
      cases hr
      exact hb
  | _ =>
      cases h
      exact hb

namespace System

variable {cfg : RedisCacheConfig}

/-- No pool acquisition and no command of Redis fails at the step. -/
def Healthy (t : Transition (System W) (Action W cfg)) : Prop :=
  ∀ p e, (t.act = .refuse p e ∨ ∃ c, t.act = .lose p c e) → ∀ q, t.pre.asks p = some q → q.isRedis = false

/-- **The exact condition**: a text that the step reads is one of the format it is read as. -/
def Legible (t : Transition (System W) (Action W cfg)) : Prop :=
  ∀ p key f, t.act.asker = some p → t.pre.asks p = some (.get key f) →
    (W.parse f (t.pre.store.get key)).isOk = true

/-- No failure is counted, and nobody has met one. -/
structure Unharmed (m : System W) : Prop where
  breaker : m.store.failureCount = 0 ∧ m.store.openedAtMs = 0
  calm : ∀ p, m.phase (pulseMonitor W) p = .calm

/-- A calm process that is answered stays calm, where nothing fails and all is legible. -/
theorem calm_of_reply {t : Transition (System W) (Action W cfg)} {p : Nat}
    {l : Live (Reply (W := W)) String} {b : Backend W} {r : Except String (Reply l.question)}
    (ha : t.act.asker = some p) (hl : t.pre.procs p = some l)
    (hr : Machine.reply (server W) t.pre.store t.act l.question = some (b, r))
    (hhealthy : Healthy t) (hlegible : Legible t) : Pulse.next .calm l.question r = .calm := by
  have hasks : t.pre.asks p = some l.question := congrArg (Option.map _) hl
  have herror : ∀ e, (t.act = .refuse p e ∨ ∃ c, t.act = .lose p c e) →
      Pulse.next .calm l.question (.error e) = .calm := by
    intro e hact
    have hredis := hhealthy p e hact l.question hasks
    obtain ⟨q, rest, heard⟩ := l
    cases q <;> first | rfl | cases hredis
  rcases Machine.reply_cases (server W) ha hr with ⟨c, v, -, rfl, hexec⟩ | ⟨e, hact, rfl, -⟩ | ⟨c, e, v, hact, rfl, -⟩
  · obtain ⟨q, rest, heard⟩ := l
    cases q with
    | get key f =>
        obtain ⟨rfl, -⟩ := Prod.mk.inj (Option.some.inj hexec)
        exact if_pos (hlegible p key f ha hasks)
    | _ => rfl
  · exact herror e (.inl hact)
  · exact herror e (.inr ⟨c, hact⟩)

theorem Unharmed.deliver {m : System W} (h : Unharmed m) {a : Action W cfg} {p : Nat}
    {l : Live (Reply (W := W)) String} {b : Backend W} {r : Except String (Reply l.question)}
    (ha : a.asker = some p) (hl : m.procs p = some l)
    (hallows : (pulseMonitor W).allows (m.phase (pulseMonitor W) p) l.question)
    (hr : Machine.reply (server W) m.store a l.question = some (b, r))
    (hhealthy : Healthy ⟨m, a, m.deliver p l b r⟩) (hlegible : Legible ⟨m, a, m.deliver p l b r⟩) :
    Unharmed (m.deliver p l b r) := by
  rw [h.calm p] at hallows
  refine ⟨?_, fun p' => ?_⟩
  · rcases Machine.reply_store (server W) ha hl hr with rfl | ⟨c, v, -, hexec⟩
    · exact h.breaker
    · exact breaker_of_exec hexec hallows h.breaker
  · have hnext : Pulse.next .calm l.question r = .calm :=
      calm_of_reply (t := ⟨m, a, m.deliver p l b r⟩) ha hl hr hhealthy hlegible
    rw [Machine.phase_deliver _ hl]
    by_cases hpp : p' = p
    · subst hpp
      rw [Function.update_self, h.calm p']
      cases l.rest r with
      | done res => rfl
      | ask q k => exact hnext
    · rw [Function.update_of_ne hpp]
      exact h.calm p'

/-- **A healthy Redis never opens the circuit**, and no failure is counted, in any
run whose steps read what they find as a format it has. -/
theorem circuit_stays_closed (cfg : RedisCacheConfig) (now : Nat) (world : W.World) (as : List (Action W cfg))
    (hsteps : ∀ t ∈ trace (System.step cfg) (Machine.idle ⟨now, 0, 0, ∅, world⟩) as, Healthy t ∧ Legible t) :
    (run (System.step cfg) (Machine.idle ⟨now, 0, 0, ∅, world⟩) as).store.circuitState cfg = .closed
      ∧ (run (System.step cfg) (Machine.idle ⟨now, 0, 0, ∅, world⟩) as).store.failureCount = 0 := by
  have hunharmed : Unharmed (run (System.step cfg) (Machine.idle ⟨now, 0, 0, ∅, world⟩) as) := by
    refine Machine.monitored_invariant (M := pulseMonitor W) (fun _ request => request.calls.calm cfg)
      Unharmed (fun t => Healthy t ∧ Legible t) ⟨⟨rfl, rfl⟩, fun _ => rfl⟩ ?_ ?_ ?_ ?_ as hsteps
    · intro m p request h hp
      refine ⟨h.breaker, fun p' => ?_⟩
      rw [Machine.phase_launch _ hp]
      exact h.calm p'
    · intro m a p l b r h ha hl hallows hr hC
      exact h.deliver ha hl hallows hr hC.1 hC.2
    · intro m p h _
      refine ⟨h.breaker, fun p' => ?_⟩
      rw [Machine.phase_halt]
      by_cases hpp : p' = p
      · subst hpp
        exact Function.update_self ..
      · rw [Function.update_of_ne hpp]
        exact h.calm p'
    · rintro m ⟨ms⟩ h
      exact ⟨h.breaker, h.calm⟩
  refine ⟨?_, hunharmed.breaker.1⟩
  show cfg.state _ _ = _
  rw [hunharmed.breaker.2]
  rfl

/-! ## §4. Two readers of a plain value. -/

def sampleSet : Request sampleType.setting sampleConfig where
  body := do let _ ← (sampleConfig.setJson (W := sampleType.setting) () "key:hit" (99 : Nat) 60).attempt
  calls := (Calls.setJson (W := sampleType.setting) () "key:hit" (99 : Nat) 60).attempt.bind fun _ => .done _

def sampleGetOrSet : Request sampleType.setting sampleConfig where
  body := sampleType.getOrSet sampleConfig "key:hit" 60
  calls := (Calls.getOrSetJson (W := sampleType.setting) "key:hit" 60 (.outside _)).attempt.bind fun _ =>
    .outside _

/-- The answer to request `p`, with nothing left open. -/
def sampleAnswer (p : Nat) : Action sampleType.setting sampleConfig := .answer p ⟨false, (0 : Nat)⟩

def sampleStart : System sampleType.setting := Machine.idle ⟨1000, 0, 0, ∅, ()⟩

/-- The value that the step reads is of its format. -/
def isLegible (t : Transition (System W) (Action W cfg)) : Bool :=
  t.act.asker.all fun p =>
    match t.pre.asks p with
    | some (.get key f) => (W.parse f (t.pre.store.get key)).isOk
    | _ => true

theorem Legible.of_isLegible {t : Transition (System W) (Action W cfg)} (h : isLegible t = true) :
    Legible t := by
  intro p key f ha hasks
  simpa [isLegible, ha, hasks] using h

theorem Healthy.of_failing {t : Transition (System W) (Action W cfg)} (h : t.act.failing = none) :
    Healthy t := by
  rintro p e (hact | ⟨c, hact⟩) <;> rw [hact] at h <;> cases h

/-- One call on a key that holds nothing, and another one that finds its entry. -/
def sampleMiss : List (Action sampleType.setting sampleConfig) :=
  .start 0 sampleGetOrSet :: List.replicate 31 (sampleAnswer 0)
    ++ .start 1 sampleGetOrSet :: List.replicate 10 (sampleAnswer 1)

theorem sampleMiss_stays_closed :
    (run (System.step sampleConfig) sampleStart sampleMiss).store.circuitState sampleConfig
        = .closed
      ∧ (run (System.step sampleConfig) sampleStart sampleMiss).store.failureCount = 0 := by
  refine circuit_stays_closed (W := sampleType.setting) sampleConfig 1000 () sampleMiss fun t ht => ?_
  have hsteps : (trace (System.step sampleConfig) sampleStart sampleMiss).all
      (fun t => t.act.failing.isNone && isLegible t) = true := by decide +kernel
  obtain ⟨hfailing, hlegible⟩ := Bool.and_eq_true_iff.mp (List.all_eq_true.mp hsteps t ht)
  exact ⟨.of_failing (Option.isNone_iff_eq_none.mp hfailing), .of_isLegible hlegible⟩

/-- A value is set; one call on it reads it as an entry in all its attempts, and
another one begins to. -/
def sampleHit : List (Action sampleType.setting sampleConfig) :=
  .start 0 sampleSet :: List.replicate 5 (sampleAnswer 0)
    ++ .start 1 sampleGetOrSet :: List.replicate 17 (sampleAnswer 1)
    ++ .start 2 sampleGetOrSet :: List.replicate 8 (sampleAnswer 2)

/-- Redis answers every command, and the circuit opens. -/
theorem sampleHit_opens :
    (∀ t ∈ trace (System.step sampleConfig) sampleStart sampleHit, Healthy t)
      ∧ (run (System.step sampleConfig) sampleStart sampleHit).store.circuitState
        sampleConfig = .opened := by
  refine ⟨fun t ht => .of_failing ?_, by decide +kernel⟩
  have hacts : sampleHit.all (fun a => a.failing.isNone) = true := by decide +kernel
  exact Option.isNone_iff_eq_none.mp (List.all_eq_true.mp hacts t.act (act_mem_of_mem_trace _ ht))

end System

end PredictIQ.Cache
