/-
  PredictIQ.Cache.FixedData: the cache over data that does not change.

  A `Layout` says which types are read under a key, and which of their values
  are right there.  While every request that writes a key writes what is right,
  whatever it reads is right: `keeps_getOrSetJson` for the program,
  `serves_of_layout` for the server.
-/
import PredictIQ.Cache.Rules
import PredictIQ.Foundation.Rely

namespace PredictIQ.Cache

open Foundation Prog

/-! ## §1. Operations. -/

namespace Setting

variable (W : Setting)

/-- A text that serde writes for a value, alone or in an entry. -/
def Holds (i : W.Code) (v : W.Val i) (text : W.Text) : Prop :=
  (W.plain i).toString v = .ok text ∨ ∃ e, (W.entry i).toString e = .ok text ∧ e.value = v

/-- What is written is read as itself, in either format, if it is read. -/
structure ReadsBack (i : W.Code) : Prop where
  plain : ∀ v text v', W.Holds i v text → (W.plain i).fromStr text = .ok v' → v' = v
  entry : ∀ v text e, W.Holds i v text → (W.entry i).fromStr text = .ok e → e.value = v

end Setting

section Operations

variable {W : Setting} {cfg : RedisCacheConfig} {α : Type}
variable {fair : ∀ q : Command W, Reply q → Prop} {allowed : Command W → Prop}

/-- What a fetch-or-set needs of a key: what is found under it is good, and what is good may be set. -/
structure Usable (fair : ∀ q : Command W, Reply q → Prop) (allowed : Command W → Prop) (i : W.Code)
    (key : String) (good : W.Val i → Prop) : Prop where
  breaker : ∀ q : Command W, q.isBreaker = true → allowed q
  get : ∀ f, allowed (.get key f)
  plain : ∀ text v, fair (.get key (.plain i)) (some text) → (W.plain i).fromStr text = .ok v → good v
  entry : ∀ text e, fair (.get key (.entry i)) (some text) → (W.entry i).fromStr text = .ok e → good e.value
  setEx : ∀ v text seconds, good v → W.Holds i v text → allowed (.setEx key text seconds)
  lock : ∀ text seconds, allowed (.setNxEx (lockKey key) text seconds)
  release : allowed (.del (lockKey key))

/-- What is found is good. -/
def Found (good : α → Prop) (found : Option α) : Prop := ∀ a, found = some a → good a

theorem found_none (good : α → Prop) : Found good none := fun _ h => by cases h

theorem found_some {good : α → Prop} {a : α} (h : good a) : Found good (some a) := by
  intro a' ha
  obtain rfl := Option.some.inj ha
  exact h

theorem map_eq_ok {β ε : Type} {f : α → β} {r : Except ε α} {b : β} (h : r.map f = .ok b) :
    ∃ a, r = .ok a ∧ f a = b := by
  cases r with
  | ok a => exact ⟨a, rfl, Except.ok.inj h⟩
  | error e => cases h

/-- **An operation under the breaker**, with its retries. -/
theorem keeps_exec (hbreaker : ∀ q : Command W, q.isBreaker = true → allowed q) {good : α → Prop}
    {op : CacheM W α} (hop : op.Keeps fair allowed good) : (cfg.exec op).Keeps fair allowed good := by
  have hquietly : ∀ {β : Type} {p : CacheM W β} {f : β → CacheM W α}, p.Uses allowed →
      (∀ b, (f b).Keeps fair allowed good) → (p >>= f).Keeps fair allowed good :=
    fun hp hf => keeps_bind (keeps_of_uses hp) fun b _ => hf b
  have hattempts : ∀ left attempt lastErr, (cfg.attempts op attempt left lastErr).Keeps fair allowed good := by
    intro left
    induction left with
    | zero => exact fun _ _ => keeps_fail _
    | succ left ih =>
        intro attempt lastErr
        have htry : (cfg.tryOnce op fun e => cfg.attempts op (attempt + 1) left e).Keeps fair allowed good := by
          refine keeps_attempt_bind (keeps_of_uses (Prog.uses_call.mpr (hbreaker _ rfl))) (fun _ _ => ?_) fun e => ?_
          · refine keeps_attempt_bind hop (fun v hv => ?_) fun e => ?_
            · exact hquietly (uses_recordSuccess hbreaker) fun _ => keeps_pure hv
            · exact hquietly (uses_recordFailure hbreaker) fun _ => ih _ _
          · exact hquietly (uses_recordFailure hbreaker) fun _ => ih _ _
        unfold RedisCacheConfig.attempts
        split
        · exact hquietly (Prog.uses_call.mpr (hbreaker _ rfl)) fun _ => htry
        · exact htry
  refine hquietly (uses_allow hbreaker) fun allowed => ?_
  split
  · exact hattempts _ _ _
  · exact keeps_fail _

theorem keeps_okSome {good : α → Prop} {p : CacheM W (Option α)} (hp : p.Keeps fair allowed (Found good)) :
    (RedisCacheConfig.okSome p).Keeps fair allowed (Found good) :=
  keeps_attempt_bind hp (fun _ hfound => keeps_pure hfound) fun _ => keeps_pure (found_none good)

variable {i : W.Code} {key : String} {good : W.Val i → Prop} (h : Usable fair allowed i key good)

include h

theorem keeps_getPlain : (RedisCacheConfig.okSome (cfg.getJson (.plain i) key)).Keeps fair allowed (Found good) := by
  refine keeps_okSome (keeps_exec h.breaker (keeps_bind (keeps_call (h.get _) fun _ hfair => hfair) ?_))
  intro found hfair
  refine keeps_done _ fun parsed hparsed => ?_
  cases found with
  | none =>
      cases hparsed
      exact found_none good
  | some text =>
      obtain ⟨v, hv, rfl⟩ := map_eq_ok hparsed
      exact found_some (h.plain text v hfair hv)

theorem keeps_getEntry : (RedisCacheConfig.okSome (cfg.getJson (.entry i) key)).Keeps fair allowed
    (Found fun e : CachedEntry (W.Val i) => good e.value) := by
  refine keeps_okSome (keeps_exec h.breaker (keeps_bind (keeps_call (h.get _) fun _ hfair => hfair) ?_))
  intro found hfair
  refine keeps_done _ fun parsed hparsed => ?_
  cases found with
  | none =>
      cases hparsed
      exact found_none _
  | some text =>
      obtain ⟨e, he, rfl⟩ := map_eq_ok hparsed
      exact found_some (h.entry text e hfair he)

theorem keeps_cachedValue : (cfg.cachedValue i key).Keeps fair allowed (Found good) := by
  refine keeps_bind (keeps_getEntry h) fun found hfound => ?_
  cases found with
  | none => exact keeps_getPlain h
  | some e =>
      have hrefresh : (RedisCacheConfig.xfetchShouldRefresh (W := W) e).Uses allowed := by
        refine Prog.Uses.bind (Prog.uses_call.mpr (h.breaker _ rfl)) fun now => ?_
        dsimp only
        split
        · exact Prog.uses_pure true
        · exact Prog.uses_call.mpr (h.breaker _ rfl)
      refine keeps_bind (keeps_of_uses hrefresh) fun refresh _ => ?_
      split
      · exact keeps_pure (found_none good)
      · exact keeps_pure (found_some (hfound e rfl))

theorem keeps_poll (n : Nat) : (cfg.poll i key n).Keeps fair allowed (Found good) := by
  induction n with
  | zero => exact keeps_pure (found_none good)
  | succ n ih =>
      refine keeps_bind (keeps_of_uses (Prog.uses_call.mpr (h.breaker _ rfl))) fun _ _ => ?_
      refine keeps_bind (keeps_getEntry h) fun found hfound => ?_
      cases found with
      | some e => exact keeps_pure (found_some (hfound e rfl))
      | none =>
          refine keeps_bind (keeps_getPlain h) fun found hfound => ?_
          cases found with
          | some value => exact keeps_pure hfound
          | none =>
              refine keeps_bind (keeps_of_uses (uses_allow h.breaker)) fun allowed _ => ?_
              split
              · exact ih
              · exact keeps_pure (found_none good)

/-- The value is good, whether or not it can be written. -/
theorem keeps_setting {ttl : Nat} {value : W.Val i} (hvalue : good value) :
    (cfg.setJson i key value ttl).Uses allowed
      ∧ ∀ expiresAt deltaMs, (cfg.setEntry i key ⟨value, expiresAt, deltaMs⟩ ttl).Uses allowed := by
  constructor
  · unfold RedisCacheConfig.setJson
    cases hraw : (W.plain i).toString value with
    | error e => exact Prog.uses_done _
    | ok raw => exact uses_exec h.breaker (Prog.uses_call.mpr (h.setEx value raw _ hvalue (.inl hraw)))
  · intro expiresAt deltaMs
    unfold RedisCacheConfig.setEntry
    cases hraw : (W.entry i).toString ⟨value, expiresAt, deltaMs⟩ with
    | error e => exact Prog.uses_done _
    | ok raw => exact uses_exec h.breaker (Prog.uses_call.mpr (h.setEx value raw _ hvalue (.inr ⟨_, hraw, rfl⟩)))

/-- **A fetch-or-set returns what is good**, if what its fetcher returns is. -/
theorem keeps_getOrSetJson {ttl : Nat} {fetcher : CacheM W (W.Val i)} (hfetcher : fetcher.Keeps fair allowed good) :
    (cfg.getOrSetJson i key ttl fetcher).Keeps fair allowed fun r => good r.1 := by
  have hnow : ∀ {β : Type} {post : β → Prop} {f : Nat → CacheM W β}, (∀ now, (f now).Keeps fair allowed post) →
      (ask .nowMs >>= f).Keeps fair allowed post :=
    fun hf => keeps_bind (keeps_of_uses (Prog.uses_call.mpr (h.breaker _ rfl))) fun now _ => hf now
  refine keeps_bind (keeps_of_uses (uses_allow h.breaker)) fun closed _ => ?_
  split
  · refine keeps_bind (keeps_cachedValue h) fun found hfound => ?_
    cases found with
    | some value => exact keeps_pure (hfound value rfl)
    | none =>
        have hacquired : (cfg.lockAcquired (W := W) key).Uses allowed := by
          refine Prog.Uses.bind (uses_exec h.breaker (Prog.uses_call.mpr (h.lock _ _))).attempt fun r => ?_
          cases r with
          | ok acquired => exact Prog.uses_pure acquired
          | error e => exact Prog.uses_pure false
        refine keeps_bind (keeps_of_uses hacquired) fun acquired _ => ?_
        split
        · -- the holder of the lock
          refine hnow fun start => keeps_bind hfetcher fun value hvalue => hnow fun finish => hnow fun now => ?_
          refine keeps_bind (keeps_of_uses ((keeps_setting h hvalue).2 _ _).attempt) fun _ _ => ?_
          refine keeps_bind (keeps_of_uses (Prog.Uses.attempt ?_)) fun _ _ => keeps_pure hvalue
          exact uses_exec h.breaker (Prog.Uses.bind (Prog.uses_call.mpr h.release) fun _ => Prog.uses_pure ())
        · -- who waits for it
          refine keeps_bind (keeps_poll h 20) fun found hfound => ?_
          cases found with
          | some value => exact keeps_pure (hfound value rfl)
          | none =>
              refine keeps_bind hfetcher fun value hvalue => ?_
              exact keeps_bind (keeps_of_uses (keeps_setting h hvalue).1.attempt) fun _ _ => keeps_pure hvalue
  · exact keeps_bind hfetcher fun value hvalue => keeps_pure hvalue

end Operations

/-! ## §2. Layouts. -/

/-- What is read under each key, and which values are right there.  Nothing is
read under the key of a lock. -/
structure Layout (W : Setting) where
  reads : String → W.Code → Prop
  right : String → (i : W.Code) → W.Val i → Prop
  unique : ∀ key i i', reads key i → reads key i' → i = i'
  lock : ∀ key i, ¬reads (lockKey key) i
  readsBack : ∀ i, W.ReadsBack i

namespace Layout

variable {W : Setting} (L : Layout W)

/-- A text that holds what is right under a key. -/
def Sound (key : String) (text : W.Text) : Prop := ∀ i, L.reads key i → ∃ v, L.right key i v ∧ W.Holds i v text

/-- All that is cached is right. -/
def Kept (b : Backend W) : Prop := ∀ key text, b.get key = some text → L.Sound key text

/-- What is found is right; of the world's answers, `world` says which are fair. -/
def fair (world : ∀ q, W.Answer q → Prop) : (q : Command W) → Reply q → Prop
  | .get key _, some text => L.Sound key text
  | .outside q, v => world q v
  | _, _ => True

/-- What is set is right; of the world's questions, `world` says which are allowed. -/
def allowed (world : W.Question → Prop) : Command W → Prop
  | .setEx key text _ | .setNxEx key text _ => L.Sound key text
  | .incrWithTtl .. => False
  | .outside q => world q
  | _ => True

variable {L} {world : ∀ q, W.Answer q → Prop} {asked : W.Question → Prop} {i : W.Code} {key : String}

/-- **A key that is read** can be used by a fetch-or-set. -/
theorem usable (hreads : L.reads key i) :
    Usable (L.fair world) (L.allowed asked) i key (L.right key i) where
  breaker q hq := by cases q <;> trivial
  get _ := trivial
  plain text v hfair hv := by
    obtain ⟨w, hright, hholds⟩ := hfair i hreads
    exact (L.readsBack i).plain w text v hholds hv ▸ hright
  entry text e hfair he := by
    obtain ⟨w, hright, hholds⟩ := hfair i hreads
    exact (L.readsBack i).entry w text e hholds he ▸ hright
  setEx v text seconds hright hholds := by
    intro i' hreads'
    obtain rfl := L.unique key i i' hreads hreads'
    exact ⟨v, hright, hholds⟩
  lock text seconds i' hreads' := absurd hreads' (L.lock key i')
  release := trivial

variable {c : Choice W} {b b' : Backend W} {q : Command W} {v : Reply q}

/-- **One command** of those allowed keeps what is cached right. -/
theorem Kept.exec (h : L.Kept b) (hq : L.allowed asked q) (hexec : Cache.exec c b q = some (v, b')) : L.Kept b' := by
  intro key text hget
  rcases get_of_exec hexec hget with hold | hleaves
  · exact h key text hold
  · cases q with
    | setEx k t seconds =>
        obtain ⟨rfl, rfl⟩ := hleaves
        exact hq
    | setNxEx k t seconds =>
        obtain ⟨rfl, rfl⟩ := hleaves
        exact hq
    | incrWithTtl k seconds => exact absurd hq id
    | _ => exact absurd hleaves id

/-- What is found in a cache that is right. -/
theorem Kept.fair (h : L.Kept b) (hq : L.allowed asked q)
    (hworld : ∀ q v' w, asked q → W.answer c.world b.world q = some (v', w) → world q v')
    (hexec : Cache.exec c b q = some (v, b')) : L.fair world q v := by
  cases q with
  | get key f =>
      cases hexec
      cases hget : b.get key with
      | none => trivial
      | some text => exact h key text hget
  | outside q =>
      obtain ⟨⟨r, w⟩, hr, hb⟩ := Option.map_eq_some_iff.mp hexec
      cases hb
      exact hworld q r w hq hr
  | _ => trivial

theorem kept_of_empty (h : b.keys = ∅) : L.Kept b := by
  intro key text hget
  obtain ⟨e, he, -⟩ := get_eq_some_iff.mp hget
  rw [h] at he
  cases he

/-- What is cached stays right as time passes. -/
theorem Kept.tick (h : L.Kept b) (ms : Nat) : L.Kept { b with nowMs := b.nowMs + ms } :=
  fun key text hget => h key text (get_of_tick hget)

/-- **A server over data that does not change.** -/
theorem serves_of_layout {P : Type} {asked : P → W.Question → Prop} {fixed : W.World → Prop}
    (hworld : ∀ c w p q v w', fixed w → asked p q → W.answer c w q = some (v, w') → world q v ∧ fixed w') :
    Machine.Serves (server W) (L.fair world) (fun p : P => L.allowed (asked p)) fun b => L.Kept b ∧ fixed b.world := by
  rintro c b p q v b' ⟨hkept, hfixed⟩ hq hexec
  refine ⟨hkept.fair hq (fun q v w hq hr => (hworld _ _ p q v w hfixed hq hr).1) hexec, hkept.exec hq hexec, ?_⟩
  by_cases hout : ∃ q', q = .outside q'
  · obtain ⟨q', rfl⟩ := hout
    obtain ⟨⟨r, w⟩, hr, hb⟩ := Option.map_eq_some_iff.mp hexec
    cases hb
    exact (hworld _ _ p q' r w hfixed hq hr).2
  · rw [world_of_exec hexec fun q' hq' => hout ⟨q', hq'⟩]
    exact hfixed

end Layout

end PredictIQ.Cache
