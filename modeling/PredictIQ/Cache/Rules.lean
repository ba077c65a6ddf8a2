/-
  PredictIQ.Cache.Rules: what the operations of the cache ask.

  The rules are for any monitor that does not mind the commands of the circuit
  breaker and the clock.  `triple_exec` is about the retries: an attempt that
  fails must leave what the next one needs.  `uses_getOrSetJson` lists the
  commands of a fetch-or-set.
-/
import PredictIQ.Cache.RedisCache
import PredictIQ.Foundation.Triple

namespace PredictIQ.Cache

open Foundation Monitor

/-- The commands around an operation: the clock, the breaker and the pool. -/
def Command.isBreaker {W : Setting} : Command W → Bool
  | .nowMs | .sleep _ | .loadOpenedAt | .storeOpenedAt _ | .fetchAddFailureCount | .storeFailureCount _
  | .xfetchScore .. | .poolGet => true
  | _ => false

variable {W : Setting} {cfg : RedisCacheConfig} {α : Type} {S : Command W → Prop}

/-! ## §1. The breaker. -/

section Breaker

variable (hbreaker : ∀ q : Command W, q.isBreaker = true → S q)

include hbreaker

theorem uses_allow : (cfg.allow (W := W)).Uses S := by
  refine Prog.Uses.bind (Prog.uses_call.mpr (hbreaker _ rfl)) fun openedAt => ?_
  split
  · exact Prog.uses_pure true
  · exact Prog.Uses.bind (Prog.uses_call.mpr (hbreaker _ rfl)) fun now => Prog.uses_pure _

theorem uses_recordSuccess : (RedisCacheConfig.recordSuccess (W := W)).Uses S :=
  Prog.Uses.bind (Prog.uses_call.mpr (hbreaker _ rfl)) fun _ => Prog.uses_call.mpr (hbreaker _ rfl)

theorem uses_recordFailure : (cfg.recordFailure (W := W)).Uses S := by
  refine Prog.Uses.bind (Prog.uses_call.mpr (hbreaker _ rfl)) fun prev => ?_
  split
  · refine Prog.Uses.bind (Prog.uses_call.mpr (hbreaker _ rfl)) fun openedAt => ?_
    split
    · exact Prog.Uses.bind (Prog.uses_call.mpr (hbreaker _ rfl)) fun now => Prog.uses_call.mpr (hbreaker _ rfl)
    · exact Prog.uses_pure ()
  · exact Prog.uses_pure ()

theorem uses_attempts {op : CacheM W α} (hop : op.Uses S) (attempt left : Nat) (lastErr : String) :
    (cfg.attempts op attempt left lastErr).Uses S := by
  induction left generalizing attempt lastErr with
  | zero => exact Prog.uses_fail lastErr
  | succ left ih =>
      have htry : (cfg.tryOnce op fun lastErr => cfg.attempts op (attempt + 1) left lastErr).Uses S := by
        refine Prog.Uses.bind (Prog.uses_call.mpr (hbreaker _ rfl)).attempt fun conn => ?_
        cases conn with
        | error e => exact Prog.Uses.bind (uses_recordFailure hbreaker) fun _ => ih _ _
        | ok _ =>
            refine Prog.Uses.bind hop.attempt fun r => ?_
            cases r with
            | error e => exact Prog.Uses.bind (uses_recordFailure hbreaker) fun _ => ih _ _
            | ok v => exact Prog.Uses.bind (uses_recordSuccess hbreaker) fun _ => Prog.uses_pure v
      unfold RedisCacheConfig.attempts
      split
      · exact Prog.Uses.bind (Prog.uses_call.mpr (hbreaker _ rfl)) fun _ => htry
      · exact htry

theorem uses_exec {op : CacheM W α} (hop : op.Uses S) : (cfg.exec op).Uses S := by
  refine Prog.Uses.bind (uses_allow hbreaker) fun allowed => ?_
  split
  · exact uses_attempts hbreaker hop _ _ _
  · exact Prog.uses_fail _

theorem uses_delByPattern {start : String} {rounds : Nat} (hscan : ∀ cursor, S (.scan cursor start))
    (hdel : ∀ ks, S (.delKeys ks)) : (cfg.delByPattern (W := W) start rounds).Uses S := by
  have hbatch : ∀ cursor, (RedisCacheConfig.scanBatch (W := W) cursor start).Uses S := by
    intro cursor
    refine Prog.Uses.bind (Prog.uses_call.mpr (hscan cursor)) fun found => ?_
    split
    · exact Prog.uses_pure _
    · exact Prog.Uses.bind (Prog.uses_call.mpr (hdel _)) fun deleted => Prog.uses_pure _
  have hbatches : ∀ cursor total, (cfg.scanBatches (W := W) start rounds cursor total).Uses S := by
    induction rounds with
    | zero => exact fun _ _ => Prog.uses_pure none
    | succ rounds ih =>
        intro cursor total
        refine Prog.Uses.bind (uses_exec hbreaker (hbatch cursor)) fun batch => ?_
        split
        · exact Prog.uses_pure _
        · exact ih _ _
  refine Prog.Uses.bind (uses_allow hbreaker) fun allowed => ?_
  split
  · exact hbatches 0 0
  · exact Prog.uses_fail _

end Breaker

/-! ## §2. Fetch or set. -/

section FetchOrSet

variable {i : W.Code} {key : String} (hbreaker : ∀ q : Command W, q.isBreaker = true → S q)
  (hget : ∀ f, S (.get key f)) (hset : ∀ text seconds, S (.setEx key text seconds))

include hbreaker hget

theorem uses_getJson (f : Format W.Code) : (cfg.getJson f key).Uses S :=
  uses_exec hbreaker (Prog.Uses.bind (Prog.uses_call.mpr (hget f)) fun _ => Prog.uses_done _)

theorem uses_found (f : Format W.Code) : (RedisCacheConfig.okSome (cfg.getJson f key)).Uses S := by
  refine Prog.Uses.bind (uses_getJson hbreaker hget f).attempt fun found => ?_
  cases found with
  | ok found => exact Prog.uses_pure found
  | error e => exact Prog.uses_pure none

theorem uses_cachedValue : (cfg.cachedValue i key).Uses S := by
  refine Prog.Uses.bind (uses_found hbreaker hget (.entry i)) fun found => ?_
  cases found with
  | none => exact uses_found hbreaker hget (.plain i)
  | some e =>
      have hrefresh : (RedisCacheConfig.xfetchShouldRefresh (W := W) e).Uses S := by
        refine Prog.Uses.bind (Prog.uses_call.mpr (hbreaker _ rfl)) fun now => ?_
        dsimp only
        split
        · exact Prog.uses_pure true
        · exact Prog.uses_call.mpr (hbreaker _ rfl)
      refine Prog.Uses.bind hrefresh fun refresh => ?_
      split
      · exact Prog.uses_pure none
      · exact Prog.uses_pure _

theorem uses_poll (n : Nat) : (cfg.poll i key n).Uses S := by
  induction n with
  | zero => exact Prog.uses_pure none
  | succ n ih =>
      refine Prog.Uses.bind (Prog.uses_call.mpr (hbreaker _ rfl)) fun _ => ?_
      refine Prog.Uses.bind (uses_found hbreaker hget (.entry i)) fun found => ?_
      cases found with
      | some e => exact Prog.uses_pure _
      | none =>
          refine Prog.Uses.bind (uses_found hbreaker hget (.plain i)) fun found => ?_
          cases found with
          | some value => exact Prog.uses_pure _
          | none =>
              refine Prog.Uses.bind (uses_allow hbreaker) fun allowed => ?_
              split
              · exact ih
              · exact Prog.uses_pure none

include hset

omit hget in
theorem uses_setJson (value : W.Val i) (ttl : Nat) : (cfg.setJson i key value ttl).Uses S :=
  Prog.Uses.bind (Prog.uses_done _) fun raw => uses_exec hbreaker (Prog.uses_call.mpr (hset raw ttl))

/-- **A fetch-or-set** asks for its key, sets it, and takes and releases its
lock, beside what the fetcher asks. -/
theorem uses_getOrSetJson {ttl : Nat} {fetcher : CacheM W (W.Val i)}
    (hlock : ∀ text seconds, S (.setNxEx (lockKey key) text seconds)) (hrelease : S (.del (lockKey key)))
    (hfetcher : fetcher.Uses S) : (cfg.getOrSetJson i key ttl fetcher).Uses S := by
  have hfetched : ∀ {β : Type} {f : W.Val i → CacheM W β}, (∀ value, (f value).Uses S) → (fetcher >>= f).Uses S :=
    fun hf => Prog.Uses.bind hfetcher hf
  refine Prog.Uses.bind (uses_allow hbreaker) fun allowed => ?_
  split
  · refine Prog.Uses.bind (uses_cachedValue hbreaker hget) fun found => ?_
    cases found with
    | some value => exact Prog.uses_pure _
    | none =>
        have hacquired : (cfg.lockAcquired (W := W) key).Uses S := by
          refine Prog.Uses.bind (uses_exec hbreaker (Prog.uses_call.mpr (hlock _ _))).attempt fun r => ?_
          cases r with
          | ok acquired => exact Prog.uses_pure acquired
          | error e => exact Prog.uses_pure false
        refine Prog.Uses.bind hacquired fun acquired => ?_
        split
        · -- the holder of the lock
          refine Prog.Uses.bind (Prog.uses_call.mpr (hbreaker _ rfl)) fun start => hfetched fun value => ?_
          refine Prog.Uses.bind (Prog.uses_call.mpr (hbreaker _ rfl)) fun finish => ?_
          refine Prog.Uses.bind (Prog.uses_call.mpr (hbreaker _ rfl)) fun now => ?_
          refine Prog.Uses.bind (Prog.Uses.attempt (Prog.Uses.bind (Prog.uses_done _) fun raw =>
            uses_exec hbreaker (Prog.uses_call.mpr (hset raw _)))) fun _ => ?_
          refine Prog.Uses.bind (Prog.Uses.attempt (uses_exec hbreaker (Prog.Uses.bind
            (Prog.uses_call.mpr hrelease) fun _ => Prog.uses_pure ()))) fun _ => Prog.uses_pure _
        · -- who waits for it
          refine Prog.Uses.bind (uses_poll hbreaker hget 20) fun found => ?_
          cases found with
          | some value => exact Prog.uses_pure _
          | none =>
              exact hfetched fun value => Prog.Uses.bind (uses_setJson hbreaker hset value ttl).attempt
                fun _ => Prog.uses_pure _
  · exact hfetched fun value => Prog.uses_pure _

end FetchOrSet

/-! ## §3. Operations under a monitor. -/

section Monitored

variable {Φ : Type} {M : Monitor (Reply (W := W)) String Φ} {A : Φ → Prop} {B : Φ → α → Prop}
  (hquiet : ∀ q : Command W, q.isBreaker = true → M.Quiet q)

include hquiet

/-- **Retries.**  An attempt leaves what the next one needs. -/
theorem triple_exec {op : CacheM W α} (hop : M.Triple A op B A) (hback : ∀ φ v, B φ v → A φ) :
    M.Triple A (cfg.exec op) B A := by
  have hquietly : ∀ {β : Type} {p : CacheM W β} {f : β → CacheM W α}, p.Uses M.Quiet →
      (∀ b, M.Triple A (f b) B A) → M.Triple A (p >>= f) B A :=
    fun hp hf => triple_bind (triple_of_quiet hp) hf
  have hattempts : ∀ left attempt lastErr, M.Triple A (cfg.attempts op attempt left lastErr) B A := by
    intro left
    induction left with
    | zero => exact fun _ _ => triple_fail fun _ h => h
    | succ left ih =>
        intro attempt lastErr
        have htry : M.Triple A (cfg.tryOnce op fun e => cfg.attempts op (attempt + 1) left e) B A := by
          refine triple_attempt_bind (triple_of_quiet (Prog.uses_call.mpr (hquiet _ rfl))) (fun _ => ?_) fun e => ?_
          · refine triple_attempt_bind hop (fun v => ?_) fun e => hquietly (uses_recordFailure hquiet) fun _ => ih _ _
            refine triple_bind ((triple_of_quiet (uses_recordSuccess hquiet)).conseq (fun _ h => h) (fun _ _ h => h)
              fun φ h => hback φ v h) fun _ => triple_pure fun _ h => h
          · exact hquietly (uses_recordFailure hquiet) fun _ => ih _ _
        unfold RedisCacheConfig.attempts
        split
        · exact hquietly (Prog.uses_call.mpr (hquiet _ rfl)) fun _ => htry
        · exact htry
  refine hquietly (uses_allow hquiet) fun allowed => ?_
  split
  · exact hattempts _ _ _
  · exact triple_fail fun _ h => h

end Monitored

section Steady

variable {Φ : Type} {M : Monitor (Reply (W := W)) String Φ} {x : Φ} {A : Φ → Prop} {B : Φ → α → Prop}

/-- A monitor that excuses whoever meets an error or an open circuit, and does
not mind the rest of what happens around an operation. -/
structure Steady (M : Monitor (Reply (W := W)) String Φ) (x : Φ) : Prop where
  absorbing : M.Absorbing x
  error : ∀ φ q e, M.next φ q (.error e) = x
  loadOpenedAt : ∀ φ, M.allows φ .loadOpenedAt ∧ M.next φ .loadOpenedAt (.ok (0 : Nat)) = φ
    ∧ ∀ openedAt : Nat, openedAt ≠ 0 → M.next φ .loadOpenedAt (.ok openedAt) = x
  poolGet : ∀ φ, M.allows φ .poolGet ∧ M.next φ .poolGet (.ok ()) = φ
  storeFailureCount : ∀ φ, M.allows φ (.storeFailureCount 0) ∧ M.next φ (.storeFailureCount 0) (.ok ()) = φ
  storeOpenedAt : ∀ φ, M.allows φ (.storeOpenedAt 0) ∧ M.next φ (.storeOpenedAt 0) (.ok ()) = φ

/-- **An operation under a closed circuit**, at the first attempt. -/
theorem leads_exec_of_steady (hM : Steady M x) {op : CacheM W α} (hop : M.Leads x A op B) : M.Leads x A (cfg.exec op) B := by
  have hallow : M.Leads x A (cfg.allow (W := W)) fun φ allowed => A φ ∧ allowed = true := by
    refine leads_bind hM.absorbing (B := fun φ openedAt => A φ ∧ openedAt = 0) (leads_call
      (fun φ _ => (hM.loadOpenedAt φ).1) (fun φ openedAt hφ => ?_) fun φ e _ => hM.error φ _ e) fun openedAt => ?_
    · by_cases hclosed : openedAt = (0 : Nat)
      · subst hclosed
        rw [(hM.loadOpenedAt φ).2.1]
        exact .inr ⟨hφ, rfl⟩
      · exact .inl ((hM.loadOpenedAt φ).2.2 openedAt hclosed)
    · refine triple_of_fact (fun φ hφ => hφ.2) fun hclosed => ?_
      rw [if_pos hclosed]
      exact leads_pure fun φ hφ => ⟨hφ.1, rfl⟩
  have hrecord : ∀ v, M.Leads x (B · v) (RedisCacheConfig.recordSuccess (W := W) >>= fun _ => pure v) B := by
    intro v
    refine leads_bind hM.absorbing (B := fun φ _ => B φ v) (leads_bind hM.absorbing (B := fun φ _ => B φ v)
      (leads_call (fun φ _ => (hM.storeFailureCount φ).1) (fun φ _ hφ => ?_) fun φ e _ => hM.error φ _ e) fun _ =>
      leads_call (fun φ _ => (hM.storeOpenedAt φ).1) (fun φ _ hφ => ?_) fun φ e _ => hM.error φ _ e) fun _ =>
        leads_pure fun φ hφ => hφ
    · exact .inr ((hM.storeFailureCount φ).2.symm ▸ hφ)
    · exact .inr ((hM.storeOpenedAt φ).2.symm ▸ hφ)
  refine leads_bind hM.absorbing hallow fun allowed => triple_of_fact (fun φ hφ => hφ.2) fun hallowed => ?_
  rw [if_pos hallowed]
  unfold RedisCacheConfig.attempts
  rw [if_neg (by omega)]
  refine leads_attempt_bind hM.absorbing (B := fun φ _ => A φ) (leads_call (fun φ _ => (hM.poolGet φ).1)
    (fun φ _ hφ => .inr ((hM.poolGet φ).2.symm ▸ hφ.1)) fun φ e _ => hM.error φ _ e) fun _ => ?_
  exact leads_attempt_bind hM.absorbing hop hrecord

end Steady

/-! ## §4. What a command leaves under a key. -/

section Keys

variable {c : Choice W} {b b' : Backend W} {q : Command W} {v : Reply q} {key : String} {text : W.Text}

theorem get_eq_some_iff : b.get key = some text ↔
    ∃ e, b.keys.lookup key = some e ∧ b.nowMs < e.expiresAtMs ∧ e.text = text := by
  unfold Backend.get
  cases b.keys.lookup key with
  | none => simp
  | some e => simp

/-- What is there later was there before. -/
theorem get_of_tick {ms : Nat} (h : ({ b with nowMs := b.nowMs + ms } : Backend W).get key = some text) :
    b.get key = some text := by
  obtain ⟨e, he, hnow, rfl⟩ := get_eq_some_iff.mp h
  have hnow : b.nowMs + ms < e.expiresAtMs := hnow
  exact get_eq_some_iff.mpr ⟨e, he, by omega, rfl⟩

theorem get_setEx {k : String} {t : W.Text} {seconds : Nat} (h : (b.setEx k t seconds).get key = some text) :
    b.get key = some text ∨ key = k ∧ text = t := by
  obtain ⟨e, he, hnow, rfl⟩ := get_eq_some_iff.mp h
  have he : (b.keys.insert k ⟨t, b.nowMs + 1000 * seconds⟩).lookup key = some e := he
  rw [Store.lookup_insert_eq] at he
  split at he
  · cases he
    exact .inr ⟨‹_›, rfl⟩
  · exact .inl (get_eq_some_iff.mpr ⟨e, he, hnow, rfl⟩)

/-- Removing keys adds none. -/
theorem get_of_eraseAll {ks : List String} (h : ({ b with keys := b.keys.eraseAll ks } : Backend W).get key = some text) :
    b.get key = some text := by
  obtain ⟨e, he, hnow, rfl⟩ := get_eq_some_iff.mp h
  exact get_eq_some_iff.mpr ⟨e, Store.lookup_of_lookup_eraseAll he, hnow, rfl⟩

/-- A write leaves the other keys. -/
theorem get_of_insert_ne {k : String} {e : KeyEntry W.Text} (hne : key ≠ k)
    (h : ({ b with keys := b.keys.insert k e } : Backend W).get key = some text) : b.get key = some text := by
  obtain ⟨e', he, hnow, rfl⟩ := get_eq_some_iff.mp h
  have he : (b.keys.insert k e).lookup key = some e' := he
  rw [Store.lookup_insert_eq, if_neg hne] at he
  exact get_eq_some_iff.mpr ⟨e', he, hnow, rfl⟩

/-- The texts that a command may leave under a key. -/
def Command.Leaves (key : String) (text : W.Text) : Command W → Prop
  | .setEx k t _ | .setNxEx k t _ => key = k ∧ text = t
  | .incrWithTtl k _ => key = k
  | _ => False

/-- What is under a key after a command was there before, or comes of the command. -/
theorem get_of_exec (h : exec c b q = some (v, b')) (hget : b'.get key = some text) :
    b.get key = some text ∨ q.Leaves key text := by
  cases q with
  | setEx k t seconds =>
      simp only [exec] at h
      split at h
      · cases h
      · cases h
        exact get_setEx hget
  | setNxEx k t seconds =>
      simp only [exec] at h
      split at h
      · cases h
      · split at h
        · cases h
          exact .inl hget
        · cases h
          exact get_setEx hget
  | del k =>
      cases h
      have herased : ({ b with keys := b.keys.eraseAll [k] } : Backend W).get key = some text := hget
      exact .inl (get_of_eraseAll herased)
  | delKeys ks =>
      cases h
      exact .inl (get_of_eraseAll hget)
  | incrWithTtl k seconds =>
      by_cases hkey : key = k
      · exact .inr hkey
      · refine .inl ?_
        simp only [exec, Backend.incrWithTtl] at h
        split at h
        · split at h
          · split at h
            · split at h
              · cases h
                exact get_of_insert_ne hkey hget
              · split at h
                · cases h
                  exact get_of_insert_ne hkey hget
                · cases h
            · cases h
          · cases h
            exact get_of_insert_ne hkey hget
        · cases h
          exact get_of_insert_ne hkey hget
  | outside q =>
      obtain ⟨⟨r, w⟩, -, hb⟩ := Option.map_eq_some_iff.mp h
      cases hb
      exact .inl hget
  | _ =>
      cases h
      exact .inl hget

/-- Only a question to the world changes it. -/
theorem world_of_exec (h : exec c b q = some (v, b')) (hq : ∀ q', q ≠ .outside q') : b'.world = b.world := by
  cases q with
  | outside q => exact absurd rfl (hq q)
  | setEx k t seconds =>
      simp only [exec] at h
      split at h <;> cases h
      rfl
  | setNxEx k t seconds =>
      simp only [exec] at h
      split at h
      · cases h
      · split at h <;> cases h <;> rfl
  | incrWithTtl k seconds =>
      simp only [exec, Backend.incrWithTtl] at h
      split at h
      · split at h
        · split at h
          · split at h
            · cases h; rfl
            · split at h <;> cases h
              rfl
          · cases h
        · cases h; rfl
      · cases h; rfl
  | _ =>
      cases h
      rfl

end Keys

/-! ## §5. The server's reply. -/

section Replies

variable {b b' : Backend W} {q : Command W} {P τ η : Type} {p : P} {a : Act P τ String (Choice W) η}

/-- What an answer says of the store: that of the command, or nothing. -/
def Answers (b b' : Backend W) (q : Command W) (r : Except String (Reply q)) : Prop :=
  (∃ o v, r = .ok v ∧ exec o b q = some (v, b')) ∨ ∃ e, r = .error e ∧ (b' = b ∨ ∃ o v, exec o b q = some (v, b'))

/-- The reply of the server, as the process and the store see it. -/
theorem answers_of_reply {r : Except String (Reply q)} (ha : a.asker = some p)
    (hr : Machine.reply (server W) b a q = some (b', r)) : Answers b b' q r :=
  Machine.answers_of_reply (server W) ha hr

/-- A command that is answered has been carried out. -/
theorem performs_of_reply {m : Machine P (Reply (W := W)) String (Backend W)} {v : Reply q} (ha : a.asker = some p)
    (hq : (m.procs p).map (·.question) = some q) (hr : Machine.reply (server W) b a q = some (b', .ok v)) :
    m.performs a = some q := by
  rcases Machine.reply_cases (server W) ha hr with ⟨o, v', rfl, -, -⟩ | ⟨e, -, he, -⟩ | ⟨o, e, v', -, he, -⟩
  · exact hq
  · cases he
  · cases he

/-- What a store that answers holds was there before, or is left by the command. -/
theorem get_of_answers {r : Except String (Reply q)} {key : String} {text : W.Text} (h : Answers b b' q r)
    (hget : b'.get key = some text) : b.get key = some text ∨ q.Leaves key text := by
  rcases h with ⟨o, v, -, hexec⟩ | ⟨e, -, rfl | ⟨o, v, hexec⟩⟩
  · exact get_of_exec hexec hget
  · exact .inl hget
  · exact get_of_exec hexec hget

/-- What a `GET` finds. -/
theorem found_of_answers {key : String} {f : Format W.Code} {found : Option W.Text}
    (h : Answers b b' (.get key f) (.ok found)) : found = b.get key ∧ b' = b := by
  rcases h with ⟨o, v, hv, hexec⟩ | ⟨e, he, -⟩
  · cases hv
    cases hexec
    exact ⟨rfl, rfl⟩
  · cases he

end Replies

end PredictIQ.Cache
