/-
  PredictIQ.Cache.SoloCalls: what an operation returns and leaves when nobody
  else is at the cache.

  No time passes and nothing outside changes while the operation runs; Redis
  may fail all the same, before or after a command has taken effect.  `Frame`
  says what stays as it is: everything but some keys.
-/
import PredictIQ.Cache.Rules
import PredictIQ.Foundation.Solo

namespace PredictIQ.Cache

open Foundation Prog

variable {W : Setting}

/-- All but the keys in `ks` is as it was, the state of the breaker apart. -/
structure Frame (ks : String → Prop) (b b' : Backend W) : Prop where
  now : b'.nowMs = b.nowMs
  world : b'.world = b.world
  keys : ∀ k, ¬ks k → b'.keys.lookup k = b.keys.lookup k

namespace Frame

variable {ks ks' : String → Prop} {b b' b'' : Backend W}

theorem refl (b : Backend W) : Frame ks b b := ⟨rfl, rfl, fun _ _ => rfl⟩

theorem trans (h : Frame ks b b') (h' : Frame ks b' b'') : Frame ks b b'' :=
  ⟨h'.now.trans h.now, h'.world.trans h.world, fun k hk => (h'.keys k hk).trans (h.keys k hk)⟩

theorem mono (h : Frame ks b b') (hks : ∀ k, ks k → ks' k) : Frame ks' b b' :=
  ⟨h.now, h.world, fun k hk => h.keys k fun hin => hk (hks k hin)⟩

theorem get (h : Frame ks b b') {k : String} (hk : ¬ks k) : b'.get k = b.get k := by
  unfold Backend.get
  rw [h.keys k hk, h.now]

end Frame

/-- Commands that leave everything but some keys. -/
def Command.Within (ks : String → Prop) : Command W → Prop
  | .get .. => True
  | .setEx key _ _ => ks key
  | q => q.isBreaker = true

section Rules

variable {cfg : RedisCacheConfig} {α : Type} {ks : String → Prop} {b b' : Backend W}

theorem within_of_isBreaker {q : Command W} (hq : q.isBreaker = true) : q.Within ks := by
  cases q <;> first | exact hq | trivial

/-- **One command.** -/
theorem frame_of_exec {c : Choice W} {q : Command W} {v : Reply q} (hq : q.Within ks)
    (h : Cache.exec c b q = some (v, b')) : Frame ks b b' := by
  cases q with
  | setEx key text seconds =>
      simp only [Cache.exec] at h
      split at h
      · cases h
      · cases h
        refine ⟨rfl, rfl, fun k hk => ?_⟩
        have hne : k ≠ key := by
          rintro rfl
          exact hk hq
        show (b.keys.insert key _).lookup k = _
        rw [Store.lookup_insert_eq, if_neg hne]
  | setNxEx => cases hq
  | del => cases hq
  | incrWithTtl => cases hq
  | tagStoreInvalidate => cases hq
  | scan => cases hq
  | delKeys => cases hq
  | outside => cases hq
  | _ =>
      cases h
      exact ⟨rfl, rfl, fun _ _ => rfl⟩

theorem frame_of_answers {q : Command W} {r : Except String (Reply q)} (hq : q.Within ks)
    (h : Machine.Answers (server W) b b' q r) : Frame ks b b' := by
  rcases h with ⟨c, v, -, hexec⟩ | ⟨e, -, rfl | ⟨c, v, hexec⟩⟩
  · exact frame_of_exec hq hexec
  · exact Frame.refl _
  · exact frame_of_exec hq hexec

/-- **A program** of such commands. -/
theorem frame_of_ends {p : CacheM W α} {r : Except String α} (hp : p.Uses (Command.Within ks))
    (h : p.Ends (server W) b r b') : Frame ks b b' :=
  h.keeps (Frame ks) Frame.refl (fun _ _ _ => Frame.trans) (fun _ _ _ _ hq => frame_of_answers hq) hp

theorem frame_of_returns {p : CacheM W α} {a : α} (hp : p.Uses (Command.Within ks))
    (h : p.Returns (server W) b a b') : Frame ks b b' :=
  frame_of_ends hp (returns_iff_ends.mp h)

/-- What the breaker does changes no key. -/
theorem frame_of_breaker {p : CacheM W α} {a : α} (hp : p.Uses fun q => q.isBreaker = true)
    (h : p.Returns (server W) b a b') : Frame ks b b' := by
  have hall : ∀ {γ : Type} {p : CacheM W γ}, p.Uses (fun q => q.isBreaker = true) → p.Uses (Command.Within ks) := by
    intro γ p hp
    induction p with
    | done r => trivial
    | ask q k ih => exact ⟨within_of_isBreaker hp.1, fun r => ih r (hp.2 r)⟩
  exact frame_of_returns (hall hp) h

/-- **An operation that succeeds** has succeeded in one of its attempts. -/
theorem returns_exec {op : CacheM W α} {v : α} (hop : op.Uses (Command.Within ks))
    (h : (cfg.exec op).Returns (server W) b v b') :
    ∃ b₁ b₂, Frame ks b b₁ ∧ op.Returns (server W) b₁ v b₂ ∧ Frame (fun _ => False) b₂ b' := by
  have hbreaker : ∀ q : Command W, q.isBreaker = true → q.isBreaker = true := fun _ h => h
  have hattempts : ∀ left attempt lastErr b, (cfg.attempts op attempt left lastErr).Returns (server W) b v b' →
      ∃ b₁ b₂, Frame ks b b₁ ∧ op.Returns (server W) b₁ v b₂ ∧ Frame (fun _ => False) b₂ b' := by
    intro left
    induction left with
    | zero => exact fun _ _ _ h => absurd h id
    | succ left ih =>
        intro attempt lastErr b h
        -- after a failed attempt: the failure is counted, and the next attempt returns
        have hagain : ∀ b₀ b₁ e, Frame ks b₀ b₁ →
            (cfg.recordFailure >>= fun _ => cfg.attempts op (attempt + 1) left e).Returns (server W) b₁ v b' →
            ∃ b₁ b₂, Frame ks b₀ b₁ ∧ op.Returns (server W) b₁ v b₂ ∧ Frame (fun _ => False) b₂ b' := by
          intro b₀ b₁ e hframe h
          obtain ⟨_, b₂, hfail, h⟩ := returns_bind.mp h
          obtain ⟨b₃, b₄, hframe', hrest⟩ := ih _ _ b₂ h
          have hfail : Frame ks b₁ b₂ := frame_of_breaker (uses_recordFailure hbreaker) hfail
          exact ⟨b₃, b₄, hframe.trans (hfail.trans hframe'), hrest⟩
        -- one attempt: a connection, then the operation, which may end with an error
        have htry : ∀ b, (cfg.tryOnce op fun e => cfg.attempts op (attempt + 1) left e).Returns (server W) b v b' →
            ∃ b₁ b₂, Frame ks b b₁ ∧ op.Returns (server W) b₁ v b₂ ∧ Frame (fun _ => False) b₂ b' := by
          intro b h
          obtain ⟨conn, b₁, hconn, h⟩ := returns_bind.mp h
          have hpool : (ask (W := W) .poolGet).Uses fun q => q.isBreaker = true := Prog.uses_call.mpr rfl
          have hpooled : Frame ks b b₁ := frame_of_breaker hpool.attempt hconn
          cases conn with
          | error e => exact hagain b b₁ _ hpooled h
          | ok _ =>
              obtain ⟨r, b₂, hr, h⟩ := returns_bind.mp h
              cases r with
              | error e =>
                  have hframe : Frame ks b₁ b₂ := frame_of_ends hop (returns_attempt.mp hr)
                  exact hagain b b₂ e (hpooled.trans hframe) h
              | ok a =>
                  obtain ⟨_, b₃, hsuccess, h⟩ := returns_bind.mp h
                  obtain ⟨rfl, rfl⟩ := returns_pure.mp h
                  exact ⟨b₁, b₂, hpooled, returns_iff_ends.mpr (returns_attempt.mp hr),
                    frame_of_breaker (uses_recordSuccess hbreaker) hsuccess⟩
        unfold RedisCacheConfig.attempts at h
        split at h
        · obtain ⟨_, b₁, hsleep, h⟩ := returns_bind.mp h
          have hsleep : Frame ks b b₁ := frame_of_breaker (Prog.uses_call.mpr rfl) hsleep
          obtain ⟨b₂, b₃, hframe, hrest⟩ := htry b₁ h
          exact ⟨b₂, b₃, hsleep.trans hframe, hrest⟩
        · exact htry b h
  obtain ⟨allowed, b₁, hallow, h⟩ := returns_bind.mp h
  have hallow : Frame ks b b₁ := frame_of_breaker (uses_allow hbreaker) hallow
  split at h
  · obtain ⟨b₂, b₃, hframe, hrest⟩ := hattempts _ _ _ b₁ h
    exact ⟨b₂, b₃, hallow.trans hframe, hrest⟩
  · exact absurd h id

/-- **A value that is read** is the one under its key. -/
theorem returns_getJson {f : Format W.Code} {key : String} {found : Option (W.Held f)}
    (h : (cfg.getJson f key).Returns (server W) b found b') :
    W.parse f (b.get key) = .ok found ∧ Frame (fun _ => False) b b' := by
  have hop : (do
      let val ← ask (W := W) (.get key f)
      RedisCacheConfig.ofSerde (W.parse f val)).Uses (Command.Within fun _ => False) :=
    Prog.Uses.bind (Prog.uses_call.mpr trivial) fun _ => Prog.uses_done _
  obtain ⟨b₁, b₂, hframe, hread, hrest⟩ := returns_exec hop h
  obtain ⟨val, b₃, hget, hparse⟩ := returns_bind.mp hread
  obtain ⟨c, hexec⟩ := returns_call.mp hget
  cases hexec
  rw [hframe.get id] at hparse
  cases hval : W.parse f (b.get key) with
  | error e =>
      rw [hval] at hparse
      exact absurd hparse id
  | ok v =>
      rw [hval] at hparse
      obtain ⟨rfl, rfl⟩ := hparse
      exact ⟨rfl, hframe.trans hrest⟩

/-- **A value that is written** is under its key, and will be for its time. -/
theorem returns_setJson {i : W.Code} {key : String} {value : W.Val i} {ttl : Nat}
    (h : (cfg.setJson i key value ttl).Returns (server W) b () b') :
    Frame (· = key) b b' ∧ ∃ text, (W.plain i).toString value = .ok text
      ∧ b'.keys.lookup key = some ⟨text, b.nowMs + 1000 * ttl⟩ := by
  unfold RedisCacheConfig.setJson at h
  cases htext : (W.plain i).toString value with
  | error e =>
      rw [htext] at h
      exact absurd h id
  | ok text =>
      rw [htext] at h
      -- the attempt that succeeded is the last to write the key
      have hop : (ask (W := W) (.setEx key text ttl)).Uses (Command.Within (· = key)) := Prog.uses_call.mpr rfl
      obtain ⟨b₁, b₂, hframe, hset, hrest⟩ := returns_exec hop (show (cfg.exec _).Returns (server W) b () b' from h)
      obtain ⟨c, hexec⟩ := returns_call.mp hset
      have hexec : Cache.exec c b₁ (.setEx key text ttl) = some ((), b₂) := hexec
      have hwithin : (Command.setEx (W := W) key text ttl).Within (· = key) := rfl
      have hwritten := frame_of_exec hwithin hexec
      refine ⟨(hframe.trans hwritten).trans (hrest.mono fun _ h => absurd h id), text, rfl, ?_⟩
      rw [hrest.keys key id]
      simp only [Cache.exec] at hexec
      split at hexec
      · cases hexec
      · cases hexec
        show (b₁.keys.insert key _).lookup key = _
        rw [Store.lookup_insert_eq, if_pos rfl, hframe.now]

end Rules

end PredictIQ.Cache
