/-
  PredictIQ.Api.RateLimit: the sliding window of `rate_limit.rs`.

  The Lua script is one step on a key of Redis: it adds the call to the
  window, evicts what is no longer in it, counts, and sets the expiry.  What
  the key holds at the next call is the calls before it that are still in the
  window (`Window`), so that a call is refused for their number alone.  That
  fails where the window start is not before the call itself.
-/
import PredictIQ.Foundation.Run
import PredictIQ.Foundation.SortedSet
import PredictIQ.Foundation.Store
import Mathlib.Data.String.Basic

namespace PredictIQ.RateLimit

open Foundation

/-! ## §1. Sorted sets under keys that expire. -/

/-- A sorted set, and the millisecond that its key expires. -/
structure WindowKey where
  set : SortedSet String
  expiresAtMs : Option Nat

abbrev Redis : Type := Store String WindowKey

namespace Redis

variable (db : Redis) (nowMs : Nat) (key : String)

/-- What is under a key, unless it has expired. -/
def live : Option WindowKey :=
  (db.lookup key).filter fun k => k.expiresAtMs.all fun expiresAtMs => nowMs < expiresAtMs

def zadd (score : Nat) (member : String) : Redis :=
  match db.live nowMs key with
  | some k => db.insert key { k with set := k.set.zadd score member }
  | none => db.insert key ⟨SortedSet.empty.zadd score member, none⟩

/-- A key without members is none. -/
def zremrangebyscore (max : Nat) : Redis :=
  match db.live nowMs key with
  | some k =>
      let set := k.set.zremrangebyscore max
      if set.zcard = 0 then db.erase key else db.insert key { k with set := set }
  | none => db

def zcard : Nat :=
  match db.live nowMs key with
  | some k => k.set.zcard
  | none => 0

/-- `none` for an expiry that is no signed 64-bit number. -/
def expire (seconds : Nat) : Option Redis :=
  if nowMs + 1000 * seconds < 2 ^ 63 then
    match db.live nowMs key with
    | some k => some (db.insert key { k with expiresAtMs := some (nowMs + 1000 * seconds) })
    | none => some db
  else none

end Redis

/-! ## §2. The script and `check_rate_limit`. -/

/-- The count, `none` when the last command fails; what the others wrote stays. -/
def slidingWindowScript (db : Redis) (key : String) (now windowStart ttl : Nat) (member : String) :
    Option Nat × Redis :=
  let db := db.zadd now key now member
  let db := db.zremrangebyscore now key windowStart
  let count := db.zcard now key
  match db.expire now key ttl with
  | some db => (some count, db)
  | none => (none, db)

structure RateLimitConfig where
  maxRequests : UInt64
  windowSeconds : UInt64
  keyPrefix : String

/-- A call: the clock of the API and of Redis, and the random number drawn. -/
structure RateCall where
  nowMs : UInt64
  uuid : Nat
  deriving DecidableEq

def RateCall.member (c : RateCall) : String := toString c.nowMs ++ "-" ++ toString c.uuid

namespace RateLimitConfig

variable (cfg : RateLimitConfig) (clientKey : String)

def redisKey : String := cfg.keyPrefix ++ ":" ++ clientKey ++ ":" ++ toString cfg.windowSeconds

/-- `now_ms.saturating_sub(window_seconds * 1_000)`. -/
def windowStartMs (now : UInt64) : Nat := now.toNat - (cfg.windowSeconds * 1000).toNat

def checkRateLimit (db : Redis) (c : RateCall) : Except UInt64 Nat × Redis :=
  match slidingWindowScript db (cfg.redisKey clientKey) c.nowMs.toNat (cfg.windowStartMs c.nowMs)
      (cfg.windowSeconds + 1).toNat c.member with
  | (some count, db) =>
      if cfg.maxRequests.toNat < count then (.error cfg.windowSeconds, db) else (.ok count, db)
  | (none, db) => (.error cfg.windowSeconds, db)

/-- What a call leaves in Redis. -/
def step (db : Redis) (c : RateCall) : Redis := (cfg.checkRateLimit clientKey db c).2

/-- A call that is let through. -/
def admits (db : Redis) (c : RateCall) : Bool := (cfg.checkRateLimit clientKey db c).1.isOk

/-- The calls that are let through. -/
def admitted (db : Redis) (calls : List RateCall) : List RateCall :=
  ((trace (cfg.step clientKey) db calls).filter fun x => cfg.admits clientKey x.pre x.act).map (·.act)

/-! ## §3. What the limit promises. -/

/-- The length of the window. -/
def windowMs : Nat := 1000 * cfg.windowSeconds.toNat

/-- A call was made less than the window before a time. -/
def InWindow (now : UInt64) (d : RateCall) : Prop := now.toNat < d.nowMs.toNat + cfg.windowMs

instance (now : UInt64) (d : RateCall) : Decidable (cfg.InWindow now d) :=
  inferInstanceAs (Decidable (_ < _))

/-- A call is refused exactly when as many others were made in its window as the limit. -/
def RefusesAtLimit (db : Redis) (calls : List RateCall) : Prop :=
  ∀ past c, past ++ [c] <+: calls →
    (cfg.admits clientKey (run (cfg.step clientKey) db past) c = false
      ↔ cfg.maxRequests.toNat ≤ (past.filter fun d => cfg.InWindow c.nowMs d).length)

/-- No half-open interval of the window's length has more admitted calls than the limit. -/
def AdmitsAtMost (db : Redis) (calls : List RateCall) : Prop :=
  ∀ start : Int, ((cfg.admitted clientKey db calls).filter fun c =>
    start ≤ c.nowMs.toNat ∧ c.nowMs.toNat < start + cfg.windowMs).length ≤ cfg.maxRequests.toNat

end RateLimitConfig

/-- Calls one after another, with members that are unique. -/
structure Calls (calls : List RateCall) : Prop where
  ordered : calls.Pairwise fun c d => c.nowMs ≤ d.nowMs
  unique : (calls.map RateCall.member).Nodup

theorem Calls.of_prefix {calls past : List RateCall} (h : Calls calls) (hp : past <+: calls) :
    Calls past :=
  ⟨h.ordered.sublist hp.sublist, h.unique.sublist (hp.sublist.map _)⟩

/-! ## §4. What one run of the script does. -/

namespace Redis

variable {db : Redis} {nowMs : Nat} {key : String}

/-- The members under a key, none when it has expired. -/
def liveSet (db : Redis) (nowMs : Nat) (key : String) : SortedSet String :=
  match db.live nowMs key with
  | some k => k.set
  | none => .empty

theorem liveSet_of_lookup_none (h : db.lookup key = none) : db.liveSet nowMs key = .empty := by
  simp [liveSet, live, h]

/-- A key that is there has its members until it expires. -/
theorem liveSet_of_lookup {set : SortedSet String} {expiresAtMs : Nat}
    (h : db.lookup key = some ⟨set, some expiresAtMs⟩) :
    db.liveSet nowMs key = if nowMs < expiresAtMs then set else .empty := by
  unfold liveSet live
  rw [h]
  by_cases hlive : nowMs < expiresAtMs <;> simp [Option.filter, hlive]

/-- A key without an expiry, or with one that has not come, is there. -/
theorem live_insert {k : WindowKey} (h : k.expiresAtMs.all fun t => nowMs < t) :
    live (db.insert key k) nowMs key = some k := by
  unfold live
  rw [AList.lookup_insert]
  simp [Option.filter, h]

variable (db nowMs key) in
/-- The key that an addition leaves. -/
theorem exists_zadd (score : Nat) (member : String) :
    ∃ k : WindowKey, k.set = (db.liveSet nowMs key).zadd score member
      ∧ (k.expiresAtMs.all fun t => nowMs < t) = true
      ∧ db.zadd nowMs key score member = db.insert key k := by
  unfold zadd liveSet
  cases hlive : db.live nowMs key with
  | none => exact ⟨_, rfl, rfl, rfl⟩
  | some k =>
      obtain ⟨_, hk⟩ := Option.filter_eq_some_iff.mp hlive
      exact ⟨{ k with set := k.set.zadd score member }, rfl, hk, rfl⟩

end Redis

/-- What the window holds after the script, from what it held before. -/
def windowAfter (set : SortedSet String) (now windowStart : Nat) (member : String) : SortedSet String :=
  (set.zadd now member).zremrangebyscore windowStart

/-- The script counts the window that it leaves, and leaves it until its expiry. -/
theorem slidingWindowScript_eq (db : Redis) (key : String) {now : Nat} (windowStart : Nat) {ttl : Nat}
    (member : String) (hexpire : now + 1000 * ttl < 2 ^ 63) :
    let after := windowAfter (db.liveSet now key) now windowStart member
    (slidingWindowScript db key now windowStart ttl member).1 = some after.zcard
      ∧ (slidingWindowScript db key now windowStart ttl member).2.lookup key
        = if after.zcard = 0 then none else some ⟨after, some (now + 1000 * ttl)⟩ := by
  obtain ⟨k, hset, hk, hadd⟩ := Redis.exists_zadd db now key now member
  have hlive : Redis.live (db.insert key k) now key = some k := Redis.live_insert hk
  simp only [slidingWindowScript, hadd, Redis.zremrangebyscore, hlive, windowAfter, ← hset]
  by_cases hempty : (k.set.zremrangebyscore windowStart).zcard = 0
  · have hgone : ∀ e : Redis, Redis.live (e.erase key) now key = none := fun e => by
      simp [Redis.live]
    rw [if_pos hempty, if_pos hempty, hempty]
    simp only [Redis.zcard, Redis.expire, hgone, if_pos hexpire]
    simp
  · have hkept : ∀ e : Redis, Redis.live (e.insert key
        { k with set := k.set.zremrangebyscore windowStart }) now key
          = some { k with set := k.set.zremrangebyscore windowStart } :=
      fun e => Redis.live_insert hk
    simp only [if_neg hempty, Redis.zcard, Redis.expire, hkept, if_pos hexpire]
    simp

/-! ## §5. What the window holds along a sequence of calls. -/

/-- Redis takes the expiry that each call sets. -/
def RedisAnswers (cfg : RateLimitConfig) (calls : List RateCall) : Prop :=
  ∀ c ∈ calls, c.nowMs.toNat + 1000 * (cfg.windowSeconds + 1).toNat < 2 ^ 63

instance (cfg : RateLimitConfig) (calls : List RateCall) : Decidable (RedisAnswers cfg calls) :=
  inferInstanceAs (Decidable (∀ c ∈ calls, _ < _))

/-- The entry of a call. -/
def RateCall.entry (c : RateCall) : Int ×ₗ String := toLex ((c.nowMs.toNat : Int), c.member)

namespace RateLimitConfig

variable {cfg : RateLimitConfig} {clientKey : String} {db : Redis} {c : RateCall}

/-- The window that a call leaves. -/
def leaves (cfg : RateLimitConfig) (clientKey : String) (db : Redis) (c : RateCall) : SortedSet String :=
  windowAfter (db.liveSet c.nowMs.toNat (cfg.redisKey clientKey)) c.nowMs.toNat
    (cfg.windowStartMs c.nowMs) c.member

/-- A call is let through when the window that it leaves is within the limit. -/
theorem admits_eq_false_iff
    (hexpire : c.nowMs.toNat + 1000 * (cfg.windowSeconds + 1).toNat < 2 ^ 63) :
    cfg.admits clientKey db c = false
      ↔ cfg.maxRequests.toNat < (cfg.leaves clientKey db c).zcard := by
  obtain ⟨hcount, _⟩ := slidingWindowScript_eq db (cfg.redisKey clientKey)
    (cfg.windowStartMs c.nowMs) c.member hexpire
  unfold admits checkRateLimit
  split
  case h_1 count db' h =>
    rw [h] at hcount
    obtain rfl := Option.some.inj hcount
    split
    case isTrue hlt => exact iff_of_true rfl hlt
    case isFalse hle => exact iff_of_false (by simp [Except.isOk, Except.toBool]) hle
  case h_2 db' h =>
    rw [h] at hcount
    cases hcount

variable (clientKey db) in
/-- What a call leaves under the key. -/
theorem lookup_step
    (hexpire : c.nowMs.toNat + 1000 * (cfg.windowSeconds + 1).toNat < 2 ^ 63) :
    (cfg.step clientKey db c).lookup (cfg.redisKey clientKey)
      = if (cfg.leaves clientKey db c).zcard = 0 then none
        else some ⟨cfg.leaves clientKey db c,
          some (c.nowMs.toNat + 1000 * (cfg.windowSeconds + 1).toNat)⟩ := by
  obtain ⟨_, hlookup⟩ := slidingWindowScript_eq db (cfg.redisKey clientKey)
    (cfg.windowStartMs c.nowMs) c.member hexpire
  unfold step checkRateLimit
  split
  case h_1 count db' h =>
    rw [h] at hlookup
    split <;> exact hlookup
  case h_2 db' h =>
    rw [h] at hlookup
    exact hlookup

/-- Where the entries of the window come from. -/
theorem mem_leaves {e : Int ×ₗ String} :
    e ∈ (cfg.leaves clientKey db c).entries
      ↔ (e = c.entry ∨ e ∈ (db.liveSet c.nowMs.toNat (cfg.redisKey clientKey)).entries
          ∧ (ofLex e).2 ≠ c.member)
        ∧ (cfg.windowStartMs c.nowMs : Int) < (ofLex e).1 := by
  unfold leaves windowAfter
  rw [SortedSet.mem_entries_zremrangebyscore, SortedSet.mem_entries_zadd]
  rfl

/-- The window is of a second or more, and the settings fit: neither the length
in milliseconds nor the expiry wraps. -/
structure Proper (cfg : RateLimitConfig) : Prop where
  pos : 1 ≤ cfg.windowSeconds.toNat
  windowMs_eq : (cfg.windowSeconds * 1000).toNat = cfg.windowMs
  ttl_eq : (cfg.windowSeconds + 1).toNat = cfg.windowSeconds.toNat + 1

theorem Proper.mk' (hpos : 1 ≤ cfg.windowSeconds.toNat) (hmax : cfg.windowSeconds.toNat + 1 < 2 ^ 64)
    (hexpire : 1000 * (cfg.windowSeconds + 1).toNat < 2 ^ 63) : cfg.Proper := by
  have hone : UInt64.toNat 1 = 1 := rfl
  have hthousand : UInt64.toNat 1000 = 1000 := rfl
  have httl : (cfg.windowSeconds + 1).toNat = cfg.windowSeconds.toNat + 1 := by
    rw [UInt64.toNat_add, hone, Nat.mod_eq_of_lt hmax]
  refine ⟨hpos, ?_, httl⟩
  rw [UInt64.toNat_mul, hthousand, windowMs, Nat.mul_comm, Nat.mod_eq_of_lt]
  omega

/-- **What the window holds**: at a later time, the calls before it that are in it. -/
def Window (cfg : RateLimitConfig) (clientKey : String) (db : Redis) (past : List RateCall) : Prop :=
  ∀ now : UInt64, (∀ d ∈ past, d.nowMs ≤ now) → ∀ e : Int ×ₗ String,
    (now.toNat : Int) < (ofLex e).1 + cfg.windowMs →
      (e ∈ (db.liveSet now.toNat (cfg.redisKey clientKey)).entries ↔ ∃ d ∈ past, d.entry = e)

/-- At first there is no such key. -/
theorem window_nil (h : db.lookup (cfg.redisKey clientKey) = none) :
    cfg.Window clientKey db [] := by
  intro now _ e _
  rw [Redis.liveSet_of_lookup_none h]
  simp [SortedSet.empty]

variable {past : List RateCall}

/-- Whether an entry of the window is from an earlier call or this one. -/
theorem Window.mem_leaves_iff (h : cfg.Window clientKey db past) (hproper : cfg.Proper)
    (hcalls : Calls (past ++ [c])) (hpos : ∀ d ∈ past ++ [c], 0 < d.nowMs.toNat)
    {e : Int ×ₗ String} (hin : (c.nowMs.toNat : Int) < (ofLex e).1 + cfg.windowMs) :
    e ∈ (cfg.leaves clientKey db c).entries ↔ ∃ d ∈ past ++ [c], d.entry = e := by
  have hle : ∀ d ∈ past, d.nowMs ≤ c.nowMs := fun d hd =>
    (List.pairwise_append.mp hcalls.ordered).2.2 d hd c (by simp)
  have hmember : ∀ d ∈ past, d.member ≠ c.member := by
    have hunique := hcalls.unique
    rw [List.map_append, List.nodup_append] at hunique
    exact fun d hd => hunique.2.2 _ (List.mem_map_of_mem hd) _ (by simp)
  -- the window start saturates at 0, where an entry inside the window still has to be positive
  have hstart : (cfg.windowStartMs c.nowMs : Int) < (ofLex e).1 ↔ 0 < (ofLex e).1 := by
    unfold windowStartMs
    rw [hproper.windowMs_eq]
    omega
  rw [mem_leaves, hstart, h c.nowMs hle e hin]
  constructor
  · rintro ⟨rfl | ⟨⟨d, hd, rfl⟩, _⟩, _⟩
    · exact ⟨c, by simp, rfl⟩
    · exact ⟨d, List.mem_append_left _ hd, rfl⟩
  · rintro ⟨d, hd, rfl⟩
    have hd0 : (0 : Int) < (ofLex d.entry).1 := by
      have := hpos d hd
      show (0 : Int) < (d.nowMs.toNat : Int)
      omega
    refine ⟨?_, hd0⟩
    obtain hd | hd := List.mem_append.mp hd
    · exact .inr ⟨⟨d, hd, rfl⟩, hmember d hd⟩
    · exact .inl (congrArg RateCall.entry (List.mem_singleton.mp hd))

/-- The call itself is in the window that it leaves. -/
theorem Window.entry_mem_leaves (h : cfg.Window clientKey db past) (hproper : cfg.Proper)
    (hcalls : Calls (past ++ [c])) (hpos : ∀ d ∈ past ++ [c], 0 < d.nowMs.toNat) :
    c.entry ∈ (cfg.leaves clientKey db c).entries := by
  have hwindow : 1 ≤ cfg.windowMs := by
    have := hproper.pos
    unfold windowMs
    omega
  refine (h.mem_leaves_iff hproper hcalls hpos ?_).mpr ⟨c, by simp, rfl⟩
  show (c.nowMs.toNat : Int) < (c.nowMs.toNat : Int) + cfg.windowMs
  omega

/-- **The step.**  A call leaves the window that the next one will find. -/
theorem Window.step (h : cfg.Window clientKey db past) (hproper : cfg.Proper)
    (hcalls : Calls (past ++ [c])) (hpos : ∀ d ∈ past ++ [c], 0 < d.nowMs.toNat)
    (hexpire : c.nowMs.toNat + 1000 * (cfg.windowSeconds + 1).toNat < 2 ^ 63) :
    cfg.Window clientKey (cfg.step clientKey db c) (past ++ [c]) := by
  intro now hle e hin
  have hcard : (cfg.leaves clientKey db c).zcard ≠ 0 := fun hzero => by
    have hmem := h.entry_mem_leaves hproper hcalls hpos
    rw [List.eq_nil_of_length_eq_zero hzero] at hmem
    cases hmem
  have hlookup := lookup_step clientKey db hexpire
  rw [if_neg hcard] at hlookup
  rw [Redis.liveSet_of_lookup hlookup, hproper.ttl_eq]
  have hlast : c.nowMs.toNat ≤ now.toNat := UInt64.le_iff_toNat_le.mp (hle c (by simp))
  by_cases hlive : now.toNat < c.nowMs.toNat + 1000 * (cfg.windowSeconds.toNat + 1)
  · rw [if_pos hlive]
    exact h.mem_leaves_iff hproper hcalls hpos (by omega)
  · -- the key has expired, and so has every call in it
    rw [if_neg hlive]
    refine iff_of_false (by simp [SortedSet.empty]) ?_
    rintro ⟨d, hd, rfl⟩
    have hd : d.nowMs.toNat ≤ c.nowMs.toNat := by
      obtain hd | hd := List.mem_append.mp hd
      · exact UInt64.le_iff_toNat_le.mp
          ((List.pairwise_append.mp hcalls.ordered).2.2 d hd c (by simp))
      · rw [List.mem_singleton.mp hd]
    have hin : (now.toNat : Int) < (d.nowMs.toNat : Int) + cfg.windowMs := hin
    unfold windowMs at hin
    omega

/-- **The run.**  Along calls after the epoch the key holds the window. -/
theorem window_run (hkey : db.lookup (cfg.redisKey clientKey) = none) (hproper : cfg.Proper)
    {calls : List RateCall} (hcalls : Calls calls) (hredis : RedisAnswers cfg calls)
    (hpos : ∀ d ∈ calls, 0 < d.nowMs.toNat) :
    cfg.Window clientKey (run (cfg.step clientKey) db calls) calls := by
  induction calls using List.reverseRecOn with
  | nil => exact window_nil hkey
  | append_singleton past c ih =>
      have hbefore := ih (hcalls.of_prefix (List.prefix_append _ _))
        (fun d hd => hredis d (List.mem_append_left _ hd))
        (fun d hd => hpos d (List.mem_append_left _ hd))
      rw [run_concat]
      exact hbefore.step hproper hcalls hpos (hredis c (by simp))

/-! ## §6. Refusals, and how many calls are admitted. -/

/-- Unique members make distinct entries. -/
theorem nodup_entries {calls : List RateCall} (h : (calls.map RateCall.member).Nodup) :
    (calls.map RateCall.entry).Nodup := by
  refine List.Nodup.of_map (fun e => (ofLex e).2) ?_
  rw [List.map_map]
  exact h

/-- The window counts the call and the calls before it that are in it. -/
theorem Window.zcard_leaves (h : cfg.Window clientKey db past) (hproper : cfg.Proper)
    (hcalls : Calls (past ++ [c])) (hpos : ∀ d ∈ past ++ [c], 0 < d.nowMs.toNat) :
    (cfg.leaves clientKey db c).zcard
      = (past.filter fun d => cfg.InWindow c.nowMs d).length + 1 := by
  -- the entries left are those of the calls in the window and the call's own, one each
  have hnodup : (((past.filter fun d => cfg.InWindow c.nowMs d) ++ [c]).map RateCall.entry).Nodup := by
    refine nodup_entries (hcalls.unique.sublist (List.Sublist.map _ ?_))
    exact List.filter_sublist.append (List.Sublist.refl _)
  have hwindow := hproper.pos
  have hstart := hproper.windowMs_eq
  have hmem : ∀ e : Int ×ₗ String, e ∈ (cfg.leaves clientKey db c).entries
      ↔ e ∈ ((past.filter fun d => cfg.InWindow c.nowMs d) ++ [c]).map RateCall.entry := by
    intro e
    constructor
    · intro he
      have hin : (c.nowMs.toNat : Int) < (ofLex e).1 + cfg.windowMs := by
        have hlow := (mem_leaves.mp he).2
        unfold windowStartMs at hlow
        omega
      obtain ⟨d, hd, rfl⟩ := (h.mem_leaves_iff hproper hcalls hpos hin).mp he
      refine List.mem_map_of_mem (List.mem_append.mpr ?_)
      obtain hd | hd := List.mem_append.mp hd
      · have hin : (c.nowMs.toNat : Int) < (d.nowMs.toNat : Int) + cfg.windowMs := hin
        have hin : cfg.InWindow c.nowMs d := by
          unfold InWindow
          omega
        exact .inl (List.mem_filter.mpr ⟨hd, decide_eq_true hin⟩)
      · exact .inr hd
    · intro he
      obtain ⟨d, hd, rfl⟩ := List.mem_map.mp he
      obtain hd | hd := List.mem_append.mp hd
      · obtain ⟨hd, hin⟩ := List.mem_filter.mp hd
        have hin : c.nowMs.toNat < d.nowMs.toNat + cfg.windowMs := of_decide_eq_true hin
        refine (h.mem_leaves_iff hproper hcalls hpos ?_).mpr ⟨d, List.mem_append_left _ hd, rfl⟩
        show (c.nowMs.toNat : Int) < (d.nowMs.toNat : Int) + cfg.windowMs
        omega
      · rw [List.mem_singleton.mp hd]
        exact h.entry_mem_leaves hproper hcalls hpos
  have hperm := (List.perm_ext_iff_of_nodup (SortedSet.entries_nodup _) hnodup).mpr hmem
  have hlength := hperm.length_eq
  rw [List.length_map, List.length_append] at hlength
  exact hlength

theorem refusesAtLimit_of_proper (hkey : db.lookup (cfg.redisKey clientKey) = none)
    (hproper : cfg.Proper) {calls : List RateCall} (hcalls : Calls calls)
    (hredis : RedisAnswers cfg calls) (hpos : ∀ d ∈ calls, 0 < d.nowMs.toNat) :
    cfg.RefusesAtLimit clientKey db calls := by
  intro past c hpast
  have hbefore : past <+: calls := (List.prefix_append _ _).trans hpast
  have hwindow := window_run hkey hproper (hcalls.of_prefix hbefore)
    (fun d hd => hredis d (hbefore.subset hd)) (fun d hd => hpos d (hbefore.subset hd))
  rw [admits_eq_false_iff (hredis c (hpast.subset (by simp))),
    hwindow.zcard_leaves hproper (hcalls.of_prefix hpast) fun d hd => hpos d (hpast.subset hd)]
  exact Nat.lt_succ_iff

/-- Where the window starts at the call itself, not even that is counted. -/
theorem zcard_leaves_of_start (hstart : cfg.windowStartMs c.nowMs = c.nowMs.toNat)
    (hkey : db.lookup (cfg.redisKey clientKey) = none) : (cfg.leaves clientKey db c).zcard = 0 := by
  refine List.length_eq_zero_iff.mpr (List.eq_nil_iff_forall_not_mem.mpr fun e he => ?_)
  obtain ⟨hentry, hlow⟩ := mem_leaves.mp he
  rw [Redis.liveSet_of_lookup_none hkey] at hentry
  obtain rfl | ⟨hnone, _⟩ := hentry
  · rw [hstart] at hlow
    exact absurd hlow (lt_irrefl _)
  · cases hnone

/-- Such calls leave no key. -/
theorem lookup_run_of_start {calls : List RateCall} (hredis : RedisAnswers cfg calls)
    (hstart : ∀ c ∈ calls, cfg.windowStartMs c.nowMs = c.nowMs.toNat)
    (hkey : db.lookup (cfg.redisKey clientKey) = none) :
    (run (cfg.step clientKey) db calls).lookup (cfg.redisKey clientKey) = none := by
  induction calls using List.reverseRecOn with
  | nil => exact hkey
  | append_singleton past c ih =>
      have hbefore := ih (fun d hd => hredis d (List.mem_append_left _ hd))
        fun d hd => hstart d (List.mem_append_left _ hd)
      rw [run_concat, lookup_step _ _ (hredis c (by simp)),
        if_pos (zcard_leaves_of_start (hstart c (by simp)) hbefore)]

/-- Such calls are all admitted. -/
theorem admits_of_start {calls : List RateCall} (hredis : RedisAnswers cfg calls)
    (hstart : ∀ c ∈ calls, cfg.windowStartMs c.nowMs = c.nowMs.toNat)
    (hkey : db.lookup (cfg.redisKey clientKey) = none) (hpast : past ++ [c] <+: calls) :
    cfg.admits clientKey (run (cfg.step clientKey) db past) c = true := by
  have hbefore : past <+: calls := (List.prefix_append _ _).trans hpast
  have hc : c ∈ calls := hpast.subset (by simp)
  have hnone := lookup_run_of_start (fun d hd => hredis d (hbefore.subset hd))
    (fun d hd => hstart d (hbefore.subset hd)) hkey
  rw [← Bool.not_eq_false, admits_eq_false_iff (hredis c hc),
    zcard_leaves_of_start (hstart c hc) hnone]
  exact Nat.not_lt_zero _

theorem refusesAtLimit_of_windowSeconds_zero (hzero : cfg.windowSeconds = 0)
    (hlimit : 1 ≤ cfg.maxRequests.toNat) (hkey : db.lookup (cfg.redisKey clientKey) = none)
    {calls : List RateCall} (hcalls : Calls calls) (hredis : RedisAnswers cfg calls) :
    cfg.RefusesAtLimit clientKey db calls := by
  intro past c hpast
  have hstart : ∀ d ∈ calls, cfg.windowStartMs d.nowMs = d.nowMs.toNat := fun d _ => by
    simp [windowStartMs, hzero]
  have hnone : (past.filter fun d => cfg.InWindow c.nowMs d) = [] := by
    refine List.filter_eq_nil_iff.mpr fun d hd => ?_
    have hle : d.nowMs.toNat ≤ c.nowMs.toNat := UInt64.le_iff_toNat_le.mp
      ((List.pairwise_append.mp (hcalls.of_prefix hpast).ordered).2.2 d hd c (by simp))
    have hwindow : cfg.windowMs = 0 := by simp [windowMs, hzero]
    simp only [decide_eq_true_eq, InWindow, hwindow]
    omega
  rw [admits_of_start hredis hstart hkey hpast, hnone, List.length_nil]
  exact iff_of_false Bool.noConfusion (by omega)

variable (cfg clientKey db) in
/-- The admitted calls, and whether one more is. -/
theorem admitted_concat (past : List RateCall) (c : RateCall) :
    cfg.admitted clientKey db (past ++ [c]) = cfg.admitted clientKey db past
      ++ if cfg.admits clientKey (run (cfg.step clientKey) db past) c then [c] else [] := by
  unfold admitted
  rw [trace_concat, List.filter_append, List.map_append]
  congr 1
  rw [List.filter_singleton]
  split <;> simp_all

/-- Only calls are admitted, each once at most. -/
theorem admitted_sublist (calls : List RateCall) :
    (cfg.admitted clientKey db calls).Sublist calls := by
  induction calls using List.reverseRecOn with
  | nil => exact List.Sublist.refl _
  | append_singleton past c ih =>
      rw [admitted_concat]
      refine ih.append ?_
      split
      · exact List.Sublist.refl _
      · exact List.nil_sublist _

/-- **Refusals at the limit bound every interval**: the last admitted call of an
interval has the others in its window. -/
theorem RefusesAtLimit.admitsAtMost {calls : List RateCall}
    (h : cfg.RefusesAtLimit clientKey db calls) (hcalls : Calls calls) :
    cfg.AdmitsAtMost clientKey db calls := by
  intro start
  induction calls using List.reverseRecOn with
  | nil => exact Nat.zero_le _
  | append_singleton past c ih =>
      have hbefore := ih (fun bs d hbs => h bs d (hbs.trans (List.prefix_append _ _)))
        (hcalls.of_prefix (List.prefix_append _ _))
      rw [admitted_concat]
      by_cases hadmits : cfg.admits clientKey (run (cfg.step clientKey) db past) c = true
      · rw [if_pos hadmits, List.filter_append, List.length_append]
        by_cases hin : start ≤ c.nowMs.toNat ∧ (c.nowMs.toNat : Int) < start + cfg.windowMs
        · -- the admitted calls of the interval are in the window of its last one
          have hothers : ((cfg.admitted clientKey db past).filter fun d =>
              start ≤ d.nowMs.toNat ∧ d.nowMs.toNat < start + cfg.windowMs).length
              ≤ (past.filter fun d => cfg.InWindow c.nowMs d).length := by
            refine List.Sublist.length_le (((admitted_sublist past).filter _).trans ?_)
            refine List.monotone_filter_right past fun d hd => ?_
            simp only [decide_eq_true_eq] at hd ⊢
            unfold InWindow
            omega
          have hlt : (past.filter fun d => cfg.InWindow c.nowMs d).length < cfg.maxRequests.toNat := by
            by_contra hge
            rw [(h past c List.prefix_rfl).mpr (Nat.le_of_not_lt hge)] at hadmits
            cases hadmits
          have hone : ([c].filter fun d : RateCall =>
              start ≤ d.nowMs.toNat ∧ d.nowMs.toNat < start + cfg.windowMs).length ≤ 1 :=
            List.length_filter_le _ _
          omega
        · rw [List.filter_cons_of_neg (by simpa using hin), List.filter_nil, List.length_nil]
          exact hbefore
      · rw [if_neg hadmits, List.append_nil]
        exact hbefore

/-- The limit has a window or admits a call, the expiry does not wrap, and the
clock is after the epoch. -/
structure Kept (cfg : RateLimitConfig) (calls : List RateCall) : Prop where
  window : 1 ≤ cfg.windowSeconds ∨ 1 ≤ cfg.maxRequests
  fits : cfg.windowSeconds.toNat + 1 < 2 ^ 64
  afterEpoch : ∀ c ∈ calls, 0 < c.nowMs

/-- **The limit is kept along every sequence of calls after the epoch**: a call
is refused exactly when the limit was reached by others in its window, and no
interval has more admitted calls. -/
theorem requests_within_limit {calls : List RateCall} (hcalls : Calls calls) (hredis : RedisAnswers cfg calls)
    (hkey : db.lookup (cfg.redisKey clientKey) = none) (hkept : cfg.Kept calls) :
    cfg.RefusesAtLimit clientKey db calls ∧ cfg.AdmitsAtMost clientKey db calls := by
  have hrefuses : cfg.RefusesAtLimit clientKey db calls := by
    by_cases hzero : cfg.windowSeconds = 0
    · have hlimit : 1 ≤ cfg.maxRequests := hkept.window.resolve_left (by rw [hzero]; decide)
      exact refusesAtLimit_of_windowSeconds_zero hzero (UInt64.le_iff_toNat_le.mp hlimit) hkey
        hcalls hredis
    · have hpos : 1 ≤ cfg.windowSeconds.toNat := Nat.one_le_iff_ne_zero.mpr fun h =>
        hzero (UInt64.toNat_inj.mp h)
      cases calls with
      | nil =>
          intro past c hpast
          exact absurd (List.prefix_nil.mp hpast) (by simp)
      | cons c rest =>
          have hproper := Proper.mk' hpos hkept.fits
            (Nat.lt_of_le_of_lt (Nat.le_add_left _ _) (hredis c (by simp)))
          exact refusesAtLimit_of_proper hkey hproper hcalls hredis fun d hd =>
            UInt64.lt_iff_toNat_lt.mp (hkept.afterEpoch d hd)
  exact ⟨hrefuses, hrefuses.admitsAtMost hcalls⟩

end RateLimitConfig

/-! ## §7. A limit of one call a minute. -/

def sampleConfig : RateLimitConfig := ⟨1, 60, "ratelimit"⟩

/-- Two calls within the window. -/
def sampleCalls (nowMs : UInt64) : List RateCall := [⟨nowMs, 1⟩, ⟨nowMs, 2⟩]

theorem calls_sampleCalls (nowMs : UInt64) : Calls (sampleCalls nowMs) := by
  refine ⟨by simp [sampleCalls], ?_⟩
  have hne : (⟨nowMs, 1⟩ : RateCall).member ≠ (⟨nowMs, 2⟩ : RateCall).member := by
    unfold RateCall.member
    rw [Ne, String.append_right_inj]
    show ¬toString 1 = toString 2
    decide
  simpa [sampleCalls] using hne

theorem requests_within_limit_sample :
    sampleConfig.RefusesAtLimit "client" ∅ (sampleCalls 1000)
      ∧ sampleConfig.AdmitsAtMost "client" ∅ (sampleCalls 1000) :=
  RateLimitConfig.requests_within_limit (calls_sampleCalls 1000) (by decide) rfl
    ⟨.inl (by decide), by decide, by decide⟩

/-- Before the epoch the clock reads zero, and nothing is counted. -/
theorem calls_at_zero_not_limited :
    Calls (sampleCalls 0) ∧ RedisAnswers sampleConfig (sampleCalls 0)
      ∧ ¬sampleConfig.RefusesAtLimit "client" ∅ (sampleCalls 0)
      ∧ ¬sampleConfig.AdmitsAtMost "client" ∅ (sampleCalls 0) := by
  have hredis : RedisAnswers sampleConfig (sampleCalls 0) := by decide
  have hstart : ∀ c ∈ sampleCalls 0, sampleConfig.windowStartMs c.nowMs = c.nowMs.toNat := by decide
  have hadmits : ∀ past c, past ++ [c] <+: sampleCalls 0 →
      sampleConfig.admits "client" (run (sampleConfig.step "client") ∅ past) c = true :=
    fun past c hpast => RateLimitConfig.admits_of_start hredis hstart rfl hpast
  refine ⟨calls_sampleCalls 0, hredis, fun h => ?_, fun h => ?_⟩
  · have hrefused := (h [⟨0, 1⟩] ⟨0, 2⟩ List.prefix_rfl).mpr (by decide)
    rw [hadmits [⟨0, 1⟩] ⟨0, 2⟩ List.prefix_rfl] at hrefused
    cases hrefused
  · have hall : sampleConfig.admitted "client" ∅ (sampleCalls 0) = sampleCalls 0 := by
      have hfirst := RateLimitConfig.admitted_concat sampleConfig "client" ∅ [] ⟨0, 1⟩
      have hsecond := RateLimitConfig.admitted_concat sampleConfig "client" ∅ [⟨0, 1⟩] ⟨0, 2⟩
      rw [if_pos (hadmits [] ⟨0, 1⟩ ⟨[⟨0, 2⟩], rfl⟩)] at hfirst
      rw [if_pos (hadmits [⟨0, 1⟩] ⟨0, 2⟩ List.prefix_rfl)] at hsecond
      exact hsecond.trans (congrArg (· ++ [(⟨0, 2⟩ : RateCall)]) hfirst)
    have hcount := h 0
    rw [hall] at hcount
    exact absurd hcount (by decide)

end PredictIQ.RateLimit
