/-
  PredictIQ.Tts.AudioCache: the audio cache of the TTS service.

  The entries are a map in the order of insertion; `metrics` is kept by hand
  beside it.  The two eviction loops run for as many rounds as they are given,
  and `set` is `none` when one of them is not over by then.  Buffers are lists
  of bytes, and clock readings are given.
-/
import PredictIQ.Foundation.Loop
import PredictIQ.Foundation.OrderedMap
import Mathlib.Algebra.Order.BigOperators.Group.List

namespace PredictIQ.Tts

open Foundation

/-! ## §1. The cache. -/

abbrev Buffer : Type := List UInt8

structure CacheConfig where
  ttlMs : Int
  maxEntries : Int
  maxBytes : Option Int

structure CacheEntry where
  buffer : Buffer
  createdAt : Int
  hits : Nat
  deriving DecidableEq

structure CacheMetrics where
  hits : Nat
  misses : Nat
  evictions : Nat
  size : Int
  bytes : Int
  deriving DecidableEq

structure AudioCache where
  store : OrderedMap String CacheEntry
  metrics : CacheMetrics

def CacheEntry.bytes (entry : CacheEntry) : Int := entry.buffer.length

/-- The entry has outlived the time to live. -/
def CacheConfig.isExpired (cfg : CacheConfig) (createdAt now : Int) : Bool := cfg.ttlMs < now - createdAt

/-- A buffer that alone exceeds the byte budget. -/
def CacheConfig.isTooLarge (cfg : CacheConfig) (buffer : Buffer) : Bool :=
  match cfg.maxBytes with
  | some maxBytes => maxBytes < (buffer.length : Int)
  | none => false

namespace AudioCache

def empty : AudioCache := ⟨.empty, ⟨0, 0, 0, 0, 0⟩⟩

def get (cfg : CacheConfig) (c : AudioCache) (key : String) (now : Int) : Option Buffer × AudioCache :=
  match c.store.lookup key with
  | none => (none, { c with metrics.misses := c.metrics.misses + 1 })
  | some entry =>
      if cfg.isExpired entry.createdAt now then
        (none, ⟨c.store.delete key, { c.metrics with
          size := c.metrics.size - 1, bytes := c.metrics.bytes - entry.bytes, misses := c.metrics.misses + 1 }⟩)
      else
        (some entry.buffer, ⟨c.store.set key { entry with hits := entry.hits + 1 },
          { c.metrics with hits := c.metrics.hits + 1 }⟩)

def evictOldest (c : AudioCache) : AudioCache :=
  match c.store.entries with
  | [] => c
  | (oldest, entry) :: _ =>
      ⟨c.store.delete oldest, { c.metrics with
        evictions := c.metrics.evictions + 1, size := c.metrics.size - 1, bytes := c.metrics.bytes - entry.bytes }⟩

/-- `store.size >= maxEntries`. -/
def isFull (cfg : CacheConfig) (c : AudioCache) : Bool := cfg.maxEntries ≤ (c.store.size : Int)

/-- `store.size > 0 && bytes + buffer.length > maxBytes`. -/
def isOver (maxBytes : Int) (buffer : Buffer) (c : AudioCache) : Bool :=
  decide (0 < c.store.size) && decide (maxBytes < c.metrics.bytes + buffer.length)

/-- The two loops that make room for a buffer. -/
def makeRoom (cfg : CacheConfig) (buffer : Buffer) (rounds : Nat) (c : AudioCache) : Option AudioCache :=
  (loop (isFull cfg) evictOldest rounds c).bind fun c =>
    match cfg.maxBytes with
    | none => some c
    | some maxBytes => loop (isOver maxBytes buffer) evictOldest rounds c

def insert (c : AudioCache) (key : String) (buffer : Buffer) (now : Int) : AudioCache :=
  ⟨c.store.set key ⟨buffer, now, 0⟩,
    { c.metrics with size := c.metrics.size + 1, bytes := c.metrics.bytes + buffer.length }⟩

def set (cfg : CacheConfig) (c : AudioCache) (key : String) (buffer : Buffer) (now : Int) (rounds : Nat) :
    Option AudioCache :=
  if cfg.isTooLarge buffer then some c
  else (makeRoom cfg buffer rounds c).map fun c => c.insert key buffer now

end AudioCache

/-- The calls of the cache, each with the reading of the clock. -/
inductive CacheCall where
  | get (key : String) (now : Int)
  | set (key : String) (buffer : Buffer) (now : Int)

def AudioCache.call (cfg : CacheConfig) (c : AudioCache) (rounds : Nat) : CacheCall → Option (Option Buffer × AudioCache)
  | .get key now => some (c.get cfg key now)
  | .set key buffer now => (c.set cfg key buffer now rounds).map fun c => (none, c)

/-- The call returns, however long its loops run. -/
def AudioCache.Returns (cfg : CacheConfig) (c : AudioCache) (call : CacheCall) (result : Option Buffer) (c' : AudioCache) :
    Prop :=
  ∃ rounds, c.call cfg rounds call = some (result, c')

/-! ## §2. Books in order. -/

namespace AudioCache

variable {cfg : CacheConfig} {c c' : AudioCache} {buffer : Buffer} {key : String} {now : Int}

/-- The counters are what they count. -/
structure Counts (c : AudioCache) : Prop where
  size : c.metrics.size = c.store.size
  bytes : c.metrics.bytes = c.store.total CacheEntry.bytes

/-- Entries that leave room for a buffer. -/
structure HasRoom (cfg : CacheConfig) (buffer : Buffer) (kept : List (String × CacheEntry)) : Prop where
  count : (kept.length : Int) < cfg.maxEntries
  bytes : ∀ maxBytes, cfg.maxBytes = some maxBytes → (kept.map fun e => e.2.bytes).sum + buffer.length ≤ maxBytes

theorem counts_empty : empty.Counts := ⟨rfl, rfl⟩

/-- A look-up keeps the counters. -/
theorem Counts.get (h : c.Counts) (key : String) (now : Int) : (c.get cfg key now).2.Counts := by
  unfold AudioCache.get
  cases hlookup : c.store.lookup key with
  | none => exact ⟨h.size, h.bytes⟩
  | some entry =>
      dsimp only
      split
      · obtain ⟨hsize, hbytes⟩ := OrderedMap.delete_of_lookup hlookup CacheEntry.bytes
        constructor
        · show c.metrics.size - 1 = ((c.store.delete key).size : Int)
          rw [h.size]
          omega
        · show c.metrics.bytes - entry.bytes = (c.store.delete key).total CacheEntry.bytes
          rw [h.bytes]
          omega
      · have hmem : key ∈ c.store.keys := by
          by_contra hout
          rw [OrderedMap.lookup_eq_none_iff.mpr hout] at hlookup
          cases hlookup
        constructor
        · show c.metrics.size = ((c.store.set key _).size : Int)
          rw [h.size, OrderedMap.size_set_of_mem hmem]
        · show c.metrics.bytes = (c.store.set key { entry with hits := entry.hits + 1 }).total CacheEntry.bytes
          rw [h.bytes]
          exact (OrderedMap.total_set_of_eq (f := CacheEntry.bytes) (v := { entry with hits := entry.hits + 1 })
            hlookup rfl).symm

/-- An eviction keeps them, and takes the oldest entry. -/
theorem Counts.evictOldest (h : c.Counts) : c.evictOldest.Counts := by
  unfold AudioCache.evictOldest
  split
  · exact h
  · rename_i oldest entry rest hentries
    have hlookup : c.store.lookup oldest = some entry :=
      OrderedMap.lookup_eq_some_iff.mpr (hentries ▸ List.mem_cons_self)
    obtain ⟨hsize, hbytes⟩ := OrderedMap.delete_of_lookup hlookup CacheEntry.bytes
    constructor
    · show c.metrics.size - 1 = ((c.store.delete oldest).size : Int)
      rw [h.size]
      omega
    · show c.metrics.bytes - entry.bytes = (c.store.delete oldest).total CacheEntry.bytes
      rw [h.bytes]
      omega

theorem entries_evictOldest (c : AudioCache) : c.evictOldest.store.entries = c.store.entries.tail := by
  unfold AudioCache.evictOldest
  split
  · rename_i hentries
    rw [hentries]
    rfl
  · rename_i oldest entry rest hentries
    rw [hentries]
    exact OrderedMap.entries_delete_head hentries

/-! ## §3. Making room. -/

/-- What the loops keep: entries go from the old end, and none of those that leave room. -/
structure Shrunk (cfg : CacheConfig) (buffer : Buffer) (c c' : AudioCache) : Prop where
  counts : c'.Counts
  entries : c'.store.entries <:+ c.store.entries
  room : ∀ kept, kept <:+ c.store.entries → HasRoom cfg buffer kept → kept <:+ c'.store.entries

theorem Shrunk.evictOldest (h : Shrunk cfg buffer c c') (hroom : ¬HasRoom cfg buffer c'.store.entries) :
    Shrunk cfg buffer c c'.evictOldest := by
  refine ⟨h.counts.evictOldest, ?_, fun kept hkept hhas => ?_⟩
  · rw [entries_evictOldest]
    exact (List.tail_suffix _).trans h.entries
  · have hold := h.room kept hkept hhas
    rw [entries_evictOldest]
    cases hentries : c'.store.entries with
    | nil => simpa [hentries] using hold
    | cons e rest =>
        rw [hentries] at hold
        rcases List.suffix_cons_iff.mp hold with rfl | hrest
        · exact absurd (hentries ▸ hhas) hroom
        · exact hrest

theorem size_evictOldest_lt (hne : 0 < c.store.size) : c.evictOldest.store.size < c.store.size := by
  unfold OrderedMap.size at hne ⊢
  rw [entries_evictOldest, List.length_tail]
  omega

/-- **Making room** ends when `maxEntries` is positive and the buffer fits:
the entries that stay leave room, and no more go than must. -/
theorem makeRoom_ends (hcounts : c.Counts) (hpos : 0 < cfg.maxEntries) (hfits : cfg.isTooLarge buffer = false) :
    ∃ rounds c', makeRoom cfg buffer rounds c = some c' ∧ Shrunk cfg buffer c c'
      ∧ HasRoom cfg buffer c'.store.entries := by
  have hfull : ∀ c', Shrunk cfg buffer c c' → isFull cfg c' = true →
      Shrunk cfg buffer c c'.evictOldest ∧ c'.evictOldest.store.size < c'.store.size := by
    intro c' h hcond
    have hcond : cfg.maxEntries ≤ (c'.store.size : Int) := of_decide_eq_true hcond
    refine ⟨h.evictOldest fun hroom => ?_, size_evictOldest_lt (by omega)⟩
    have hlt : ((c'.store.size : Nat) : Int) < cfg.maxEntries := hroom.count
    omega
  have hends : ∃ n c₁, loop (isFull cfg) evictOldest n c = some c₁ ∧ Shrunk cfg buffer c c₁ ∧ isFull cfg c₁ = false :=
    loop_ends (fun c' => c'.store.size) hfull ⟨hcounts, List.suffix_refl _, fun _ hkept _ => hkept⟩
  obtain ⟨n, c₁, hloop, h₁, hdone⟩ := hends
  have hsize : (c₁.store.size : Int) < cfg.maxEntries := not_le.mp (of_decide_eq_false hdone)
  unfold makeRoom
  cases hmax : cfg.maxBytes with
  | none =>
      refine ⟨n, c₁, by simp [hloop], h₁, hsize, fun maxBytes heq => ?_⟩
      cases hmax.symm.trans heq
  | some maxBytes =>
      have hover : ∀ c', (Shrunk cfg buffer c c' ∧ (c'.store.size : Int) < cfg.maxEntries) →
          isOver maxBytes buffer c' = true →
          (Shrunk cfg buffer c c'.evictOldest ∧ (c'.evictOldest.store.size : Int) < cfg.maxEntries)
            ∧ c'.evictOldest.store.size < c'.store.size := by
        intro c' h hcond
        simp only [isOver, Bool.and_eq_true, decide_eq_true_eq] at hcond
        have hlt := size_evictOldest_lt hcond.1
        refine ⟨⟨h.1.evictOldest fun hroom => ?_, by have := h.2; omega⟩, hlt⟩
        have hbytes := hroom.bytes maxBytes hmax
        have hcount : c'.metrics.bytes = (c'.store.entries.map fun e => e.2.bytes).sum := h.1.counts.bytes
        omega
      have hends' : ∃ n' c₂, loop (isOver maxBytes buffer) evictOldest n' c₁ = some c₂
          ∧ (Shrunk cfg buffer c c₂ ∧ (c₂.store.size : Int) < cfg.maxEntries) ∧ isOver maxBytes buffer c₂ = false :=
        loop_ends (fun c' => c'.store.size) hover ⟨h₁, hsize⟩
      obtain ⟨n', c₂, hloop', ⟨h₂, hsize'⟩, hdone'⟩ := hends'
      refine ⟨max n n', c₂, ?_, h₂, hsize', fun maxBytes' heq => ?_⟩
      · rw [loop_mono hloop (le_max_left n n')]
        exact loop_mono hloop' (le_max_right n n')
      · cases hmax.symm.trans heq
        have hcount : c₂.metrics.bytes = (c₂.store.entries.map fun e => e.2.bytes).sum := h₂.counts.bytes
        simp only [isOver, Bool.and_eq_false_iff, decide_eq_false_iff_not, not_lt] at hdone'
        simp only [CacheConfig.isTooLarge, hmax, decide_eq_false_iff_not, not_lt] at hfits
        rcases hdone' with hnil | hle
        · -- nothing is left, and the buffer fits alone
          have hentries : c₂.store.entries = [] := List.eq_nil_of_length_eq_zero (Nat.le_zero.mp hnil)
          simpa [hentries] using hfits
        · omega

/-- It never ends when `maxEntries` is not positive. -/
theorem makeRoom_diverges (hpos : cfg.maxEntries ≤ 0) (rounds : Nat) : makeRoom cfg buffer rounds c = none := by
  have hfull : ∀ c', isFull cfg c' = true := fun c' => by
    have hsize : (0 : Int) ≤ c'.store.size := Int.natCast_nonneg _
    exact decide_eq_true (by omega)
  unfold makeRoom
  rw [loop_diverges hfull]
  rfl

theorem makeRoom_mono {n m : Nat} (h : makeRoom cfg buffer n c = some c') (hn : n ≤ m) :
    makeRoom cfg buffer m c = some c' := by
  obtain ⟨c₁, hfirst, hsecond⟩ := Option.bind_eq_some_iff.mp h
  refine Option.bind_eq_some_iff.mpr ⟨c₁, loop_mono hfirst hn, ?_⟩
  cases hmax : cfg.maxBytes with
  | none => simpa [hmax] using hsecond
  | some maxBytes =>
      simp only [hmax] at hsecond ⊢
      exact loop_mono hsecond hn

theorem set_mono {n m : Nat} (h : c.set cfg key buffer now n = some c') (hn : n ≤ m) :
    c.set cfg key buffer now m = some c' := by
  unfold AudioCache.set at h ⊢
  cases hlarge : cfg.isTooLarge buffer with
  | true => simpa [hlarge] using h
  | false =>
      simp only [hlarge, Bool.false_eq_true, if_false] at h ⊢
      obtain ⟨c₁, hroom, rfl⟩ := Option.map_eq_some_iff.mp h
      rw [makeRoom_mono hroom hn]
      rfl

theorem call_mono {n m : Nat} {call : CacheCall} {x : Option Buffer × AudioCache} (h : c.call cfg n call = some x)
    (hn : n ≤ m) : c.call cfg m call = some x := by
  cases call with
  | get key now => exact h
  | set key buffer now =>
      obtain ⟨c₁, hset, rfl⟩ := Option.map_eq_some_iff.mp h
      show (c.set cfg key buffer now m).map _ = _
      rw [set_mono hset hn]
      rfl

/-- **A call returns in one way.** -/
theorem returns_unique {c'' : AudioCache} {call : CacheCall} {result result' : Option Buffer}
    (h : c.Returns cfg call result c') (h' : c.Returns cfg call result' c'') : result = result' ∧ c' = c'' := by
  obtain ⟨n, hn⟩ := h
  obtain ⟨m, hm⟩ := h'
  have heq := (call_mono hn (le_max_left n m)).symm.trans (call_mono hm (le_max_right n m))
  exact Prod.mk.inj (Option.some.inj heq)

/-! ## §4. What a call leaves. -/

/-- What is found after a look-up. -/
theorem lookup_get (k : String) : (c.get cfg key now).2.store.lookup k
    = if k = key then ((c.store.lookup key).filter fun entry => !cfg.isExpired entry.createdAt now).map
        fun entry => { entry with hits := entry.hits + 1 }
      else c.store.lookup k := by
  unfold AudioCache.get
  cases hlookup : c.store.lookup key with
  | none =>
      by_cases hk : k = key
      · simp [hk, hlookup]
      · simp [hk]
  | some entry =>
      by_cases hexpired : cfg.isExpired entry.createdAt now = true <;> by_cases hk : k = key <;>
        simp [Option.filter, hexpired, hk, OrderedMap.lookup_delete, OrderedMap.lookup_set]

/-- A call keeps what is found, or leaves less of it, under every key but one that it sets. -/
def Keeps (c c' : AudioCache) : Prop := ∀ k entry, c'.store.lookup k = some entry → c.store.lookup k = some entry

theorem keeps_makeRoom {n : Nat} (h : makeRoom cfg buffer n c = some c') : Keeps c c' := by
  have hevict : ∀ c₁, Keeps c c₁ → Keeps c c₁.evictOldest := by
    intro c₁ h₁ k entry hlookup
    rw [OrderedMap.lookup_eq_some_iff, entries_evictOldest] at hlookup
    exact h₁ k entry (OrderedMap.lookup_eq_some_iff.mpr (List.mem_of_mem_tail hlookup))
  obtain ⟨c₁, hfirst, hsecond⟩ := Option.bind_eq_some_iff.mp h
  have h₁ : Keeps c c₁ := loop_invariant hevict (fun _ _ hlookup => hlookup) hfirst
  cases hmax : cfg.maxBytes with
  | none =>
      rw [hmax] at hsecond
      cases hsecond
      exact h₁
  | some maxBytes =>
      rw [hmax] at hsecond
      exact loop_invariant hevict h₁ hsecond

/-- What is found after a buffer is set: it, and nothing that was not there. -/
theorem lookup_set {n : Nat} (h : c.set cfg key buffer now n = some c') {k : String} {entry : CacheEntry}
    (hlookup : c'.store.lookup k = some entry) :
    (k = key ∧ cfg.isTooLarge buffer = false ∧ entry.buffer = buffer)
      ∨ ((k = key → cfg.isTooLarge buffer = true) ∧ c.store.lookup k = some entry) := by
  unfold AudioCache.set at h
  cases hlarge : cfg.isTooLarge buffer with
  | true =>
      rw [hlarge] at h
      cases h
      exact .inr ⟨fun _ => rfl, hlookup⟩
  | false =>
      rw [hlarge] at h
      obtain ⟨c₁, hroom, rfl⟩ := Option.map_eq_some_iff.mp h
      have hset : (c₁.store.set key ⟨buffer, now, 0⟩).lookup k = some entry := hlookup
      rw [OrderedMap.lookup_set] at hset
      split at hset
      · rename_i hk
        cases hset
        exact .inl ⟨hk, rfl, rfl⟩
      · rename_i hk
        exact .inr ⟨fun heq => absurd heq hk, keeps_makeRoom hroom k entry hset⟩

/-- A look-up raises no counter of what is there. -/
theorem metrics_get_le (cfg : CacheConfig) (c : AudioCache) (key : String) (now : Int) :
    (c.get cfg key now).2.metrics.size ≤ c.metrics.size ∧ (c.get cfg key now).2.metrics.bytes ≤ c.metrics.bytes := by
  unfold AudioCache.get
  cases c.store.lookup key with
  | none => exact ⟨le_rfl, le_rfl⟩
  | some entry =>
      dsimp only
      split
      · have hbytes : (0 : Int) ≤ entry.bytes := Int.natCast_nonneg _
        exact ⟨by show c.metrics.size - 1 ≤ _; omega, by show c.metrics.bytes - entry.bytes ≤ _; omega⟩
      · exact ⟨le_rfl, le_rfl⟩

/-- A new entry is counted once. -/
theorem Counts.insert (h : c.Counts) (hkey : key ∉ c.store.keys) : (c.insert key buffer now).Counts := by
  have hentries := OrderedMap.entries_set_of_not_mem hkey ⟨buffer, now, 0⟩
  constructor
  · show c.metrics.size + 1 = ((c.store.set key ⟨buffer, now, 0⟩).size : Int)
    unfold OrderedMap.size
    rw [hentries, h.size, List.length_append]
    rfl
  · show c.metrics.bytes + buffer.length = (c.store.set key ⟨buffer, now, 0⟩).total CacheEntry.bytes
    rw [OrderedMap.total_eq_of_entries hentries, h.bytes]
    simp [CacheEntry.bytes]

/-- One in the place of another is counted twice. -/
theorem not_counts_insert (h : c.Counts) (hkey : key ∈ c.store.keys) : ¬(c.insert key buffer now).Counts := by
  intro hinsert
  have hsize : c.metrics.size + 1 = ((c.store.set key ⟨buffer, now, 0⟩).size : Int) := hinsert.size
  rw [OrderedMap.size_set_of_mem hkey, h.size] at hsize
  omega

end AudioCache

end PredictIQ.Tts
