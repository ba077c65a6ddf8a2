/-
  PredictIQ.Tts.CacheBooks: when the audio cache keeps its books.

  `KeepsBooks` is what is asked of a sequence of calls: each returns, leaves
  the counters true and within their bounds, and a `get` answers with the
  buffer of the latest `set` of its key unless that entry was evicted, has
  expired or was turned away.  A `Ledger` remembers for every key what became
  of its latest `set`.  `keepsBooks_iff` says when that is so: a `set` must
  not meet its own key among the entries that stay, as the counters are raised
  for it as for a new one, `maxEntries` must be positive, and nobody may ask
  for a key whose old entry has outlived a `set` that was turned away.
-/
import PredictIQ.Tts.AudioCache

namespace PredictIQ.Tts

open Foundation

/-! ## §1. What is asked. -/

/-- What became of the latest `set` of a key. -/
inductive Fate where
  | unset
  | live (buffer : Buffer) (createdAt : Int)
  | refused (buffer : Buffer)
  | evicted
  | expired
  deriving DecidableEq

abbrev Ledger : Type := String → Fate

namespace Ledger

variable (cfg : CacheConfig) (L : Ledger)

/-- The answer a `get` owes. -/
def answer : CacheCall → Option Buffer
  | .get key now =>
      match L key with
      | .live buffer createdAt => if cfg.isExpired createdAt now then none else some buffer
      | _ => none
  | .set .. => none

/-- The ledger after a call; `c` is the cache it leaves.  An entry that a `set`
takes out is evicted. -/
def note (c : AudioCache) : CacheCall → Ledger
  | .get key now => fun k =>
      if k = key then
        match L k with
        | .live buffer createdAt => if cfg.isExpired createdAt now then .expired else .live buffer createdAt
        | fate => fate
      else L k
  | .set key buffer now => fun k =>
      if k = key then if cfg.isTooLarge buffer then .refused buffer else .live buffer now
      else
        match L k with
        | .live buffer createdAt => if (c.store.lookup k).isSome then .live buffer createdAt else .evicted
        | fate => fate

end Ledger

/-- The counters are true and within their bounds. -/
structure InBooks (cfg : CacheConfig) (c : AudioCache) : Prop where
  counts : c.Counts
  entries : c.metrics.size ≤ max cfg.maxEntries 0
  budget : ∀ maxBytes, cfg.maxBytes = some maxBytes → c.metrics.bytes ≤ maxBytes

/-- Every call returns with the answer it owes, and leaves the books in order. -/
def KeepsBooks (cfg : CacheConfig) (c : AudioCache) (L : Ledger) : List CacheCall → Prop
  | [] => InBooks cfg c
  | call :: rest => InBooks cfg c ∧ ∃ result c', c.Returns cfg call result c' ∧ result = L.answer cfg call
      ∧ KeepsBooks cfg c' (L.note cfg c' call) rest

/-- What a call must meet. -/
def Fitting (cfg : CacheConfig) (c : AudioCache) (L : Ledger) : CacheCall → Prop
  | .get key now => ∀ buffer entry, L key = .refused buffer → c.store.lookup key = some entry →
      cfg.isExpired entry.createdAt now = true
  | .set key buffer _ => cfg.isTooLarge buffer = false → 0 < cfg.maxEntries
      ∧ ∀ kept, kept <:+ c.store.entries → AudioCache.HasRoom cfg buffer kept → key ∉ kept.map Prod.fst

def AllFitting (cfg : CacheConfig) (c : AudioCache) (L : Ledger) : List CacheCall → Prop
  | [] => True
  | call :: rest => Fitting cfg c L call ∧ ∀ result c', c.Returns cfg call result c' →
      AllFitting cfg c' (L.note cfg c' call) rest

/-! ## §2. One call. -/

section Calls

variable {cfg : CacheConfig} {c c' : AudioCache} {L : Ledger} {call : CacheCall} {result : Option Buffer}

/-- The books are in order, and the entries are those the ledger has as live. -/
structure Standing (cfg : CacheConfig) (c : AudioCache) (L : Ledger) : Prop where
  books : InBooks cfg c
  live : ∀ key buffer createdAt, L key = .live buffer createdAt → ∃ hits, c.store.lookup key = some ⟨buffer, createdAt, hits⟩
  stored : ∀ key entry, c.store.lookup key = some entry →
    L key = .live entry.buffer entry.createdAt ∨ ∃ buffer, L key = .refused buffer

/-- A look-up of a key whose old entry is not asked for. -/
theorem Standing.get {key : String} {now : Int} (h : Standing cfg c L) (hfits : Fitting cfg c L (.get key now)) :
    (c.get cfg key now).1 = L.answer cfg (.get key now)
      ∧ Standing cfg (c.get cfg key now).2 (L.note cfg (c.get cfg key now).2 (.get key now)) := by
  have hresult : (c.get cfg key now).1 = L.answer cfg (.get key now) := by
    unfold AudioCache.get Ledger.answer
    cases hlookup : c.store.lookup key with
    | none =>
        cases hfate : L key with
        | live buffer createdAt =>
            obtain ⟨hits, hlive⟩ := h.live key buffer createdAt hfate
            cases hlookup.symm.trans hlive
        | _ => simp [hfate]
    | some entry =>
        rcases h.stored key entry hlookup with hlive | ⟨buffer, hrefused⟩
        · simp only [hlive]
          split <;> rfl
        · simp [hrefused, hfits buffer entry hrefused hlookup]
  obtain ⟨hsize, hbytes⟩ := AudioCache.metrics_get_le cfg c key now
  refine ⟨hresult, ⟨h.books.counts.get key now, hsize.trans h.books.entries, fun maxBytes hmax =>
    hbytes.trans (h.books.budget maxBytes hmax)⟩, fun k buffer createdAt hlive => ?_, fun k entry hstored => ?_⟩
  · rw [AudioCache.lookup_get]
    unfold Ledger.note at hlive
    by_cases hk : k = key
    · subst hk
      simp only [if_true] at hlive ⊢
      split at hlive
      · rename_i b t hfate
        split at hlive
        · cases hlive
        · rename_i hexpired
          cases hlive
          obtain ⟨hits, hlookup⟩ := h.live k buffer createdAt hfate
          exact ⟨hits + 1, by simp [hlookup, Option.filter, hexpired]⟩
      · rename_i hfate
        exact absurd hlive (hfate buffer createdAt)
    · simp only [hk, if_false] at hlive ⊢
      exact h.live k buffer createdAt hlive
  · rw [AudioCache.lookup_get] at hstored
    unfold Ledger.note
    by_cases hk : k = key
    · subst hk
      simp only [if_true] at hstored ⊢
      obtain ⟨entry₀, hfilter, rfl⟩ := Option.map_eq_some_iff.mp hstored
      obtain ⟨hlookup, hexpired⟩ := Option.filter_eq_some_iff.mp hfilter
      have hexpired : cfg.isExpired entry₀.createdAt now = false := by simpa using hexpired
      rcases h.stored k entry₀ hlookup with hlive | ⟨buffer, hrefused⟩
      · simp [hlive, hexpired]
      · exact .inr ⟨buffer, by rw [hrefused]⟩
    · simp only [hk, if_false] at hstored ⊢
      exact h.stored k entry hstored

/-- What stays after making room was there. -/
theorem lookup_of_shrunk {buffer : Buffer} {c₁ : AudioCache} (h : AudioCache.Shrunk cfg buffer c c₁) {key : String}
    {entry : CacheEntry} (hlookup : c₁.store.lookup key = some entry) : c.store.lookup key = some entry :=
  OrderedMap.lookup_eq_some_iff.mpr (h.entries.subset (OrderedMap.lookup_eq_some_iff.mp hlookup))

/-- Setting a key that has room. -/
theorem Standing.insert {key : String} {buffer : Buffer} {now : Int} {c₁ : AudioCache} (h : Standing cfg c L)
    (hfits : cfg.isTooLarge buffer = false) (hshrunk : AudioCache.Shrunk cfg buffer c c₁)
    (hroom : AudioCache.HasRoom cfg buffer c₁.store.entries) (hkey : key ∉ c₁.store.keys) :
    Standing cfg (c₁.insert key buffer now) (L.note cfg (c₁.insert key buffer now) (.set key buffer now)) := by
  have hlookup : ∀ k, (c₁.insert key buffer now).store.lookup k
      = if k = key then some ⟨buffer, now, 0⟩ else c₁.store.lookup k := fun k => OrderedMap.lookup_set ..
  refine ⟨⟨hshrunk.counts.insert hkey, ?_, fun maxBytes hmax => ?_⟩, fun k b t hlive => ?_, fun k entry hstored => ?_⟩
  · have hcount : ((c₁.store.size : Nat) : Int) < cfg.maxEntries := hroom.count
    show c₁.metrics.size + 1 ≤ max cfg.maxEntries 0
    rw [hshrunk.counts.size]
    omega
  · show c₁.metrics.bytes + buffer.length ≤ maxBytes
    rw [hshrunk.counts.bytes]
    exact hroom.bytes maxBytes hmax
  · rw [hlookup]
    unfold Ledger.note at hlive
    by_cases hk : k = key
    · simp only [hk, if_true, hfits, Bool.false_eq_true, if_false] at hlive ⊢
      cases hlive
      exact ⟨0, rfl⟩
    · simp only [hk, if_false] at hlive ⊢
      split at hlive
      · rename_i b' t' hfate
        split at hlive
        · rename_i hsome
          cases hlive
          rw [hlookup, if_neg hk] at hsome
          obtain ⟨entry, hentry⟩ := Option.isSome_iff_exists.mp hsome
          obtain ⟨hits, hold⟩ := h.live k b t hfate
          exact ⟨hits, hentry.trans ((lookup_of_shrunk hshrunk hentry).symm.trans hold)⟩
        · cases hlive
      · rename_i hfate
        exact absurd hlive (hfate b t)
  · rw [hlookup] at hstored
    unfold Ledger.note
    by_cases hk : k = key
    · simp only [hk, if_true, hfits, Bool.false_eq_true, if_false] at hstored ⊢
      cases hstored
      exact .inl rfl
    · simp only [hk, if_false] at hstored ⊢
      have hsome : ((c₁.insert key buffer now).store.lookup k).isSome = true := by
        rw [hlookup, if_neg hk, hstored]
        rfl
      rcases h.stored k entry (lookup_of_shrunk hshrunk hstored) with hlive | ⟨b, hrefused⟩
      · exact .inl (by simp [hlive, hsome])
      · exact .inr ⟨b, by rw [hrefused]⟩

/-- A buffer that is turned away leaves the entries as they are. -/
theorem Standing.refuse {key : String} {buffer : Buffer} {now : Int} (h : Standing cfg c L)
    (hlarge : cfg.isTooLarge buffer = true) : Standing cfg c (L.note cfg c (.set key buffer now)) := by
  refine ⟨h.books, fun k b t hlive => ?_, fun k entry hstored => ?_⟩
  · unfold Ledger.note at hlive
    by_cases hk : k = key
    · simp [hk, hlarge] at hlive
    · simp only [hk, if_false] at hlive
      split at hlive
      · rename_i hfate
        split at hlive
        · cases hlive
          exact h.live k b t hfate
        · cases hlive
      · rename_i hfate
        exact absurd hlive (hfate b t)
  · unfold Ledger.note
    by_cases hk : k = key
    · exact .inr ⟨buffer, by simp [hk, hlarge]⟩
    · simp only [hk, if_false]
      rcases h.stored k entry hstored with hlive | ⟨b, hrefused⟩
      · exact .inl (by simp [hlive, hstored])
      · exact .inr ⟨b, by rw [hrefused]⟩

/-- **A fitting call** returns what it owes, and leaves the books in order. -/
theorem Standing.fitting (h : Standing cfg c L) (hfits : Fitting cfg c L call) :
    ∃ c', c.Returns cfg call (L.answer cfg call) c' ∧ Standing cfg c' (L.note cfg c' call) := by
  cases call with
  | get key now =>
      obtain ⟨hresult, hstanding⟩ := h.get hfits
      refine ⟨(c.get cfg key now).2, ⟨0, ?_⟩, hstanding⟩
      rw [← hresult]
      rfl
  | set key buffer now =>
      cases hlarge : cfg.isTooLarge buffer with
      | true =>
          exact ⟨c, ⟨0, by simp [AudioCache.call, AudioCache.set, hlarge, Ledger.answer]⟩, h.refuse hlarge⟩
      | false =>
          obtain ⟨hpos, hkey⟩ := hfits hlarge
          obtain ⟨rounds, c₁, hmake, hshrunk, hroom⟩ := AudioCache.makeRoom_ends h.books.counts hpos hlarge
          refine ⟨c₁.insert key buffer now, ⟨rounds, ?_⟩,
            h.insert hlarge hshrunk hroom (hkey _ hshrunk.entries hroom)⟩
          simp [AudioCache.call, AudioCache.set, hlarge, hmake, Ledger.answer]

/-- **Any other call** does not. -/
theorem Standing.fails (h : Standing cfg c L) (hfits : ¬Fitting cfg c L call) (hreturns : c.Returns cfg call result c') :
    result ≠ L.answer cfg call ∨ ¬InBooks cfg c' := by
  obtain ⟨rounds, hcall⟩ := hreturns
  cases call with
  | get key now =>
      -- the old entry answers for the buffer that was turned away
      unfold Fitting at hfits
      push Not at hfits
      obtain ⟨buffer, entry, hrefused, hlookup, hexpired⟩ := hfits
      have hresult : result = (c.get cfg key now).1 := (congrArg Prod.fst (Option.some.inj hcall)).symm
      refine .inl ?_
      rw [hresult]
      simp [AudioCache.get, Ledger.answer, hlookup, hrefused, hexpired]
  | set key buffer now =>
      unfold Fitting at hfits
      obtain ⟨hlarge, hfits⟩ := Classical.not_imp.mp hfits
      obtain ⟨c₁, hset, heq⟩ := Option.map_eq_some_iff.mp hcall
      cases heq
      unfold AudioCache.set at hset
      rw [hlarge] at hset
      obtain ⟨c₂, hmake, rfl⟩ := Option.map_eq_some_iff.mp hset
      by_cases hpos : 0 < cfg.maxEntries
      · -- its key is still there, and is counted again
        obtain ⟨n, c₃, hmake', hshrunk, -⟩ := AudioCache.makeRoom_ends h.books.counts hpos hlarge
        have hsame := (AudioCache.makeRoom_mono hmake (le_max_left rounds n)).symm.trans
          (AudioCache.makeRoom_mono hmake' (le_max_right rounds n))
        cases hsame
        push Not at hfits
        obtain ⟨kept, hkept, hroom, hkey⟩ := hfits hpos
        have hmem : key ∈ c₂.store.keys := ((hshrunk.room kept hkept hroom).map Prod.fst).subset hkey
        exact .inr fun hbooks => AudioCache.not_counts_insert hshrunk.counts hmem hbooks.counts
      · rw [AudioCache.makeRoom_diverges (not_lt.mp hpos)] at hmake
        cases hmake

theorem keepsBooks_inBooks {calls : List CacheCall} (h : KeepsBooks cfg c L calls) : InBooks cfg c := by
  cases calls with
  | nil => exact h
  | cons call rest => exact h.1

theorem Standing.keepsBooks_iff_fits (h : Standing cfg c L) (calls : List CacheCall) :
    KeepsBooks cfg c L calls ↔ AllFitting cfg c L calls := by
  induction calls generalizing c L with
  | nil => exact iff_of_true h.books trivial
  | cons call rest ih =>
      constructor
      · rintro ⟨-, result, c', hreturns, hresult, hrest⟩
        have hfits : Fitting cfg c L call := by
          by_contra hfits
          rcases h.fails hfits hreturns with hne | hbooks
          · exact hne hresult
          · exact hbooks (keepsBooks_inBooks hrest)
        refine ⟨hfits, fun result'' c'' hreturns' => ?_⟩
        obtain ⟨c₁, hreturns₁, hstanding⟩ := h.fitting hfits
        obtain ⟨-, rfl⟩ := AudioCache.returns_unique hreturns hreturns'
        obtain ⟨-, rfl⟩ := AudioCache.returns_unique hreturns hreturns₁
        exact (ih hstanding).mp hrest
      · rintro ⟨hfits, hrest⟩
        obtain ⟨c', hreturns, hstanding⟩ := h.fitting hfits
        exact ⟨h.books, _, c', hreturns, rfl, (ih hstanding).mpr (hrest _ c' hreturns)⟩

/-- Nothing is cached, and nothing was set. -/
theorem inBooks_empty_iff : InBooks cfg .empty ↔ ∀ maxBytes, cfg.maxBytes = some maxBytes → 0 ≤ maxBytes :=
  ⟨fun h => h.budget, fun h => ⟨AudioCache.counts_empty, le_max_right _ _, h⟩⟩

/-- **When the cache keeps its books.** -/
theorem keepsBooks_iff (cfg : CacheConfig) (calls : List CacheCall) :
    KeepsBooks cfg .empty (fun _ => .unset) calls
      ↔ (∀ maxBytes, cfg.maxBytes = some maxBytes → 0 ≤ maxBytes) ∧ AllFitting cfg .empty (fun _ => .unset) calls := by
  have hstanding : InBooks cfg .empty → Standing cfg .empty (fun _ => .unset) := fun hbooks =>
    { books := hbooks
      live := fun _ _ _ hlive => by cases hlive
      stored := fun _ _ hstored => by cases hstored }
  rw [← inBooks_empty_iff]
  constructor
  · intro h
    have hbooks := keepsBooks_inBooks h
    exact ⟨hbooks, ((hstanding hbooks).keepsBooks_iff_fits calls).mp h⟩
  · rintro ⟨hbooks, hfits⟩
    exact ((hstanding hbooks).keepsBooks_iff_fits calls).mpr hfits

end Calls

/-! ## §3. One key, twice. -/

def sampleCacheConfig : CacheConfig := ⟨60000, 10, none⟩

/-- **A key that is set twice** is counted twice, though it is stored once. -/
theorem sampleSetTwice_miscounts :
    ¬KeepsBooks sampleCacheConfig .empty (fun _ => .unset) [.set "k" [1, 2, 3] 0, .set "k" [4] 1] := by
  rintro ⟨-, r, c₁, ⟨n, h₁⟩, -, -, r', c₂, ⟨n', h₂⟩, -, hbooks⟩
  have hfirst : ∀ n, AudioCache.empty.call sampleCacheConfig n (.set "k" [1, 2, 3] 0)
      = some (none, AudioCache.empty.insert "k" [1, 2, 3] 0) := fun n => by
    simp [AudioCache.call, AudioCache.set, AudioCache.makeRoom, sampleCacheConfig, CacheConfig.isTooLarge,
      loop_of_not (show AudioCache.isFull ⟨60000, 10, none⟩ .empty = false by decide)]
  have hsecond : ∀ n, (AudioCache.empty.insert "k" [1, 2, 3] 0).call sampleCacheConfig n (.set "k" [4] 1)
      = some (none, (AudioCache.empty.insert "k" [1, 2, 3] 0).insert "k" [4] 1) := fun n => by
    simp [AudioCache.call, AudioCache.set, AudioCache.makeRoom, sampleCacheConfig, CacheConfig.isTooLarge,
      loop_of_not (show AudioCache.isFull ⟨60000, 10, none⟩ (AudioCache.empty.insert "k" [1, 2, 3] 0) = false by decide)]
  obtain ⟨-, rfl⟩ := Prod.mk.inj (Option.some.inj (h₁.symm.trans (hfirst n)))
  obtain ⟨-, rfl⟩ := Prod.mk.inj (Option.some.inj (h₂.symm.trans (hsecond n')))
  have hsize : ((AudioCache.empty.insert "k" [1, 2, 3] 0).insert "k" [4] 1).metrics.size
      = (((AudioCache.empty.insert "k" [1, 2, 3] 0).insert "k" [4] 1).store.size : Int) := hbooks.counts.size
  revert hsize
  decide

end PredictIQ.Tts
