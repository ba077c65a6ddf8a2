/-
  PredictIQ.Tts.RateLimiter: the in-memory `RateLimiter`, and its evictions.

  A window of a key begins with a check that finds none, or one that is over.
  `evictExpired` removes windows that are over; a check that reads an earlier
  time than an eviction could find such a window open, so evictions are
  invisible as long as no check goes back behind one (`NeverBack`).
-/
import PredictIQ.Foundation.Windows
import PredictIQ.Tts.Service

namespace PredictIQ.Tts

open Foundation

/-! ## §1. The limiter. -/

structure RateLimitMetrics where
  totalChecks : Nat := 0
  totalExceeded : Nat := 0
  currentCounts : Store String Nat := ∅

structure RateLimiter where
  store : Store String RateLimitEntry := ∅
  metrics : RateLimitMetrics := {}

structure RateLimitError where
  message : String
  deriving DecidableEq

def rateLimitMessage (limit : RateLimitConfig) (key : String) (count : Nat) : String :=
  "Rate limit exceeded for key \"" ++ key ++ "\": " ++ toString count ++ "/" ++ toString limit.maxRequests ++ " in "
    ++ toString limit.windowMs ++ "ms"

/-- A call, with the time it reads. -/
inductive LimiterCall
  | check (key : String) (now : Int)
  | evictExpired (now : Int)
  deriving DecidableEq

/-- What a check comes to, and the window it was counted in. -/
structure CheckResult where
  key : String
  now : Int
  entry : RateLimitEntry
  result : Except RateLimitError Unit

section Limiter

variable (limit : RateLimitConfig)

/-- `now - entry.windowStart >= this.config.windowMs`. -/
def RateLimitEntry.isOver (entry : RateLimitEntry) (now : Int) : Bool := now - entry.windowStart ≥ limit.windowMs

namespace RateLimiter

/-- The window that a check is counted in, before it is counted. -/
def entryFor (now : Int) (key : String) (l : RateLimiter) : RateLimitEntry :=
  match l.store.lookup key with
  | some entry => if entry.isOver limit now then ⟨0, now⟩ else entry
  | none => ⟨0, now⟩

/-- The window after a check, which counts it. -/
def counted (now : Int) (key : String) (l : RateLimiter) : RateLimitEntry :=
  { l.entryFor limit now key with count := (l.entryFor limit now key).count + 1 }

def check (now : Int) (key : String) (l : RateLimiter) : Except RateLimitError Unit × RateLimiter :=
  let entry := l.counted limit now key
  let exceeded : Bool := entry.count > limit.maxRequests
  let metrics := {
    totalChecks := l.metrics.totalChecks + 1
    totalExceeded := if exceeded then l.metrics.totalExceeded + 1 else l.metrics.totalExceeded
    currentCounts := l.metrics.currentCounts.insert key entry.count }
  (if exceeded then .error ⟨rateLimitMessage limit key entry.count⟩ else .ok (), ⟨l.store.insert key entry, metrics⟩)

def evictExpired (now : Int) (l : RateLimiter) : RateLimiter :=
  let expired := (l.store.entries.filter fun e => e.2.isOver limit now).map (·.1)
  { l with
    store := l.store.deleteWhere (·.isOver limit now)
    metrics.currentCounts := Store.eraseAll l.metrics.currentCounts expired }

/-- What the checks among the calls come to. -/
def results (l : RateLimiter) : List LimiterCall → List CheckResult
  | [] => []
  | .check key now :: rest =>
      ⟨key, now, l.counted limit now key, (l.check limit now key).1⟩ :: results (l.check limit now key).2 rest
  | .evictExpired now :: rest => results (l.evictExpired limit now) rest

end RateLimiter

/-! ## §2. What is claimed of it. -/

def LimiterCall.now : LimiterCall → Int
  | .check _ now | .evictExpired now => now

def LimiterCall.isCheck : LimiterCall → Bool
  | .check _ _ => true
  | .evictExpired _ => false

/-- The calls that a key has to do with. -/
def LimiterCall.concerns (key : String) : LimiterCall → Bool
  | .check key' _ => key' == key
  | .evictExpired _ => true

def NonDecreasing (calls : List LimiterCall) : Prop := (calls.map LimiterCall.now).Pairwise (· ≤ ·)

/-- The calls are made of `l`, and without the evictions of `ref`: no check reads
a time at which a window that was evicted would still be open. -/
def NeverBack (l ref : RateLimiter) : List LimiterCall → Prop
  | [] => True
  | .check key now :: rest => (l.store.lookup key = none → ∀ entry, ref.store.lookup key = some entry →
        entry.isOver limit now = true)
      ∧ NeverBack (l.check limit now key).2 (ref.check limit now key).2 rest
  | .evictExpired now :: rest => NeverBack (l.evictExpired limit now) ref rest

def CheckResult.isAdmitted (r : CheckResult) : Bool := r.result.isOk

/-- The results of one key. -/
def resultsOf (key : String) (calls : List LimiterCall) : List CheckResult :=
  (RateLimiter.results limit {} calls).filter fun r => r.key == key

/-- The number of checks that were admitted. -/
def admitted (rs : List CheckResult) : Nat := rs.countP CheckResult.isAdmitted

/-- In each window of a key, which is counted from 1 on, at most `maxRequests` are admitted. -/
def WindowsBounded (calls : List LimiterCall) : Prop :=
  ∀ key window, window <:+: resultsOf limit key calls → (∀ r ∈ window.tail, r.entry.count ≠ 1) →
    admitted window ≤ limit.maxRequests.toNat

/-- A time in the interval of a length from `start` on; the end belongs to one of positive length. -/
def Within (length start now : Int) : Prop := start ≤ now ∧ (now < start + length ∨ (0 < length ∧ now = start + length))

instance (length start now : Int) : Decidable (Within length start now) := inferInstanceAs (Decidable (_ ∧ _))

/-- In each interval of the length of a window at most twice as many are admitted. -/
def IntervalsBounded (calls : List LimiterCall) : Prop :=
  ∀ key start, admitted ((resultsOf limit key calls).filter fun r => decide (Within limit.windowMs start r.now))
    ≤ 2 * limit.maxRequests.toNat

/-! ## §3. One call. -/

section Calls

variable {limit} {l ref : RateLimiter} {key k : String} {now now' : Int} {entry : RateLimitEntry}

theorem RateLimitEntry.isOver_mono (h : entry.isOver limit now = true) (hle : now ≤ now') :
    entry.isOver limit now' = true := by
  have hover := of_decide_eq_true h
  exact decide_eq_true (by omega)

namespace RateLimiter

theorem lookup_check (l : RateLimiter) (now : Int) (key k : String) :
    (l.check limit now key).2.store.lookup k = if k = key then some (l.counted limit now key) else l.store.lookup k :=
  Store.lookup_insert_eq _ _ _ _

theorem lookup_evictExpired (l : RateLimiter) (now : Int) (k : String) :
    (l.evictExpired limit now).store.lookup k = (l.store.lookup k).filter fun entry => !entry.isOver limit now :=
  Store.lookup_deleteWhere _ _ _

theorem counted_of_some (h : l.store.lookup key = some entry) : l.counted limit now key
    = if entry.isOver limit now then ⟨1, now⟩ else ⟨entry.count + 1, entry.windowStart⟩ := by
  unfold counted entryFor
  rw [h]
  cases hover : entry.isOver limit now <;> simp [hover]

theorem counted_of_none (h : l.store.lookup key = none) : l.counted limit now key = ⟨1, now⟩ := by
  unfold counted entryFor
  rw [h]

/-- A check is decided by its window. -/
theorem check_congr (h : l.counted limit now key = ref.counted limit now key) :
    (l.check limit now key).1 = (ref.check limit now key).1 := by
  unfold check
  rw [h]

theorem counted_congr (h : l.store.lookup key = ref.store.lookup key) :
    l.counted limit now key = ref.counted limit now key := by
  unfold counted entryFor
  rw [h]

/-- A check is admitted up to the limit. -/
theorem isOk_check :
    (l.check limit now key).1.isOk = decide (((l.counted limit now key).count : Int) ≤ limit.maxRequests) := by
  unfold check
  by_cases h : ((l.counted limit now key).count : Int) > limit.maxRequests
  · simp [h, Except.isOk, Except.toBool]
  · simp [h, Except.isOk, Except.toBool, Int.not_lt.mp h]

end RateLimiter

end Calls

/-! ## §4. Evictions. -/

section Evictions

variable {limit} {l ref : RateLimiter}

/-- The store with evictions lacks some windows of the other. -/
def Thinner (l ref : RateLimiter) : Prop :=
  ∀ k, l.store.lookup k = ref.store.lookup k ∨ l.store.lookup k = none

theorem Thinner.check (h : Thinner l ref) {key : String} {now : Int}
    (hcounted : l.counted limit now key = ref.counted limit now key) :
    Thinner (l.check limit now key).2 (ref.check limit now key).2 := by
  intro k
  rw [RateLimiter.lookup_check, RateLimiter.lookup_check]
  by_cases hk : k = key
  · rw [if_pos hk, if_pos hk, hcounted]
    exact .inl rfl
  · rw [if_neg hk, if_neg hk]
    exact h k

theorem Thinner.evictExpired (h : Thinner l ref) (now : Int) : Thinner (l.evictExpired limit now) ref := by
  intro k
  rw [RateLimiter.lookup_evictExpired]
  rcases h k with hsame | hnone
  · cases hlookup : l.store.lookup k with
    | none => exact .inr rfl
    | some entry =>
        rw [← hsame, hlookup]
        cases hover : entry.isOver limit now with
        | true => exact .inr (by simp [hover])
        | false => exact .inl (by simp [hover])
  · rw [hnone]
    exact .inr rfl

/-- **A check that does not go back** is counted in the same window. -/
theorem Thinner.counted_eq (h : Thinner l ref) {key : String} {now : Int}
    (hback : l.store.lookup key = none → ∀ entry, ref.store.lookup key = some entry → entry.isOver limit now = true) :
    l.counted limit now key = ref.counted limit now key := by
  rcases h key with hsame | hnone
  · exact RateLimiter.counted_congr hsame
  · rw [RateLimiter.counted_of_none hnone]
    cases hlookup : ref.store.lookup key with
    | none => rw [RateLimiter.counted_of_none hlookup]
    | some entry => rw [RateLimiter.counted_of_some hlookup, if_pos (hback hnone entry hlookup)]

theorem results_filter_isCheck (h : Thinner l ref) {calls : List LimiterCall} (hback : NeverBack limit l ref calls) :
    l.results limit calls = ref.results limit (calls.filter LimiterCall.isCheck) := by
  induction calls generalizing l ref with
  | nil => rfl
  | cons call rest ih =>
      cases call with
      | check key now =>
          obtain ⟨hkey, hrest⟩ := hback
          have hcounted := h.counted_eq hkey
          rw [List.filter_cons_of_pos rfl]
          show _ :: _ = _ :: _
          rw [hcounted, RateLimiter.check_congr hcounted, ih (h.check hcounted) hrest]
      | evictExpired now =>
          rw [List.filter_cons_of_neg Bool.false_ne_true]
          exact ih (h.evictExpired now) hback

/-- What is missing was over by the time that the clock has reached. -/
def OverBy (limit : RateLimitConfig) (l ref : RateLimiter) (clock : Int) : Prop :=
  ∀ k entry, l.store.lookup k = none → ref.store.lookup k = some entry → entry.isOver limit clock = true

/-- **With readings that do not decrease no check goes back.** -/
theorem neverBack_of_nonDecreasing {clock : Int} (h : Thinner l ref) (hover : OverBy limit l ref clock)
    {calls : List LimiterCall} (hclock : ∀ call ∈ calls, clock ≤ call.now) (hmono : NonDecreasing calls) :
    NeverBack limit l ref calls := by
  induction calls generalizing l ref clock with
  | nil => trivial
  | cons call rest ih =>
      obtain ⟨hnext, hrest⟩ := List.pairwise_cons.mp hmono
      have hlater : ∀ call' ∈ rest, call.now ≤ call'.now := fun call' hcall' => hnext _ (List.mem_map_of_mem hcall')
      have hnow := hclock call List.mem_cons_self
      have hover' : OverBy limit l ref call.now := fun k entry hl href =>
        RateLimitEntry.isOver_mono (hover k entry hl href) hnow
      cases call with
      | check key now =>
          have hkey := hover' key
          have hcounted := h.counted_eq fun hnone entry => hkey entry hnone
          refine ⟨fun hnone entry => hkey entry hnone, ih (h.check hcounted) (fun k entry hl href => ?_) hlater hrest⟩
          rw [RateLimiter.lookup_check] at hl href
          split at hl
          · cases hl
          · next hk =>
              rw [if_neg hk] at href
              exact hover' k entry hl href
      | evictExpired now =>
          refine ih (h.evictExpired now) (fun k entry hl href => ?_) hlater hrest
          rw [RateLimiter.lookup_evictExpired] at hl
          -- what is missing now was evicted, and so is over, or was missing before
          rcases h k with hsame | hnone
          · rw [hsame, href] at hl
            cases hentry : entry.isOver limit now with
            | true => exact hentry
            | false =>
                rw [Option.filter_some_pos (by simp [hentry])] at hl
                cases hl
          · exact hover' k entry hnone href

end Evictions

/-! ## §5. Keys. -/

section Keys

variable {limit} {l l' : RateLimiter} {key : String}

/-- **The results of a key** are those of its own calls. -/
theorem results_filter_key (h : l.store.lookup key = l'.store.lookup key) (calls : List LimiterCall) :
    ((l.results limit calls).filter fun r => r.key == key)
      = l'.results limit (calls.filter (LimiterCall.concerns key)) := by
  induction calls generalizing l l' with
  | nil => rfl
  | cons call rest ih =>
      cases call with
      | check key' now =>
          by_cases hkey : key' = key
          · subst hkey
            have hcounted : l.counted limit now key' = l'.counted limit now key' := RateLimiter.counted_congr h
            have hconcerns : LimiterCall.concerns key' (.check key' now) = true := beq_self_eq_true key'
            rw [List.filter_cons_of_pos hconcerns]
            show (_ :: _).filter _ = _ :: _
            rw [List.filter_cons_of_pos (by simp), hcounted, RateLimiter.check_congr hcounted, ih]
            rw [RateLimiter.lookup_check, RateLimiter.lookup_check, if_pos rfl, if_pos rfl, hcounted]
          · -- the check of another key leaves this one's window alone
            rw [List.filter_cons_of_neg (by simpa [LimiterCall.concerns] using hkey)]
            show (_ :: _).filter _ = _
            rw [List.filter_cons_of_neg (by simpa using hkey), ih]
            rw [RateLimiter.lookup_check, if_neg (Ne.symm hkey)]
            exact h
      | evictExpired now =>
          rw [List.filter_cons_of_pos rfl]
          refine ih ?_
          rw [RateLimiter.lookup_evictExpired, RateLimiter.lookup_evictExpired, h]

variable (limit) in
/-- The results have the times of the calls. -/
theorem now_results_sublist (l : RateLimiter) (calls : List LimiterCall) :
    ((l.results limit calls).map CheckResult.now).Sublist (calls.map LimiterCall.now) := by
  induction calls generalizing l with
  | nil => exact List.Sublist.refl []
  | cons call rest ih =>
      cases call with
      | check key now => exact (ih _).cons_cons _
      | evictExpired now => exact (ih _).cons _

end Keys

/-! ## §6. Windows. -/

section Windows

variable {limit} {l : RateLimiter} {key : String}

/-- The next check of a key: in the same window, or in a new one when that is over. -/
def Next (limit : RateLimitConfig) (entry : RateLimitEntry) (r : CheckResult) : Prop :=
  (entry.isOver limit r.now = false ∧ r.entry = ⟨entry.count + 1, entry.windowStart⟩)
    ∨ (entry.isOver limit r.now = true ∧ r.entry = ⟨1, r.now⟩)

/-- What is true of the result of any check: it is counted, admitted up to the
limit, and in a window that is not over, if windows have a length. -/
structure Sound (limit : RateLimitConfig) (r : CheckResult) : Prop where
  counted : 1 ≤ r.entry.count
  admitted : r.isAdmitted = decide ((r.entry.count : Int) ≤ limit.maxRequests)
  opened : r.entry.count = 1 → r.entry.windowStart = r.now
  open' : 0 < limit.windowMs → r.now < r.entry.windowStart + limit.windowMs

/-- Windows in the store have counted a check. -/
def Counted (l : RateLimiter) : Prop := ∀ k entry, l.store.lookup k = some entry → 1 ≤ entry.count

/-- A check of the key, with the window that it is counted in. -/
def resultOf (limit : RateLimitConfig) (l : RateLimiter) (key : String) (now : Int) : CheckResult :=
  ⟨key, now, l.counted limit now key, (l.check limit now key).1⟩

theorem next_resultOf {entry : RateLimitEntry} (h : l.store.lookup key = some entry) (now : Int) :
    Next limit entry (resultOf limit l key now) := by
  unfold Next resultOf
  rw [RateLimiter.counted_of_some h]
  cases hover : entry.isOver limit now with
  | true => exact .inr ⟨rfl, rfl⟩
  | false => exact .inl ⟨rfl, rfl⟩

/-- The first check of a window. -/
theorem sound_of_new {now : Int} (h : l.counted limit now key = ⟨1, now⟩) : Sound limit (resultOf limit l key now) := by
  have hentry : (resultOf limit l key now).entry = ⟨1, now⟩ := h
  refine ⟨?_, RateLimiter.isOk_check, ?_, ?_⟩ <;> rw [hentry]
  · exact fun _ => rfl
  · intro hpos
    show now < now + limit.windowMs
    omega

/-- **Every check is sound.** -/
theorem sound_resultOf (hl : Counted l) (key : String) (now : Int) : Sound limit (resultOf limit l key now) := by
  cases hlookup : l.store.lookup key with
  | none => exact sound_of_new (RateLimiter.counted_of_none hlookup)
  | some entry =>
      have hcounted : l.counted limit now key = _ := RateLimiter.counted_of_some hlookup
      cases hover : entry.isOver limit now with
      | true =>
          rw [hover, if_pos rfl] at hcounted
          exact sound_of_new hcounted
      | false =>
          rw [hover, if_neg Bool.false_ne_true] at hcounted
          have hentry : (resultOf limit l key now).entry = ⟨entry.count + 1, entry.windowStart⟩ := hcounted
          have hpos := hl key entry hlookup
          have hopen := of_decide_eq_false hover
          refine ⟨?_, RateLimiter.isOk_check, ?_, ?_⟩ <;> rw [hentry]
          · exact Nat.le_add_left 1 _
          · intro hone
            have hone : entry.count + 1 = 1 := hone
            omega
          · intro _
            show now < entry.windowStart + limit.windowMs
            omega

theorem Counted.check (hl : Counted l) (key : String) (now : Int) : Counted (l.check limit now key).2 := by
  intro k entry hentry
  rw [RateLimiter.lookup_check] at hentry
  split at hentry
  · obtain rfl := Option.some.inj hentry
    exact (sound_resultOf hl key now).counted
  · exact hl k entry hentry

/-- **The results of one key's checks** follow one another. -/
theorem isChain_results (hl : Counted l) {calls : List LimiterCall}
    (hcalls : ∀ call ∈ calls, ∃ now, call = .check key now) :
    (∀ entry, l.store.lookup key = some entry → ∀ r ∈ (l.results limit calls).head?, Next limit entry r)
      ∧ (l.results limit calls).IsChain (fun r r' => Next limit r.entry r')
      ∧ ∀ r ∈ l.results limit calls, Sound limit r := by
  induction calls generalizing l with
  | nil => exact ⟨fun _ _ => nofun, List.isChain_nil, nofun⟩
  | cons call rest ih =>
      obtain ⟨hcall, hrest⟩ := List.forall_mem_cons.mp hcalls
      obtain ⟨now, rfl⟩ := hcall
      obtain ⟨hhead, hchain, hall⟩ := ih (hl.check key now) hrest
      show (∀ entry, _ → ∀ r ∈ (resultOf limit l key now :: _).head?, _) ∧ (resultOf limit l key now :: _).IsChain _
        ∧ ∀ r ∈ resultOf limit l key now :: _, _
      refine ⟨fun entry hentry r hr => ?_, List.isChain_cons.mpr ⟨?_, hchain⟩,
        List.forall_mem_cons.mpr ⟨sound_resultOf hl key now, hall⟩⟩
      · obtain rfl := Option.some.inj hr
        exact next_resultOf hentry now
      · -- the window of this check is what the next one finds
        have hlookup : (l.check limit now key).2.store.lookup key = some (resultOf limit l key now).entry := by
          rw [RateLimiter.lookup_check, if_pos rfl]
          rfl
        exact hhead _ hlookup

/-- Results in the order of their times, each counted behind the one before it. -/
structure Sequenced (limit : RateLimitConfig) (rs : List CheckResult) : Prop where
  chain : rs.IsChain fun r r' => Next limit r.entry r'
  sound : ∀ r ∈ rs, Sound limit r
  sorted : rs.Pairwise fun r r' => r.now ≤ r'.now

variable {rs rs' : List CheckResult} {r r' : CheckResult}

theorem Sequenced.segment (h : Sequenced limit rs') (hsegment : rs <:+: rs') : Sequenced limit rs where
  chain := List.IsChain.infix h.chain hsegment
  sound r hr := h.sound r (hsegment.subset hr)
  sorted := h.sorted.sublist hsegment.sublist

/-- Inside a window the counts follow one another. -/
theorem Next.of_ne_one (h : Next limit r.entry r') (hcount : r'.entry.count ≠ 1) :
    r'.entry = ⟨r.entry.count + 1, r.entry.windowStart⟩ := by
  rcases h with ⟨-, hsame⟩ | ⟨-, hnew⟩
  · exact hsame
  · rw [hnew] at hcount
    exact absurd rfl hcount

/-- **One window** admits at most the limit. -/
theorem Sequenced.admitted_window_le (h : Sequenced limit rs) (htail : ∀ r ∈ rs.tail, r.entry.count ≠ 1) :
    admitted rs ≤ limit.maxRequests.toNat := by
  have hcounts : rs.IsChain fun r r' => r'.entry.count = r.entry.count + 1 := by
    have hchain := h.chain
    clear h
    induction rs with
    | nil => exact List.isChain_nil
    | cons r rest ih =>
        obtain ⟨hnext, hrest⟩ := List.isChain_cons.mp hchain
        refine List.isChain_cons.mpr ⟨fun r' hr' => ?_, ih (fun r' hr' => htail r' (List.mem_of_mem_tail hr')) hrest⟩
        rw [(hnext r' hr').of_ne_one (htail r' (List.mem_of_head? hr'))]
  have hadmitted : admitted rs = rs.countP fun r => decide (r.entry.count ≤ limit.maxRequests.toNat) := by
    refine List.countP_congr fun r hr => ?_
    have hsound := h.sound r hr
    have hpos := hsound.counted
    rw [hsound.admitted, decide_eq_true_iff, decide_eq_true_iff]
    omega
  rw [hadmitted]
  exact countP_le_of_isChain hcounts fun r hr => (h.sound r (List.mem_of_head? hr)).counted

/-- The next window begins when the one before it is over. -/
theorem Sequenced.le_of_opens {front back : List CheckResult} (h : Sequenced limit (r :: (front ++ r' :: back)))
    (hfront : ∀ x ∈ front, x.entry.count ≠ 1) (hopens : r'.entry.count = 1) :
    r.entry.windowStart + limit.windowMs ≤ r'.now := by
  induction front generalizing r with
  | nil =>
      have hpos := (h.sound r List.mem_cons_self).counted
      rcases (List.isChain_cons.mp h.chain).1 r' rfl with ⟨-, hsame⟩ | ⟨hover, -⟩
      · rw [hsame] at hopens
        have hzero : r.entry.count + 1 = 1 := hopens
        omega
      · have hle := of_decide_eq_true hover
        omega
  | cons x front ih =>
      have hx := ((List.isChain_cons.mp h.chain).1 x rfl).of_ne_one (hfront x List.mem_cons_self)
      have hrest := ih (h.segment (List.suffix_cons _ _).isInfix) fun y hy => hfront y (List.mem_cons_of_mem _ hy)
      rwa [hx] at hrest

/-- **An interval of the length of a window** meets two windows at most. -/
theorem Sequenced.admitted_within_le {start : Int} (h : Sequenced limit rs)
    (hwithin : ∀ r ∈ rs, Within limit.windowMs start r.now) : admitted rs ≤ 2 * limit.maxRequests.toNat := by
  cases rs with
  | nil => exact Nat.zero_le _
  | cons r rest =>
      have hpos : 0 < limit.windowMs := by
        have hr := hwithin r List.mem_cons_self
        unfold Within at hr
        omega
      rcases exists_cut (fun x : CheckResult => x.entry.count = 1) rest with
        hone | ⟨front, second, rest', rfl, hfront, hsecond⟩
      · have hle := h.admitted_window_le hone
        omega
      · have hfirst : admitted (r :: front) ≤ limit.maxRequests.toNat :=
          (h.segment ⟨[], second :: rest', rfl⟩).admitted_window_le hfront
        have hlater : Sequenced limit (second :: rest') := h.segment ⟨r :: front, [], by simp⟩
        have hgap := h.le_of_opens hfront hsecond
        have hopen := (h.sound r List.mem_cons_self).open' hpos
        -- a third window would begin behind the interval
        have hnone : ∀ x ∈ rest', x.entry.count ≠ 1 := by
          rcases exists_cut (fun x : CheckResult => x.entry.count = 1) rest' with
            hnone | ⟨front', third, back, rfl, hfront', hthird⟩
          · exact hnone
          · have hgap' := hlater.le_of_opens hfront' hthird
            rw [(hlater.sound second List.mem_cons_self).opened hsecond] at hgap'
            have hr := hwithin r List.mem_cons_self
            have hend := hwithin third (by simp)
            unfold Within at hr hend
            omega
        have hsplit : admitted ((r :: front) ++ second :: rest') = admitted (r :: front) + admitted (second :: rest') :=
          List.countP_append
        rw [← List.cons_append, hsplit]
        have hle := hlater.admitted_window_le hnone
        omega

end Windows

/-! ## §7. Runs. -/

section Runs

variable {limit} {calls : List LimiterCall}

theorem thinner_new : Thinner {} {} := fun _ => .inl rfl

theorem NonDecreasing.neverBack (h : NonDecreasing calls) : NeverBack limit {} {} calls := by
  cases calls with
  | nil => trivial
  | cons call rest =>
      have hover : OverBy limit {} {} call.now := fun _ _ _ => nofun
      refine neverBack_of_nonDecreasing thinner_new hover (fun call' hcall' => ?_) h
      rcases List.mem_cons.mp hcall' with rfl | hcall'
      · exact Int.le_refl _
      · exact (List.pairwise_cons.mp h).1 _ (List.mem_map_of_mem hcall')

/-- The results of a key, when no check goes back, are those of its checks alone. -/
theorem sequenced_resultsOf (h : NonDecreasing calls) (key : String) : Sequenced limit (resultsOf limit key calls) := by
  have hown : resultsOf limit key calls
      = RateLimiter.results limit {} ((calls.filter LimiterCall.isCheck).filter (LimiterCall.concerns key)) := by
    unfold resultsOf
    rw [results_filter_isCheck thinner_new h.neverBack]
    exact results_filter_key rfl _
  have hchecks : ∀ call ∈ (calls.filter LimiterCall.isCheck).filter (LimiterCall.concerns key),
      ∃ now, call = .check key now := by
    intro call hcall
    obtain ⟨hcall, hconcerns⟩ := List.mem_filter.mp hcall
    cases call with
    | check key' now => exact ⟨now, by rw [beq_iff_eq.mp hconcerns]⟩
    | evictExpired now => exact absurd (List.mem_filter.mp hcall).2 Bool.false_ne_true
  have hnew : Counted {} := fun _ _ => nofun
  obtain ⟨-, hchain, hsound⟩ := @isChain_results limit {} key hnew _ hchecks
  rw [← hown] at hchain hsound
  refine ⟨hchain, hsound, ?_⟩
  have htimes := List.Pairwise.sublist (now_results_sublist limit {} calls) h
  exact (List.pairwise_map.mp htimes).sublist List.filter_sublist

/-- **Evictions are invisible** when no check goes back behind one, as with
readings that do not decrease; these are limited in each window, and twice in
each interval; and keys do not influence one another. -/
theorem evictions_invisible (limit : RateLimitConfig) (calls : List LimiterCall) :
    (NeverBack limit {} {} calls →
      RateLimiter.results limit {} calls = RateLimiter.results limit {} (calls.filter LimiterCall.isCheck))
    ∧ (NonDecreasing calls → NeverBack limit {} {} calls ∧ WindowsBounded limit calls ∧ IntervalsBounded limit calls)
    ∧ ∀ key, resultsOf limit key calls = RateLimiter.results limit {} (calls.filter (LimiterCall.concerns key)) := by
  refine ⟨results_filter_isCheck thinner_new,
    fun h => ⟨h.neverBack, fun key window hwindow htail => ?_, fun key start => ?_⟩,
    fun key => results_filter_key rfl calls⟩
  · exact ((sequenced_resultsOf h key).segment hwindow).admitted_window_le htail
  · have hsequenced : Sequenced limit (resultsOf limit key calls) := sequenced_resultsOf h key
    refine (hsequenced.segment (filter_segment hsequenced.sorted fun x y z hxy hyz hx hz => ?_)).admitted_within_le
      fun r hr => of_decide_eq_true (List.mem_filter.mp hr).2
    have hx := of_decide_eq_true hx
    have hz := of_decide_eq_true hz
    apply decide_eq_true
    unfold Within at *
    omega

/-- Four checks of one key and one of another, with evictions between them. -/
def sampleCalls : List LimiterCall :=
  [.check "k" 0, .evictExpired 50, .check "l" 50, .check "k" 99, .check "k" 99, .evictExpired 150, .check "k" 200]

/-- The clock does not go back; the first and the last check of the key are admitted. -/
theorem evictions_invisible_sample :
    (RateLimiter.results ⟨1, 100⟩ {} sampleCalls
        = RateLimiter.results ⟨1, 100⟩ {} (sampleCalls.filter LimiterCall.isCheck)
      ∧ WindowsBounded ⟨1, 100⟩ sampleCalls ∧ IntervalsBounded ⟨1, 100⟩ sampleCalls)
      ∧ (resultsOf ⟨1, 100⟩ "k" sampleCalls).map CheckResult.isAdmitted = [true, false, false, true] := by
  have h := evictions_invisible ⟨1, 100⟩ sampleCalls
  have hsorted : (sampleCalls.map LimiterCall.now).Pairwise (· ≤ ·) := by decide
  obtain ⟨hback, hbounded⟩ := h.2.1 hsorted
  exact ⟨⟨h.1 hback, hbounded⟩, by decide⟩

/-- A check that goes back behind an eviction is admitted, and refused without it. -/
theorem eviction_visible : RateLimiter.results ⟨1, 100⟩ {} [.check "k" 0, .evictExpired 150, .check "k" 50]
    ≠ RateLimiter.results ⟨1, 100⟩ {} [.check "k" 0, .check "k" 50] := by
  intro h
  have hadmitted := congrArg admitted h
  exact absurd hadmitted (by decide)

end Runs

end Limiter

end PredictIQ.Tts
