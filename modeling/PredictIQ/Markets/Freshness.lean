/-
  PredictIQ.Markets.Freshness: whether a resolution shows in the listings.

  `resolveMarket` deletes the cached listings after its update.  A request that
  read the old rows may still write what it made of them after that, and later
  requests are then answered with it.  `OnTime` says of a step that it is not
  such a late write; `resolution_unmasked` says that in a run of steps on time
  every request that is started after a resolution has returned answers from
  reads at its revision or later, and `sampleLate_masks` is the run in which
  one late write masks a resolution.
-/
import PredictIQ.Markets.Listings
import PredictIQ.Foundation.TaskHistory

namespace PredictIQ.Markets

open Foundation Cache

/-! ## §1. What a request has read. -/

/-- The keys that the listings are cached under. -/
def listingKeys (cfg : Config) : List String :=
  [keys.apiStatistics, keys.apiFeaturedMarkets, keys.dbqStatistics, keys.dbqFeaturedMarkets cfg.featuredLimit]

/-- The revisions that a request has read, that of its own update, and the keys
it has deleted after it. -/
structure Trail where
  heard : List Nat
  resolved : Option Nat
  deleted : List String

/-- A later trail of one request, which has not updated in between. -/
instance : Preorder Trail where
  le φ ψ := φ.heard ⊆ ψ.heard ∧ ψ.resolved = φ.resolved ∧ φ.deleted ⊆ ψ.deleted
  le_refl φ := ⟨List.Subset.refl _, rfl, List.Subset.refl _⟩
  le_trans φ ψ χ h h' := ⟨List.Subset.trans h.1 h'.1, h'.2.1.trans h.2.1, List.Subset.trans h.2.2 h'.2.2⟩

section Trails

variable {K : Crates} (cfg : Config)

def Trail.hear (φ : Trail) : (q : Command K.setting) → Reply q → Trail
  | .get key _, some text => if key ∈ listingKeys cfg then { φ with heard := text.revision :: φ.heard } else φ
  | .del key, _ => { φ with deleted := key :: φ.deleted }
  | .outside .selectStatistics, row => { φ with heard := row.revision :: φ.heard }
  | .outside (.selectFeaturedMarkets _), rows => { φ with heard := rows.revision :: φ.heard }
  | .outside (.contractData _), data => { φ with heard := data.revision :: φ.heard }
  | .outside (.updateResolved ..), rowsAffected => ⟨φ.heard, some rowsAffected.revision, []⟩
  | _, _ => φ

def Trail.next (φ : Trail) (q : Command K.setting) : Except String (Reply q) → Trail
  | .ok v => φ.hear cfg q v
  | .error _ => φ

/-- A response is made of what was read, and a resolution that reports success
has deleted the listings. -/
def Trail.allows (φ : Trail) : Command K.setting → Prop
  | .setNxEx key _ _ => key ∉ listingKeys cfg
  | .incrWithTtl .. | .delKeys _ => False
  | .outside (.respondStatistics payload) => payload.revision ∈ φ.heard
  | .outside (.respondFeaturedMarkets page) => page.revision ∈ φ.heard
  | .outside (.respondResolveMarket result) =>
      result.value.cacheInvalidated = true → φ.resolved = some result.revision ∧ listingKeys cfg ⊆ φ.deleted
  | _ => True

variable (K) in
def trailMonitor : Monitor (Reply (W := K.setting)) String Trail :=
  ⟨⟨[], none, []⟩, Trail.next cfg, Trail.allows cfg⟩

/-- From trail `φ` on the program keeps to the discipline, never loses its
trail, and what it returns is good. -/
def Brings {α : Type} (φ : Trail) (p : CacheM K.setting α) (good : Trail → α → Prop) : Prop :=
  ∀ ψ, φ ≤ ψ → (trailMonitor K cfg).Obeys (fun ψ' r => ψ ≤ ψ' ∧ ∀ a, r = .ok a → good ψ' a) ψ p

end Trails

section Rules

open Monitor

variable {K : Crates} {cfg : Config} {α β : Type} {φ ψ : Trail} {good : Trail → β → Prop}

theorem Brings.later {p : CacheM K.setting β} (h : Brings cfg φ p good) (hψ : φ ≤ ψ) : Brings cfg ψ p good :=
  fun ψ' hψ' => h ψ' (hψ.trans hψ')

theorem Brings.mono {good' : Trail → β → Prop} {p : CacheM K.setting β} (h : Brings cfg φ p good)
    (hgood : ∀ ψ b, good ψ b → good' ψ b) : Brings cfg φ p good' :=
  fun ψ hψ => (h ψ hψ).mono fun _ _ hr => ⟨hr.1, fun b hb => hgood _ b (hr.2 b hb)⟩

theorem brings_pure {b : β} (h : ∀ ψ, φ ≤ ψ → good ψ b) : Brings (K := K) cfg φ (pure b) good := by
  intro ψ hψ
  refine ⟨le_refl ψ, fun b' hb' => ?_⟩
  obtain rfl := Except.ok.inj hb'
  exact h ψ hψ

theorem brings_error (e : String) : Brings (K := K) cfg φ (.done (.error e)) good :=
  fun ψ _ => ⟨le_refl ψ, fun _ h => by cases h⟩

theorem brings_bind {P : Trail → α → Prop} {p : CacheM K.setting α} {f : α → CacheM K.setting β}
    (hp : Brings cfg φ p P) (hf : ∀ ψ a, φ ≤ ψ → P ψ a → Brings cfg ψ (f a) good) :
    Brings cfg φ (p >>= f) good := by
  intro ψ hψ
  refine obeys_bind.mpr ((hp ψ hψ).mono fun ψ' r hr => ?_)
  cases r with
  | error e => exact ⟨hr.1, fun _ h => by cases h⟩
  | ok a =>
      refine (hf ψ' a (hψ.trans hr.1) (hr.2 a rfl) ψ' (le_refl ψ')).mono fun _ _ hr' => ?_
      exact ⟨hr.1.trans hr'.1, hr'.2⟩

/-- A result that is looked at, be it an error. -/
theorem brings_attempt_bind {P : Trail → α → Prop} {p : CacheM K.setting α}
    {f : Except String α → CacheM K.setting β} (hp : Brings cfg φ p P)
    (hok : ∀ ψ a, φ ≤ ψ → P ψ a → Brings cfg ψ (f (.ok a)) good)
    (herror : ∀ ψ e, φ ≤ ψ → Brings cfg ψ (f (.error e)) good) : Brings cfg φ (p.attempt >>= f) good := by
  refine brings_bind (P := fun ψ r => ∀ a, r = .ok a → P ψ a) (fun ψ hψ => ?_) fun ψ r hψ hr => ?_
  · refine obeys_attempt.mpr ((hp ψ hψ).mono fun ψ' r hr => ⟨hr.1, fun r' hr' a ha => ?_⟩)
    obtain rfl := Except.ok.inj hr'
    exact hr.2 a ha
  · cases r with
    | error e => exact herror ψ e hψ
    | ok a => exact hok ψ a hψ (hr a rfl)

theorem brings_ask {q : Command K.setting} {good : Trail → Reply q → Prop}
    (hallows : ∀ ψ, φ ≤ ψ → Trail.allows cfg ψ q)
    (hgood : ∀ ψ v, φ ≤ ψ → ψ ≤ Trail.hear cfg ψ q v ∧ good (Trail.hear cfg ψ q v) v) :
    Brings cfg φ (ask q) good := by
  refine fun ψ hψ => ⟨hallows ψ hψ, fun r => ?_⟩
  cases r with
  | error e => exact ⟨le_refl ψ, fun _ h => by cases h⟩
  | ok v =>
      refine ⟨(hgood ψ v hψ).1, fun v' hv' => ?_⟩
      obtain rfl := Except.ok.inj hv'
      exact (hgood ψ v hψ).2

/-- A command that leaves the trail. -/
def Quiet (cfg : Config) (q : Command K.setting) : Prop :=
  ∀ φ : Trail, φ.allows cfg q ∧ ∀ v, φ.hear cfg q v = φ

theorem brings_of_uses {p : CacheM K.setting β} (hp : p.Uses (Quiet cfg)) :
    Brings cfg φ p fun _ _ => True := by
  intro ψ _
  refine obeys_of_uses hp (fun q hq => ⟨(hq ψ).1, fun r => ?_⟩) fun r => ⟨le_refl ψ, fun _ _ => trivial⟩
  cases r with
  | error e => rfl
  | ok v => exact (hq ψ).2 v

end Rules

/-! ## §2. The cache. -/

section Operations

variable {K : Crates} {cfg : Config} {α : Type} {φ : Trail} {good : Trail → α → Prop}

theorem uses_allow : (cfg.cache.allow (W := K.setting)).Uses (Quiet cfg) := by
  refine Prog.Uses.bind (Prog.uses_call.mpr fun φ => ⟨trivial, fun v => rfl⟩) fun openedAt => ?_
  split
  · trivial
  · refine Prog.Uses.bind (Prog.uses_call.mpr fun φ => ⟨trivial, fun v => rfl⟩) fun now => ?_
    trivial

theorem uses_recordSuccess : (RedisCacheConfig.recordSuccess (W := K.setting)).Uses (Quiet cfg) := by
  refine Prog.Uses.bind (Prog.uses_call.mpr fun φ => ⟨trivial, fun v => rfl⟩) fun _ => ?_
  exact Prog.uses_call.mpr fun φ => ⟨trivial, fun v => rfl⟩

theorem uses_recordFailure : (cfg.cache.recordFailure (W := K.setting)).Uses (Quiet cfg) := by
  refine Prog.Uses.bind (Prog.uses_call.mpr fun φ => ⟨trivial, fun v => rfl⟩) fun prev => ?_
  split
  · refine Prog.Uses.bind (Prog.uses_call.mpr fun φ => ⟨trivial, fun v => rfl⟩) fun openedAt => ?_
    split
    · refine Prog.Uses.bind (Prog.uses_call.mpr fun φ => ⟨trivial, fun v => rfl⟩) fun now => ?_
      exact Prog.uses_call.mpr fun φ => ⟨trivial, fun v => rfl⟩
    · trivial
  · trivial

/-- What an attempt brings, the whole operation brings. -/
theorem brings_attempts (hgood : ∀ a, Monotone (good · a)) {op : CacheM K.setting α} (hop : Brings cfg φ op good)
    (attempt left : Nat) (lastErr : String) : Brings cfg φ (cfg.cache.attempts op attempt left lastErr) good := by
  induction left generalizing attempt lastErr φ with
  | zero => exact brings_error lastErr
  | succ left ih =>
      have hagain : ∀ ψ e, φ ≤ ψ → Brings cfg ψ (do
          cfg.cache.recordFailure
          cfg.cache.attempts op (attempt + 1) left e) good := by
        intro ψ e hψ
        refine brings_bind (brings_of_uses uses_recordFailure) fun ψ' _ hψ' _ => ?_
        exact ih (hop.later (hψ.trans hψ')) (attempt + 1) e
      have hattempt : Brings cfg φ (cfg.cache.tryOnce op fun e => cfg.cache.attempts op (attempt + 1) left e) good := by
        refine brings_attempt_bind (P := fun _ _ => True) ?_ (fun ψ _ hψ _ => ?_) fun ψ e hψ => hagain ψ _ hψ
        · exact brings_of_uses (Prog.uses_call.mpr fun φ => ⟨trivial, fun v => rfl⟩)
        · refine brings_attempt_bind (hop.later hψ) (fun ψ' a hψ' ha => ?_) fun ψ' e hψ' => hagain ψ' e (hψ.trans hψ')
          refine brings_bind (brings_of_uses uses_recordSuccess) fun ψ'' _ hψ'' _ => brings_pure fun χ hχ => ?_
          exact hgood a (hψ''.trans hχ) ha
      unfold RedisCacheConfig.attempts
      split
      · refine brings_bind (P := fun _ _ => True) ?_ fun ψ _ hψ _ => hattempt.later hψ
        exact brings_of_uses (Prog.uses_call.mpr fun φ => ⟨trivial, fun v => rfl⟩)
      · exact hattempt

theorem brings_exec (hgood : ∀ a, Monotone (good · a)) {op : CacheM K.setting α} (hop : Brings cfg φ op good) :
    Brings cfg φ (cfg.cache.exec op) good := by
  refine brings_bind (brings_of_uses uses_allow) fun ψ allowed hψ _ => ?_
  split
  · exact brings_attempts hgood (hop.later hψ) 0 _ _
  · exact brings_error _

/-- A command that leaves the trail, and is carried out with retries. -/
theorem brings_exec_quiet {q : Command K.setting} (hq : Quiet cfg q) :
    Brings cfg φ (cfg.cache.exec (ask q)) fun _ _ => True :=
  brings_exec (fun _ => monotone_const) (brings_of_uses (Prog.uses_call.mpr hq))

/-- What is found under the key of a listing has been read. -/
def Fresh (cfg : Config) (key : String) (ψ : Trail) (revision : Nat) : Prop :=
  key ∈ listingKeys cfg → revision ∈ ψ.heard

theorem Fresh.monotone (key : String) (revision : Nat) : Monotone (Fresh cfg key · revision) :=
  fun _ _ hψ h hkey => hψ.1 (h hkey)

/-- The revision of what a format holds. -/
def stamp : (f : Format K.setting.Code) → K.setting.Held f → Nat
  | .plain _, d => d.revision
  | .entry _, e => e.value.revision

theorem stamp_of_parse {f : Format K.setting.Code} {text : Dated K.Text} {h : K.setting.Held f}
    (hparse : K.setting.parse f (some text) = .ok (some h)) : stamp f h = text.revision := by
  cases f with
  | plain i =>
      simp only [Setting.parse, Setting.serde, datedPlain] at hparse
      cases hread : (K.plain i).fromStr text.value with
      | error e => simp [hread, Except.map] at hparse
      | ok v =>
          simp only [hread, Except.map, Except.ok.injEq, Option.some.injEq] at hparse
          rw [← hparse]
          rfl
  | entry i =>
      simp only [Setting.parse, Setting.serde, datedEntry] at hparse
      cases hread : (K.entry i).fromStr text.value with
      | error e => simp [hread, Except.map] at hparse
      | ok v =>
          simp only [hread, Except.map, Except.ok.injEq, Option.some.injEq] at hparse
          rw [← hparse]
          rfl

/-- What is found is fresh. -/
def FreshIn (cfg : Config) (key : String) {α : Type} (revision : α → Nat) (ψ : Trail) (found : Option α) : Prop :=
  ∀ a, found = some a → Fresh cfg key ψ (revision a)

theorem FreshIn.monotone (key : String) {α : Type} (revision : α → Nat) (found : Option α) :
    Monotone (FreshIn cfg key revision · found) :=
  fun _ _ hψ h a ha => Fresh.monotone key (revision a) hψ (h a ha)

theorem brings_getJson (f : Format K.setting.Code) (key : String) :
    Brings cfg φ (cfg.cache.getJson f key) (FreshIn cfg key (stamp f)) := by
  refine brings_exec (FreshIn.monotone key (stamp f)) ?_
  refine brings_bind (P := fun ψ val => ∀ text, val = some text → Fresh cfg key ψ text.revision) ?_ ?_
  · refine brings_ask (fun _ _ => trivial) fun ψ val _ => ?_
    cases val with
    | none => exact ⟨le_refl ψ, fun _ h => by cases h⟩
    | some text =>
        by_cases hkey : key ∈ listingKeys cfg
        · have hhear : Trail.hear (K := K) cfg ψ (.get key f) (some text)
              = { ψ with heard := text.revision :: ψ.heard } := if_pos hkey
          rw [hhear]
          refine ⟨⟨List.subset_cons_self _ _, rfl, List.Subset.refl _⟩, fun text' htext _ => ?_⟩
          obtain rfl := Option.some.inj htext
          exact List.mem_cons_self
        · have hhear : Trail.hear (K := K) cfg ψ (.get key f) (some text) = ψ := if_neg hkey
          rw [hhear]
          exact ⟨le_refl ψ, fun _ _ h => absurd h hkey⟩
  · intro ψ val _ hval
    cases hparse : K.setting.parse f val with
    | error e => exact brings_error e
    | ok found =>
        show Brings cfg ψ (pure found) _
        refine brings_pure fun χ hχ h hfound => ?_
        subst hfound
        cases val with
        | none => cases hparse
        | some text =>
            rw [stamp_of_parse hparse]
            exact Fresh.monotone key _ hχ (hval text rfl)

theorem brings_okSome {p : CacheM K.setting (Option α)} {key : String} {revision : α → Nat}
    (hp : Brings cfg φ p (FreshIn cfg key revision)) :
    Brings cfg φ (RedisCacheConfig.okSome p) (FreshIn cfg key revision) := by
  refine brings_attempt_bind hp (fun ψ found _ hfound => ?_) fun ψ e _ => ?_
  · exact brings_pure fun χ hχ => FreshIn.monotone key revision found hχ hfound
  · exact brings_pure fun χ _ a ha => by cases ha

theorem brings_cachedValue (i : Listing) (key : String) :
    Brings (K := K) cfg φ (cfg.cache.cachedValue (W := K.setting) i key) (FreshIn cfg key (·.revision)) := by
  refine brings_bind (brings_okSome (brings_getJson (.entry i) key)) fun ψ found _ hfound => ?_
  cases found with
  | none => exact brings_okSome (brings_getJson (.plain i) key)
  | some e =>
      have hrefresh : (RedisCacheConfig.xfetchShouldRefresh (W := K.setting) e).Uses (Quiet cfg) := by
        refine Prog.Uses.bind (Prog.uses_call.mpr fun φ => ⟨trivial, fun v => rfl⟩) fun now => ?_
        dsimp only
        split
        · trivial
        · exact Prog.uses_call.mpr fun φ => ⟨trivial, fun v => rfl⟩
      refine brings_bind (brings_of_uses hrefresh) fun ψ' refresh hψ' _ => ?_
      split
      · exact brings_pure fun χ _ a ha => by cases ha
      · refine brings_pure fun χ hχ a ha => ?_
        obtain rfl := Option.some.inj ha
        exact Fresh.monotone key _ (hψ'.trans hχ) (hfound e rfl)

/-- A key that begins with another letter is no lock. -/
theorem ne_lockKey {start : String} (h : start.toList.head?.any (· ≠ 's') = true) (rest key : String) :
    lockKey key ≠ start ++ rest := by
  intro heq
  have hhead : ("stampede_lock:".toList ++ key.toList).head? = (start.toList ++ rest.toList).head? := by
    rw [← String.toList_append, ← String.toList_append]
    exact congrArg (fun s : String => s.toList.head?) heq
  have hs : "stampede_lock:".toList.head? = some 's' := by decide +kernel
  rw [List.head?_append, List.head?_append, hs] at hhead
  cases hstart : start.toList.head? with
  | none => simp [hstart] at h
  | some c =>
      rw [hstart] at h hhead
      obtain rfl : 's' = c := by simpa using hhead
      simp at h

theorem lockKey_not_mem (cfg : Config) (key : String) : lockKey key ∉ listingKeys cfg := by
  have hwhole : ∀ k : String, k.toList.head?.any (· ≠ 's') = true → lockKey key ≠ k := by
    intro k hk
    rw [← String.append_empty (s := k)]
    exact ne_lockKey hk "" key
  simp only [listingKeys, List.mem_cons, List.not_mem_nil, or_false, not_or]
  refine ⟨hwhole _ ?_, hwhole _ ?_, hwhole _ ?_, ne_lockKey ?_ _ key⟩ <;> decide +kernel

theorem brings_lockAcquired (key : String) :
    Brings (K := K) cfg φ (cfg.cache.lockAcquired (W := K.setting) key) fun _ _ => True := by
  refine brings_attempt_bind (P := fun _ _ => True) ?_ (fun _ _ _ _ => ?_) fun _ _ _ => ?_
  · exact brings_exec_quiet fun φ => ⟨lockKey_not_mem cfg key, fun v => rfl⟩
  · exact brings_pure fun _ _ => trivial
  · exact brings_pure fun _ _ => trivial

theorem brings_setEx (key : String) (text : Dated K.Text) (seconds : Nat) :
    Brings (K := K) cfg φ (cfg.cache.exec (ask (W := K.setting) (.setEx key text seconds))) fun _ _ => True :=
  brings_exec_quiet fun _ => ⟨trivial, fun _ => rfl⟩

theorem brings_setEntry (i : Listing) (key : String) (entry : CachedEntry (K.setting.Val i)) (ttl : Nat) :
    Brings (K := K) cfg φ (cfg.cache.setEntry (W := K.setting) i key entry ttl) fun _ _ => True := by
  unfold RedisCacheConfig.setEntry
  cases (K.setting.entry i).toString entry with
  | error e => exact brings_error e
  | ok raw => exact brings_setEx key raw (ttl + 30)

theorem brings_setJson (i : Listing) (key : String) (value : K.setting.Val i) (ttl : Nat) :
    Brings (K := K) cfg φ (cfg.cache.setJson (W := K.setting) i key value ttl) fun _ _ => True := by
  unfold RedisCacheConfig.setJson
  cases (K.setting.plain i).toString value with
  | error e => exact brings_error e
  | ok raw => exact brings_setEx key raw ttl

theorem brings_del (key : String) :
    Brings (K := K) cfg φ (cfg.cache.del (W := K.setting) key) fun ψ _ => key ∈ ψ.deleted := by
  refine brings_exec (fun _ _ _ hψ h => hψ.2.2 h) ?_
  refine brings_bind (P := fun ψ _ => key ∈ ψ.deleted) ?_ fun ψ _ _ hkey => ?_
  · refine brings_ask (fun _ _ => trivial) fun ψ v _ => ⟨⟨List.Subset.refl _, rfl, ?_⟩, List.mem_cons_self⟩
    exact List.subset_cons_self _ _
  · exact brings_pure fun χ hχ => hχ.2.2 hkey

section Fetchers

variable {i : Listing} {key : String} {fetcher : CacheM K.setting (K.setting.Val i)}

/-- What the fetcher returns is fresh. -/
def Fetches (cfg : Config) (key : String) (φ : Trail) (fetcher : CacheM K.setting (K.setting.Val i)) : Prop :=
  Brings cfg φ fetcher fun ψ value => Fresh cfg key ψ value.revision

theorem brings_recompute (hfetcher : Fetches cfg key φ fetcher) (ttl : Nat) :
    Brings cfg φ (cfg.cache.recompute i key ttl fetcher) fun ψ found => Fresh cfg key ψ found.1.revision := by
  have hnow : ∀ ψ, Brings (K := K) cfg ψ (ask (W := K.setting) .nowMs) fun _ _ => True := fun ψ =>
    brings_of_uses (Prog.uses_call.mpr fun φ => ⟨trivial, fun v => rfl⟩)
  refine brings_bind (hnow φ) fun φ₁ _ h₁ _ => ?_
  refine brings_bind (Brings.later hfetcher h₁) fun φ₂ value _ hvalue => ?_
  refine brings_bind (hnow φ₂) fun φ₃ _ h₃ _ => brings_bind (hnow φ₃) fun φ₄ _ h₄ _ => ?_
  -- the value is stored and the lock released, whether or not that succeeds
  have hrest : ∀ ψ, φ₂ ≤ ψ → Brings (K := K) cfg ψ (do
      let _ ← (cfg.cache.del (W := K.setting) (lockKey key)).attempt
      return (value, false)) fun ψ found => Fresh cfg key ψ found.1.revision := by
    intro ψ hψ
    have hreturn : ∀ ψ', ψ ≤ ψ' → Brings (K := K) cfg ψ' (pure (value, false)) fun ψ found =>
        Fresh cfg key ψ found.1.revision := fun ψ' hψ' =>
      brings_pure fun χ hχ => Fresh.monotone key _ (hψ.trans (hψ'.trans hχ)) hvalue
    exact brings_attempt_bind (brings_del _) (fun ψ' _ hψ' _ => hreturn ψ' hψ') fun ψ' _ hψ' => hreturn ψ' hψ'
  have h₂₄ := h₃.trans h₄
  exact brings_attempt_bind (brings_setEntry i key _ ttl) (fun ψ _ hψ _ => hrest ψ (h₂₄.trans hψ))
    fun ψ _ hψ => hrest ψ (h₂₄.trans hψ)

theorem brings_poll (n : Nat) :
    Brings (K := K) cfg φ (cfg.cache.poll (W := K.setting) i key n) (FreshIn cfg key (·.revision)) := by
  induction n generalizing φ with
  | zero => exact brings_pure fun χ _ a ha => by cases ha
  | succ n ih =>
      unfold RedisCacheConfig.poll
      refine brings_bind (P := fun _ _ => True) ?_ fun φ₁ _ _ _ => ?_
      · exact brings_of_uses (Prog.uses_call.mpr fun φ => ⟨trivial, fun v => rfl⟩)
      · refine brings_bind (brings_okSome (brings_getJson (.entry i) key)) fun φ₂ found _ hfound => ?_
        cases found with
        | some e =>
            refine brings_pure fun χ hχ a ha => ?_
            obtain rfl := Option.some.inj ha
            exact Fresh.monotone key _ hχ (hfound e rfl)
        | none =>
            refine brings_bind (brings_okSome (brings_getJson (.plain i) key)) fun φ₃ found _ hfound => ?_
            cases found with
            | some value =>
                refine brings_pure fun χ hχ a ha => ?_
                obtain rfl := Option.some.inj ha
                exact Fresh.monotone key _ hχ (hfound value rfl)
            | none =>
                refine brings_bind (brings_of_uses uses_allow) fun φ₄ allowed _ _ => ?_
                split
                · exact ih
                · exact brings_pure fun χ _ a ha => by cases ha

theorem brings_await (hfetcher : Fetches cfg key φ fetcher) (ttl : Nat) :
    Brings cfg φ (cfg.cache.await i key ttl fetcher) fun ψ found => Fresh cfg key ψ found.1.revision := by
  refine brings_bind (brings_poll 20) fun φ₁ found h₁ hfound => ?_
  cases found with
  | some value => exact brings_pure fun χ hχ => Fresh.monotone key _ hχ (hfound value rfl)
  | none =>
      refine brings_bind (Brings.later hfetcher h₁) fun φ₂ value _ hvalue => ?_
      have hreturn : ∀ ψ, φ₂ ≤ ψ → Brings (K := K) cfg ψ (pure (value, false)) fun ψ found =>
          Fresh cfg key ψ found.1.revision := fun ψ hψ =>
        brings_pure fun χ hχ => Fresh.monotone key _ (hψ.trans hχ) hvalue
      exact brings_attempt_bind (brings_setJson i key value ttl) (fun ψ _ hψ _ => hreturn ψ hψ)
        fun ψ _ hψ => hreturn ψ hψ

/-- **What `get_or_set_json` returns is fresh**, if what its fetcher returns is. -/
theorem brings_getOrSetJson (hfetcher : Fetches cfg key φ fetcher) (ttl : Nat) :
    Brings cfg φ (cfg.cache.getOrSetJson i key ttl fetcher) fun ψ found => Fresh cfg key ψ found.1.revision := by
  refine brings_bind (brings_of_uses uses_allow) fun φ₁ allowed h₁ _ => ?_
  split
  · refine brings_bind (brings_cachedValue i key) fun φ₂ found h₂ hfound => ?_
    cases found with
    | some value => exact brings_pure fun χ hχ => Fresh.monotone key _ hχ (hfound value rfl)
    | none =>
        refine brings_bind (brings_lockAcquired key) fun φ₃ acquired h₃ _ => ?_
        have hlater := Brings.later hfetcher (h₁.trans (h₂.trans h₃))
        split
        · exact brings_recompute hlater ttl
        · exact brings_await hlater ttl
  · refine brings_bind (Brings.later hfetcher h₁) fun φ₂ value _ hvalue => ?_
    exact brings_pure fun χ hχ => Fresh.monotone key _ hχ hvalue

end Fetchers

/-- All keys are deleted when the loop is through. -/
theorem brings_delAll (ks : List String) (deleted : Nat) :
    Brings (K := K) cfg φ (cfg.cache.delAll (W := K.setting) ks deleted) fun ψ _ => ks ⊆ ψ.deleted := by
  induction ks generalizing φ deleted with
  | nil => exact brings_pure fun _ _ => List.nil_subset _
  | cons key ks ih =>
      refine brings_bind (brings_del key) fun φ₁ _ _ hkey => ?_
      -- the rest is deleted from a trail that has the key
      have hrest : Brings (K := K) cfg φ₁ (cfg.cache.delAll (W := K.setting) ks (deleted + 1))
          fun ψ _ => φ₁ ≤ ψ ∧ ks ⊆ ψ.deleted := fun ψ hψ =>
        (ih (deleted + 1) ψ hψ).mono fun ψ' r hr => ⟨hr.1, fun a ha => ⟨hψ.trans hr.1, hr.2 a ha⟩⟩
      exact hrest.mono fun ψ _ hψ => List.cons_subset.mpr ⟨hψ.1.2.2 hkey, hψ.2⟩

theorem brings_invalidateTag (tagKeys : List String) :
    Brings (K := K) cfg φ (cfg.cache.invalidateTag (W := K.setting) tagKeys) fun ψ _ => tagKeys ⊆ ψ.deleted := by
  refine brings_bind (P := fun _ _ => True) ?_ fun _ _ _ _ => brings_delAll tagKeys 0
  unfold RedisCacheConfig.tagStoreInvalidate
  split
  · exact brings_pure fun _ _ => trivial
  · exact brings_exec_quiet fun φ => ⟨trivial, fun v => rfl⟩

end Operations

/-! ## §3. The handlers. -/

section Handlers

variable {K : Crates} {cfg : Config} {φ : Trail}

theorem brings_selectStatistics (key : String) : Fetches (i := .statistics) cfg key φ (db K .selectStatistics) := by
  refine brings_ask (fun _ _ => trivial) fun ψ row _ => ⟨⟨?_, rfl, List.Subset.refl _⟩, fun _ => List.mem_cons_self⟩
  exact List.subset_cons_self _ _

theorem brings_selectFeaturedMarkets (key : String) (limit : Int) :
    Fetches (i := .featuredMarkets) cfg key φ (db K (.selectFeaturedMarkets limit)) := by
  refine brings_ask (fun _ _ => trivial) fun ψ rows _ => ⟨⟨?_, rfl, List.Subset.refl _⟩, fun _ => List.mem_cons_self⟩
  exact List.subset_cons_self _ _

/-- What is read of the database, cached or not, has been heard. -/
theorem brings_statisticsCached :
    Brings cfg φ (statisticsCached K cfg) fun ψ row => row.revision ∈ ψ.heard := by
  refine brings_bind (brings_getOrSetJson (brings_selectStatistics _) 300) fun ψ found _ hfound => ?_
  exact brings_pure fun χ hχ => hχ.1 (hfound (by simp [listingKeys]))

theorem brings_featuredMarketsCached :
    Brings cfg φ (featuredMarketsCached K cfg cfg.featuredLimit) fun ψ rows => rows.revision ∈ ψ.heard := by
  refine brings_bind (brings_getOrSetJson (brings_selectFeaturedMarkets _ cfg.featuredLimit) 120)
    fun ψ found _ hfound => ?_
  exact brings_pure fun χ hχ => hχ.1 (hfound (by simp [listingKeys]))

theorem brings_contractData (key : String) (marketId : Int) :
    Fetches (i := .marketData) cfg key φ (db K (.contractData marketId)) := by
  refine brings_ask (fun _ _ => trivial) fun ψ data _ => ⟨⟨?_, rfl, List.Subset.refl _⟩, fun _ => List.mem_cons_self⟩
  exact List.subset_cons_self _ _

theorem brings_marketDataCached (marketId : Int) :
    Brings cfg φ (marketDataCached K cfg marketId) fun _ _ => True :=
  brings_bind (brings_getOrSetJson (brings_contractData _ marketId) 60) fun _ _ _ _ => brings_pure fun _ _ => trivial

theorem brings_joinAll {α : Type} {ps : List (CacheM K.setting α)}
    (h : ∀ p ∈ ps, ∀ φ, Brings cfg φ p fun _ _ => True) : Brings cfg φ (joinAll K ps) fun _ _ => True := by
  induction ps generalizing φ with
  | nil => exact brings_pure fun _ _ => trivial
  | cons p ps ih =>
      have hrest : ∀ ψ (r : Except String α), Brings cfg ψ (do
          let results ← joinAll K ps
          return r :: results) fun _ _ => True := fun ψ r =>
        brings_bind (ih fun p' hp' => h p' (List.mem_cons_of_mem _ hp')) fun _ _ _ _ => brings_pure fun _ _ => trivial
      exact brings_attempt_bind (h p List.mem_cons_self φ) (fun ψ a _ _ => hrest ψ (.ok a)) fun ψ e _ => hrest ψ (.error e)

theorem brings_fetchViews : Brings cfg φ (fetchViews K cfg) fun ψ view => view.revision ∈ ψ.heard := by
  refine brings_bind brings_featuredMarketsCached fun φ₁ markets _ hmarkets => ?_
  refine brings_bind (brings_joinAll ?_) fun φ₂ chainData h₂ _ => ?_
  · intro p hp φ
    obtain ⟨m, -, rfl⟩ := List.mem_map.mp hp
    exact brings_marketDataCached m.id
  · cases featuredViews markets.value chainData with
    | error e => exact brings_error e
    | ok view => exact brings_pure fun χ hχ => (h₂.trans hχ).1 hmarkets

open Monitor in
/-- **Every handler keeps to the discipline.** -/
theorem program_obeys (task : Task) :
    (trailMonitor K cfg).Obeys (fun _ _ => True) ⟨[], none, []⟩ (program K cfg task) := by
  have hobeys : ∀ {φ : Trail} {p : CacheM K.setting Unit}, Brings cfg φ p (fun _ _ => True) →
      (trailMonitor K cfg).Obeys (fun _ _ => True) φ p := fun h =>
    (h _ (le_refl _)).mono fun _ _ _ => trivial
  cases task with
  | statistics =>
      refine hobeys (brings_bind (brings_getOrSetJson (i := .statistics) (brings_statisticsCached.mono
        fun ψ row hrow _ => hrow) 300) fun ψ found _ hfound => ?_)
      have hread := hfound (by simp [listingKeys])
      exact brings_ask (fun χ hχ => hχ.1 hread) fun χ _ _ => ⟨le_refl χ, trivial⟩
  | featuredMarkets query =>
      refine hobeys (brings_bind (brings_getOrSetJson (i := .featuredViews) (brings_fetchViews.mono
        fun ψ view hview _ => hview) 120) fun ψ found _ hfound => ?_)
      have hread := hfound (by simp [listingKeys])
      exact brings_ask (fun χ hχ => hχ.1 hread) fun χ _ _ => ⟨le_refl χ, trivial⟩
  | resolveMarket marketId outcomeIndex =>
      refine obeys_call_bind.mpr ⟨trivial, fun rowsAffected => ?_, fun e => trivial⟩
      -- from here on the trail has the revision of the update
      show (trailMonitor K cfg).Obeys _ ⟨[], some rowsAffected.revision, []⟩ _
      split
      · trivial
      · refine hobeys (brings_attempt_bind (brings_invalidateTag _) (fun ψ count hψ hdeleted => ?_) fun ψ e hψ => ?_)
        · refine brings_ask (fun χ hχ _ => ⟨hχ.2.1.trans hψ.2.1, fun key hkey => hχ.2.2 (hdeleted ?_)⟩) fun χ _ _ =>
            ⟨le_refl χ, trivial⟩
          -- the tag has the keys of the listings after those of the blockchain
          exact List.mem_cons_of_mem _ (List.mem_cons_of_mem _ hkey)
        · exact brings_ask (fun χ hχ h => by cases h) fun χ _ _ => ⟨le_refl χ, trivial⟩

end Handlers

/-! ## §4. Resolutions. -/

section History

variable {K : Crates}

abbrev History (K : Crates) : Type := List (Transition (System K.setting) (Action K))

/-- The request has updated the market at a revision. -/
def HeardUpdate (heard : List (Exchange (Reply (W := K.setting)) String)) (revision : Nat) : Prop :=
  ∃ marketId outcomeIndex rowsAffected,
    ⟨.outside (.updateResolved marketId outcomeIndex), .ok ⟨rowsAffected, revision⟩⟩ ∈ heard

/-- A request that has updated at a revision deletes a key. -/
def Deletes (t : Transition (System K.setting) (Action K)) (key : String) (revision : Nat) : Prop :=
  t.pre.performs t.act = some (.del key)
    ∧ ∃ p l, t.act.asker = some p ∧ t.pre.procs p = some l ∧ HeardUpdate l.heard revision

/-- The key has been deleted after the update at a revision. -/
def Cleared (history : History K) (key : String) (revision : Nat) : Prop := ∃ t ∈ history, Deletes t key revision

/-- A resolution at a revision has returned with `cache_invalidated = true`. -/
def Invalidated (m : System K.setting) (revision : Nat) : Prop :=
  ∃ p invalidatedKeys,
    (p, ⟨.outside (.respondResolveMarket ⟨⟨invalidatedKeys, true⟩, revision⟩), .ok ()⟩) ∈ m.log

/-- The revision that a listing is answered from. -/
def respondedRevision : Command K.setting → Option Nat
  | .outside (.respondStatistics payload) => some payload.revision
  | .outside (.respondFeaturedMarkets page) => some page.revision
  | _ => none

/-- **Resolutions are not masked**: what a request answers was read at or after
every update whose resolution had returned when the request was started. -/
def Unmasked (b : Backend K.setting) (history : History K) (m : System K.setting) : Prop :=
  ∀ p q revision, m.asks p = some q → respondedRevision q = some revision →
    ∀ r, Invalidated (Machine.startsOf (Machine.idle b) history p) r → r ≤ revision

/-- **The condition on a step**: a listing is not written from reads before an
update after which its key has been deleted. -/
def OnTime (cfg : Config) (history : History K) (m : System K.setting) (a : Action K) : Prop :=
  ∀ key ∈ listingKeys cfg, ∀ text seconds, m.performs a = some (.setEx key text seconds) →
    ∀ r, Cleared history key r → r ≤ text.revision

/-- Where requests and listings stand with the resolutions so far. -/
structure Standing (cfg : Config) (b : Backend K.setting) (history : History K) (m : System K.setting) : Prop where
  stored : ∀ key ∈ listingKeys cfg, ∀ e, m.store.keys.lookup key = some e →
    ∀ r, Cleared history key r → r ≤ e.text.revision
  invalidated : ∀ r, Invalidated m r → r ≤ m.store.world.revision ∧ ∀ key ∈ listingKeys cfg, Cleared history key r
  resolving : ∀ p r, (m.phase (trailMonitor K cfg) p).resolved = some r → r ≤ m.store.world.revision
    ∧ ∀ key ∈ (m.phase (trailMonitor K cfg) p).deleted, Cleared history key r
  heard : ∀ p, ∀ n ∈ (m.phase (trailMonitor K cfg) p).heard,
    ∀ r, Invalidated (Machine.startsOf (Machine.idle b) history p) r → r ≤ n
  started : ∀ p r, Invalidated (Machine.startsOf (Machine.idle b) history p) r → Invalidated m r

end History

/-! ## §5. One command. -/

section Commands

variable {K : Crates} {cfg : Config} {c : Cache.Choice K.setting} {b b' : Backend K.setting} {q : Command K.setting}
  {v : Reply q} {φ : Trail}

/-- A command makes at most a new revision of the table. -/
theorem revision_of_exec (h : Cache.exec c b q = some (v, b')) (hallows : φ.allows cfg q) :
    b.world.revision ≤ b'.world.revision := by
  cases q with
  | setEx key text seconds =>
      simp only [Cache.exec] at h
      split at h <;> cases h
      exact le_refl _
  | setNxEx key text seconds =>
      simp only [Cache.exec] at h
      split at h
      · cases h
      · split at h <;> cases h <;> exact le_refl _
  | incrWithTtl key seconds => exact absurd hallows id
  | delKeys keys => exact absurd hallows id
  | outside q =>
      obtain ⟨r, hr, hb'⟩ := Option.map_eq_some_iff.mp h
      cases hb'
      cases q with
      | updateResolved marketId outcomeIndex =>
          simp only [answer] at hr
          split at hr <;> cases hr
          · exact le_refl _
          · exact Nat.le_succ _
      | selectFeaturedMarkets limit =>
          obtain ⟨rows, -, hrows⟩ := Option.map_eq_some_iff.mp hr
          cases hrows
          exact le_refl _
      | _ =>
          cases hr
          exact le_refl _
  | _ =>
      cases h
      exact le_refl _

/-- What a listing holds after a command it held before, or the command has set it. -/
theorem keys_of_exec (h : Cache.exec c b q = some (v, b')) (hallows : φ.allows cfg q) {key : String}
    (hkey : key ∈ listingKeys cfg) {e : KeyEntry (Dated K.Text)} (he : b'.keys.lookup key = some e) :
    (b.keys.lookup key = some e ∧ q ≠ .del key) ∨ ∃ seconds, q = .setEx key e.text seconds := by
  cases q with
  | setEx key' text seconds =>
      simp only [Cache.exec] at h
      split at h <;> cases h
      rw [Backend.setEx, Store.lookup_insert_eq] at he
      split at he
      · rename_i hkk
        obtain rfl := Option.some.inj he
        exact .inr ⟨seconds, by rw [hkk]⟩
      · exact .inl ⟨he, fun h => by cases h⟩
  | setNxEx key' text seconds =>
      have hkk : key ≠ key' := by
        rintro rfl
        exact hallows hkey
      simp only [Cache.exec] at h
      split at h
      · cases h
      · split at h <;> cases h
        · exact .inl ⟨he, fun h => by cases h⟩
        · rw [Backend.setEx, Store.lookup_insert_eq, if_neg hkk] at he
          exact .inl ⟨he, fun h => by cases h⟩
  | del key' =>
      cases h
      rw [Backend.del, Store.lookup_erase_eq] at he
      split at he
      · cases he
      · rename_i hkk
        refine .inl ⟨he, fun hq => hkk ?_⟩
        cases hq
        rfl
  | incrWithTtl key' seconds => exact absurd hallows id
  | delKeys keys => exact absurd hallows id
  | outside q =>
      obtain ⟨r, -, hb'⟩ := Option.map_eq_some_iff.mp h
      cases hb'
      exact .inl ⟨he, fun h => by cases h⟩
  | _ =>
      cases h
      exact .inl ⟨he, fun h => by cases h⟩

/-- What is heard is the revision of the table, or that of a listing in the cache. -/
theorem heard_of_exec (h : Cache.exec c b q = some (v, b')) {n : Nat} (hn : n ∈ (φ.hear cfg q v).heard) :
    n ∈ φ.heard ∨ n = b.world.revision
      ∨ ∃ key ∈ listingKeys cfg, ∃ e, b.keys.lookup key = some e ∧ n = e.text.revision := by
  cases q with
  | get key f =>
      cases h
      unfold Backend.get at hn
      cases he : b.keys.lookup key with
      | none => exact .inl (by simpa [he, Trail.hear] using hn)
      | some e =>
          rw [he] at hn
          dsimp only at hn
          split at hn
          · simp only [Trail.hear] at hn
            split at hn
            · rename_i hkey
              rcases List.mem_cons.mp hn with hn | hn
              · exact .inr (.inr ⟨key, hkey, e, he, hn⟩)
              · exact .inl hn
            · exact .inl hn
          · exact .inl hn
  | outside q =>
      obtain ⟨r, hr, hb'⟩ := Option.map_eq_some_iff.mp h
      cases hb'
      -- every answer of the database has the revision of the table
      have hread : ∀ {revision : Nat}, revision = b.world.revision → n ∈ revision :: φ.heard →
          n ∈ φ.heard ∨ n = b.world.revision ∨ ∃ key ∈ listingKeys cfg, ∃ e, b.keys.lookup key = some e ∧ n = e.text.revision := by
        rintro _ rfl hn
        rcases List.mem_cons.mp hn with hn | hn
        · exact .inr (.inl hn)
        · exact .inl hn
      cases q with
      | selectStatistics =>
          cases hr
          exact hread rfl hn
      | selectFeaturedMarkets limit =>
          obtain ⟨rows, -, hrows⟩ := Option.map_eq_some_iff.mp hr
          cases hrows
          exact hread rfl hn
      | contractData marketId =>
          cases hr
          exact hread rfl hn
      | _ => exact .inl hn
  | _ => exact .inl hn

/-- A trail has its own update, and what was deleted after it. -/
theorem resolved_of_exec (h : Cache.exec c b q = some (v, b')) {r : Nat}
    (hr : (φ.hear cfg q v).resolved = some r) :
    (r ≤ b'.world.revision ∧ (φ.hear cfg q v).deleted = [])
      ∨ (φ.resolved = some r ∧ ∀ key ∈ (φ.hear cfg q v).deleted, key ∈ φ.deleted ∨ q = .del key) := by
  cases q with
  | get key f =>
      cases v with
      | none => exact .inr ⟨hr, fun _ => .inl⟩
      | some text =>
          have hsame : (φ.hear cfg (.get key f) (some text)).resolved = φ.resolved
              ∧ (φ.hear cfg (.get key f) (some text)).deleted = φ.deleted := by
            simp only [Trail.hear]
            split <;> exact ⟨rfl, rfl⟩
          rw [hsame.1] at hr
          exact .inr ⟨hr, fun _ hkey => .inl (hsame.2 ▸ hkey)⟩
  | del key =>
      refine .inr ⟨hr, fun key' hkey' => ?_⟩
      rcases List.mem_cons.mp hkey' with rfl | hkey'
      · exact .inr rfl
      · exact .inl hkey'
  | outside q =>
      cases q with
      | updateResolved marketId outcomeIndex =>
          obtain ⟨s, hs, hb'⟩ := Option.map_eq_some_iff.mp h
          cases hb'
          obtain rfl := Option.some.inj hr
          simp only [answer] at hs
          split at hs <;> cases hs
          · exact .inl ⟨le_refl _, rfl⟩
          · exact .inl ⟨le_refl _, rfl⟩
      | _ => exact .inr ⟨hr, fun _ => .inl⟩
  | _ => exact .inr ⟨hr, fun _ => .inl⟩

end Commands

/-! ## §6. One step. -/

section Steps

variable {K : Crates} {cfg : Config} {b : Backend K.setting} {history : History K} {m : System K.setting}
  {a : Action K}

theorem cleared_concat {t : Transition (System K.setting) (Action K)} {key : String} {r : Nat} :
    Cleared (history ++ [t]) key r ↔ Cleared history key r ∨ Deletes t key r := by
  simp only [Cleared, List.mem_append, List.mem_singleton, or_and_right, exists_or, exists_eq_left]

/-- A key that is deleted is gone, with or without an answer. -/
theorem lookup_step_of_del {key : String} (hq : m.performs a = some (.del key)) :
    (step K cfg m a).store.keys.lookup key = none := by
  obtain ⟨c, v, hexec⟩ := Machine.store_of_performs (server K.setting) (fun _ task => program K cfg task) outside hq
    rfl fun _ => rfl
  have hstore : m.store.del key = (step K cfg m a).store := congrArg Prod.snd (Option.some.inj hexec)
  rw [← hstore]
  exact AList.lookup_erase _ _

theorem revision_step (hm : Machine.Monitored (trailMonitor K cfg) m) (a : Action K) :
    m.store.world.revision ≤ (step K cfg m a).store.world.revision := by
  rcases m.store_step_cases (server K.setting) (fun _ task => program K cfg task) outside a with
    hsame | ⟨q, c, v, hq, hexec, -⟩ | ⟨w, -, hstore⟩
  · exact le_of_eq (congrArg (·.world.revision) hsame.symm)
  · obtain ⟨p, -, hallows⟩ := hm.allows_of_performs hq
    exact revision_of_exec hexec hallows
  · rw [show (step K cfg m a).store = _ from hstore]
    cases w with
    | tick ms => exact le_refl _
    | write markets => exact Nat.le_succ _
    | breaker n ms => exact le_refl _

/-- **The cache.**  Whatever a listing holds is from after the update that
cleared its key last. -/
theorem Standing.stored_step (h : Standing cfg b history m) (hm : Machine.Monitored (trailMonitor K cfg) m)
    (hon : OnTime cfg history m a) {key : String} (hkey : key ∈ listingKeys cfg) {e : KeyEntry (Dated K.Text)}
    (he : (step K cfg m a).store.keys.lookup key = some e) {r : Nat}
    (hr : Cleared (history ++ [⟨m, a, step K cfg m a⟩]) key r) : r ≤ e.text.revision := by
  rcases cleared_concat.mp hr with hr | hdel
  · rcases m.store_step_cases (server K.setting) (fun _ task => program K cfg task) outside a with
      hsame | ⟨q, c, v, hq, hexec, -⟩ | ⟨w, -, hstore⟩
    · rw [show (step K cfg m a).store = _ from hsame] at he
      exact h.stored key hkey e he r hr
    · obtain ⟨p, -, hallows⟩ := hm.allows_of_performs hq
      rcases keys_of_exec hexec hallows hkey he with ⟨hold, -⟩ | ⟨seconds, rfl⟩
      · exact h.stored key hkey e hold r hr
      · exact hon key hkey e.text seconds hq r hr
    · have hkeys : (outside w m.store).keys = m.store.keys := by cases w <;> rfl
      rw [show (step K cfg m a).store = _ from hstore, hkeys] at he
      exact h.stored key hkey e he r hr
  · cases (lookup_step_of_del hdel.1).symm.trans he

variable (cfg m a) in
/-- A trail after a step is what it was, or new, or one answer longer. -/
theorem trail_step_cases (p : Nat) :
    (step K cfg m a).phase (trailMonitor K cfg) p = m.phase (trailMonitor K cfg) p
      ∨ (step K cfg m a).phase (trailMonitor K cfg) p = ⟨[], none, []⟩
      ∨ ∃ l c v, a.asker = some p ∧ m.procs p = some l ∧ m.performs a = some l.question
        ∧ Cache.exec c m.store l.question = some (v, (step K cfg m a).store)
        ∧ (step K cfg m a).phase (trailMonitor K cfg) p = (m.phase (trailMonitor K cfg) p).hear cfg l.question v := by
  rcases Machine.phase_step_cases (M := trailMonitor K cfg) (server K.setting) (fun _ task => program K cfg task)
    outside m a p with hsame | hnew | ⟨l, s, r, ha, hl, hr, hstore, hnext⟩
  · exact .inl hsame
  · exact .inr (.inl hnew)
  · rcases Machine.reply_cases (server K.setting) ha hr with
      ⟨c, v, rfl, rfl, hexec⟩ | ⟨e, rfl, rfl, -⟩ | ⟨c, e, v, rfl, rfl, -⟩
    · exact .inr (.inr ⟨l, c, v, ha, hl, congrArg (Option.map _) hl, hstore ▸ hexec, hnext⟩)
    · exact .inl hnext
    · exact .inl hnext

/-- A resolution that has returned by now had returned before, or returns. -/
theorem invalidated_step_cases {r : Nat} (hr : Invalidated (step K cfg m a) r) :
    Invalidated m r ∨ ∃ p l invalidatedKeys, m.procs p = some l
      ∧ l.question = .outside (.respondResolveMarket ⟨⟨invalidatedKeys, true⟩, r⟩) := by
  obtain ⟨p, invalidatedKeys, hmem⟩ := hr
  rcases m.step_cases (server K.setting) (fun _ task => program K cfg task) outside a with
    hstep | ⟨p', task, rfl, hp, hstep⟩ | ⟨p', l, s, r, ha, hl, hr, hstep⟩ | ⟨p', rfl, hstep⟩ | ⟨w, rfl, hstep⟩
  all_goals rw [show step K cfg m _ = _ from hstep] at hmem
  · exact .inl ⟨p, invalidatedKeys, hmem⟩
  · exact .inl ⟨p, invalidatedKeys, hmem⟩
  · rcases List.mem_append.mp hmem with hold | hnew
    · exact .inl ⟨p, invalidatedKeys, hold⟩
    · have hexchange := congrArg (fun x => x.2.question) (List.mem_singleton.mp hnew)
      exact .inr ⟨p', l, invalidatedKeys, hl, hexchange.symm⟩
  · exact .inl ⟨p, invalidatedKeys, hmem⟩
  · exact .inl ⟨p, invalidatedKeys, hmem⟩

theorem Invalidated.step {r : Nat} (h : Invalidated m r) : Invalidated (step K cfg m a) r := by
  obtain ⟨p, invalidatedKeys, hmem⟩ := h
  exact ⟨p, invalidatedKeys, (m.log_isPrefix_step _ _ _ a).subset hmem⟩

end Steps

/-! ## §7. Every run. -/

section Runs

variable {K : Crates} {cfg : Config} {b : Backend K.setting} {history : History K} {m : System K.setting}

/-- What has returned when a request was started has returned now. -/
theorem Standing.started_step (h : Standing cfg b history m) (a : Action K) {p r : Nat}
    (hr : Invalidated (Machine.startsAfter (Machine.startsOf (Machine.idle b) history) m a p) r) :
    Invalidated (step K cfg m a) r := by
  have hold : Invalidated (Machine.startsOf (Machine.idle b) history p) r → Invalidated (step K cfg m a) r :=
    fun hr => (h.started p r hr).step
  cases a with
  | start p' task =>
      simp only [Machine.startsAfter] at hr
      split at hr
      · rw [Function.update_apply] at hr
        split at hr
        · exact Invalidated.step hr
        · exact hold hr
      · exact hold hr
  | answer p' c => exact hold hr
  | refuse p' e => exact hold hr
  | lose p' c e => exact hold hr
  | crash p' => exact hold hr
  | outside w => exact hold hr

/-- A request that has heard anything was started where it is recorded to have been. -/
theorem startsAfter_eq_of_heard {starts : Nat → System K.setting} {a : Action K} {p : Nat}
    (hheard : ((step K cfg m a).phase (trailMonitor K cfg) p).heard ≠ []) :
    Machine.startsAfter starts m a p = starts p := by
  cases a with
  | start p' task =>
      simp only [Machine.startsAfter]
      split
      · rename_i hnone
        refine Function.update_of_ne ?_ ..
        rintro rfl
        have hp : m.procs p = none := Option.isNone_iff_eq_none.mp hnone
        have hstep : step K cfg m (.start p task) = m.launch p (program K cfg task) := by
          simp only [step, Machine.step, hp]
        rw [hstep, Machine.phase_launch _ hp] at hheard
        simp [Machine.phase, hp, trailMonitor] at hheard
      · rfl
  | answer p' c => rfl
  | refuse p' e => rfl
  | lose p' c e => rfl
  | crash p' => rfl
  | outside w => rfl

/-- The update of a trail is the one heard last. -/
theorem resolved_next_cases {φ : Trail} (x : Exchange (Reply (W := K.setting)) String) {r : Nat}
    (hr : (φ.next cfg x.question x.answer).resolved = some r) : φ.resolved = some r ∨ HeardUpdate [x] r := by
  obtain ⟨q, answer⟩ := x
  cases answer with
  | error e => exact .inl hr
  | ok v =>
      cases q with
      | get key f =>
          refine .inl (Eq.trans ?_ hr)
          cases v with
          | none => rfl
          | some text =>
              simp only [Trail.next, Trail.hear]
              split <;> rfl
      | outside q =>
          cases q with
          | updateResolved marketId outcomeIndex =>
              obtain rfl := Option.some.inj hr
              exact .inr ⟨marketId, outcomeIndex, v.value, List.mem_cons_self⟩
          | _ => exact .inl hr
      | _ => exact .inl hr

theorem heardUpdate_of_phaseAfter {heard : List (Exchange (Reply (W := K.setting)) String)} {r : Nat}
    (hr : (Machine.phaseAfter (trailMonitor K cfg) heard).resolved = some r) : HeardUpdate heard r := by
  induction heard using List.reverseRecOn with
  | nil => cases hr
  | append_singleton heard x ih =>
      rw [Machine.phaseAfter_concat] at hr
      have hmem : ∀ heard', HeardUpdate heard' r → heard' ⊆ heard ++ [x] → HeardUpdate (heard ++ [x]) r := by
        intro heard' h hsub
        obtain ⟨marketId, outcomeIndex, rowsAffected, hmem⟩ := h
        exact ⟨marketId, outcomeIndex, rowsAffected, hsub hmem⟩
      rcases resolved_next_cases x hr with hold | hnew
      · exact hmem heard (ih hold) (List.subset_append_left _ _)
      · exact hmem [x] hnew (List.subset_append_right _ _)

/-- A request whose trail has an update has heard of it. -/
theorem heardUpdate_of_resolved {p : Nat} {l : Live (Reply (W := K.setting)) String} (hl : m.procs p = some l)
    {r : Nat} (hr : (m.phase (trailMonitor K cfg) p).resolved = some r) : HeardUpdate l.heard r := by
  unfold Machine.phase at hr
  rw [hl] at hr
  exact heardUpdate_of_phaseAfter hr

/-- **One step on time.** -/
theorem Standing.step {a : Action K} (h : Standing cfg b history m) (hm : Machine.Monitored (trailMonitor K cfg) m)
    (hon : OnTime cfg history m a) :
    Standing cfg b (history ++ [⟨m, a, step K cfg m a⟩]) (step K cfg m a) := by
  have hgrown : ∀ {key r}, Cleared history key r → Cleared (history ++ [⟨m, a, Markets.step K cfg m a⟩]) key r :=
    fun hr => cleared_concat.mpr (.inl hr)
  have hrevision := revision_step hm a
  refine ⟨fun key hkey e he r hr => h.stored_step hm hon hkey he hr, fun r hr => ?_, fun p r hr => ?_,
    fun p n hn r hr => ?_, fun p r hr => ?_⟩
  · -- a resolution that returns has deleted the listings after its update
    rcases invalidated_step_cases hr with hold | ⟨p, l, invalidatedKeys, hl, hq⟩
    · obtain ⟨hle, hcleared⟩ := h.invalidated r hold
      exact ⟨hle.trans hrevision, fun key hkey => hgrown (hcleared key hkey)⟩
    · have hallows := (hm p l hl).1
      rw [hq] at hallows
      obtain ⟨hresolved, hdeleted⟩ := hallows rfl
      obtain ⟨hle, hcleared⟩ := h.resolving p r hresolved
      exact ⟨hle.trans hrevision, fun key hkey => hgrown (hcleared key (hdeleted hkey))⟩
  · rcases trail_step_cases cfg m a p with hsame | hnew | ⟨l, c, v, ha, hl, hq, hexec, hhear⟩
    · rw [hsame] at hr ⊢
      obtain ⟨hle, hcleared⟩ := h.resolving p r hr
      exact ⟨hle.trans hrevision, fun key hkey => hgrown (hcleared key hkey)⟩
    · rw [hnew] at hr
      cases hr
    · rw [hhear] at hr ⊢
      rcases resolved_of_exec hexec hr with ⟨hle, hnone⟩ | ⟨hresolved, hdeleted⟩
      · exact ⟨hle, fun key hkey => by simp [hnone] at hkey⟩
      · obtain ⟨hle, hcleared⟩ := h.resolving p r hresolved
        refine ⟨hle.trans hrevision, fun key hkey => ?_⟩
        rcases hdeleted key hkey with hkey | hdel
        · exact hgrown (hcleared key hkey)
        · -- the request deletes the key, and has heard of its update
          exact cleared_concat.mpr (.inr ⟨hdel ▸ hq, p, l, ha, hl, heardUpdate_of_resolved hl hresolved⟩)
  · rw [Machine.startsOf_concat, startsAfter_eq_of_heard (List.ne_nil_of_mem hn)] at hr
    obtain ⟨hle, hcleared⟩ := h.invalidated r (h.started p r hr)
    rcases trail_step_cases cfg m a p with hsame | hnew | ⟨l, c, v, -, -, -, hexec, hhear⟩
    · rw [hsame] at hn
      exact h.heard p n hn r hr
    · rw [hnew] at hn
      cases hn
    · rw [hhear] at hn
      rcases heard_of_exec hexec hn with hold | rfl | ⟨key, hkey, e, he, rfl⟩
      · exact h.heard p n hold r hr
      · exact hle
      · exact h.stored key hkey e he r (hcleared key hkey)
  · rw [Machine.startsOf_concat] at hr
    exact h.started_step a hr

/-- The steps of a run, each with what came before it. -/
def Throughout (cfg : Config) (b : Backend K.setting) (as : List (Action K))
    (P : History K → System K.setting → Action K → Prop) : Prop :=
  ∀ bs a, bs ++ [a] <+: as →
    P (trace (step K cfg) (Machine.idle b) bs) (run (step K cfg) (Machine.idle b) bs) a

theorem standing_run (as : List (Action K)) (hon : Throughout cfg b as (OnTime cfg)) :
    Standing cfg b (trace (step K cfg) (Machine.idle b) as) (run (step K cfg) (Machine.idle b) as) := by
  induction as using List.reverseRecOn with
  | nil =>
      have hnone : ∀ r, ¬Invalidated (Machine.idle b : System K.setting) r := by
        rintro r ⟨p, invalidatedKeys, hmem⟩
        cases hmem
      refine ⟨fun key _ e _ r hr => ?_, fun r hr => absurd hr (hnone r), fun p r hr => ?_, fun p n hn => ?_,
        fun p r hr => hr⟩
      · obtain ⟨t, ht, -⟩ := hr
        cases ht
      · cases hr
      · cases hn
  | append_singleton as a ih =>
      rw [trace_concat, run_concat]
      refine (ih fun bs a' h => hon bs a' (h.trans (List.prefix_append as [a]))).step ?_ (hon as a (List.prefix_refl _))
      exact Machine.monitored_run (fun _ task => program_obeys task) b as

/-- **A resolution is never masked by the cache**, in any run whose steps are on time. -/
theorem resolution_unmasked (as : List (Action K)) (hon : Throughout cfg b as (OnTime cfg)) :
    Unmasked b (trace (step K cfg) (Machine.idle b) as) (run (step K cfg) (Machine.idle b) as) := by
  have hstanding := standing_run as hon
  have hmonitored : Machine.Monitored (trailMonitor K cfg) (run (step K cfg) (Machine.idle b) as) :=
    Machine.monitored_run (fun _ task => program_obeys task) b as
  intro p q revision hask hrevision r hr
  obtain ⟨l, hl, rfl⟩ := Option.map_eq_some_iff.mp hask
  have hallows := (hmonitored p l hl).1
  -- what is responded has been heard
  refine hstanding.heard p revision ?_ r hr
  obtain ⟨q, rest, heard⟩ := l
  cases q with
  | outside q =>
      cases q with
      | respondStatistics payload => exact Option.some.inj hrevision ▸ hallows
      | respondFeaturedMarkets page => exact Option.some.inj hrevision ▸ hallows
      | _ => cases hrevision
  | _ => cases hrevision

end Runs

/-! ## §8. A resolution that shows, and one that is masked. -/

section Samples

variable {K : Crates} {cfg : Config} {b : Backend K.setting}

/-- The revisions of resolutions that have returned. -/
def invalidatedRevisions (m : System K.setting) : List Nat :=
  m.log.filterMap fun x =>
    match x.2 with
    | ⟨.outside (.respondResolveMarket result), .ok ()⟩ =>
        if result.value.cacheInvalidated then some result.revision else none
    | _ => none

theorem invalidated_of_mem {m : System K.setting} {r : Nat} (h : r ∈ invalidatedRevisions m) : Invalidated m r := by
  obtain ⟨⟨p, q, answer⟩, hx, hr⟩ := List.mem_filterMap.mp h
  cases q with
  | outside q =>
      cases q with
      | respondResolveMarket result =>
          obtain ⟨⟨invalidatedKeys, cacheInvalidated⟩, revision⟩ := result
          cases answer with
          | error e => cases hr
          | ok v =>
              cases cacheInvalidated with
              | false => cases hr
              | true =>
                  obtain rfl := Option.some.inj hr
                  exact ⟨p, invalidatedKeys, hx⟩
      | _ => cases hr
  | _ => cases hr

/-- The revisions after whose updates a step deletes a key. -/
def clearedBy (t : Transition (System K.setting) (Action K)) : List Nat :=
  match t.act.asker.bind t.pre.procs with
  | some l => l.heard.filterMap fun x =>
      match x with
      | ⟨.outside (.updateResolved ..), .ok rowsAffected⟩ => some rowsAffected.revision
      | _ => none
  | none => []

theorem mem_clearedBy {t : Transition (System K.setting) (Action K)} {key : String} {r : Nat}
    (h : Deletes t key r) : r ∈ clearedBy t := by
  obtain ⟨-, p, l, ha, hl, marketId, outcomeIndex, rowsAffected, hmem⟩ := h
  unfold clearedBy
  rw [ha, Option.bind_some, hl]
  exact List.mem_filterMap.mpr ⟨_, hmem, rfl⟩

/-- No step of the rest of a run writes what was read before an update that has
been followed by a deletion. -/
def isOnTime (cleared : List Nat) : History K → Bool
  | [] => true
  | t :: rest =>
      (match t.pre.performs t.act with
        | some (.setEx _ text _) => cleared.all fun r => decide (r ≤ text.revision)
        | _ => true)
        && isOnTime (cleared ++ clearedBy t) rest

theorem onTime_of_isOnTime {cleared : List Nat} {H rest : History K}
    (hcleared : ∀ key r, Cleared H key r → r ∈ cleared) (h : isOnTime cleared rest = true)
    {pre post : History K} {t : Transition (System K.setting) (Action K)} (hrest : rest = pre ++ t :: post) :
    OnTime cfg (H ++ pre) t.pre t.act := by
  induction pre generalizing H cleared rest with
  | nil =>
      subst hrest
      intro key _ text seconds hset r hr
      have hhead := (Bool.and_eq_true_iff.mp h).1
      rw [hset] at hhead
      rw [List.append_nil] at hr
      simpa using List.all_eq_true.mp hhead r (hcleared key r hr)
  | cons t' pre ih =>
      subst hrest
      rw [List.append_cons]
      refine ih (H := H ++ [t']) (fun key r hr => ?_) (Bool.and_eq_true_iff.mp h).2 rfl
      rcases cleared_concat.mp hr with hold | hnew
      · exact List.mem_append_left _ (hcleared key r hold)
      · exact List.mem_append_right _ (mem_clearedBy hnew)

theorem throughout_of_isOnTime {as : List (Action K)}
    (h : isOnTime [] (trace (step K cfg) (Machine.idle b) as) = true) : Throughout cfg b as (OnTime cfg) := by
  intro bs a hprefix
  obtain ⟨cs, rfl⟩ := hprefix
  have hnone : ∀ key r, Cleared ([] : History K) key r → r ∈ ([] : List Nat) := by
    rintro key r ⟨t, ht, -⟩
    cases ht
  have hsplit : trace (step K cfg) (Machine.idle b) (bs ++ [a] ++ cs) = trace (step K cfg) (Machine.idle b) bs
      ++ ⟨run (step K cfg) (Machine.idle b) bs, a, step K cfg (run (step K cfg) (Machine.idle b) bs) a⟩
        :: trace (step K cfg) (step K cfg (run (step K cfg) (Machine.idle b) bs) a) cs := by
    rw [List.append_assoc, trace_append]
    rfl
  exact onTime_of_isOnTime hnone h hsplit

/-- Texts as serde writes them. -/
inductive SampleText where
  | number (n : Int)
  | plain (i : Listing) (value : i.Data)
  | entry (i : Listing) (e : CachedEntry i.Data)

namespace SampleText

def serdePlain (i : Listing) : Serde SampleText i.Data where
  toString value := .ok (.plain i value)
  fromStr
    | .plain j value => if h : j = i then .ok (h ▸ value) else .error "missing field"
    | _ => .error "invalid type"

def serdeEntry (i : Listing) : Serde SampleText (CachedEntry i.Data) where
  toString e := .ok (.entry i e)
  fromStr
    | .entry j e => if h : j = i then .ok (h ▸ e) else .error "missing field"
    | _ => .error "invalid type"

def toInt : SampleText → Option Int
  | .number n => some n
  | _ => none

end SampleText

@[reducible] def sampleCrates : Crates :=
  ⟨SampleText, SampleText.serdePlain, SampleText.serdeEntry, .number, SampleText.toInt⟩

def sampleApi : Config := ⟨sampleConfig, "testnet", 10⟩

/-- One active market, and nothing cached. -/
def sampleBackend : Backend sampleCrates.setting where
  nowMs := 1000
  world := ⟨[⟨1, "Final", .active, none, ⟨100, 0⟩, 5000, none, none⟩], 0⟩

def sampleStart : System sampleCrates.setting := Machine.idle sampleBackend

/-- The answers to request `p`. -/
def sampleAnswers (p n : Nat) : List (Action sampleCrates) :=
  List.replicate n (.answer p ⟨false, ⟨50, ⟨1, none, none, "7", none, 3⟩⟩⟩)

/-- Statistics are asked for, the market is resolved, and statistics are asked for. -/
def sampleResolution : List (Action sampleCrates) :=
  .start 0 .statistics :: sampleAnswers 0 60 ++ .start 1 (.resolveMarket 1 0) :: sampleAnswers 1 37
    ++ .start 2 .statistics :: sampleAnswers 2 59

/-- The second request answers from the table as the resolution has left it. -/
theorem sampleResolution_unmasked :
    Unmasked sampleBackend (trace (step sampleCrates sampleApi) sampleStart sampleResolution)
        (run (step sampleCrates sampleApi) sampleStart sampleResolution)
      ∧ ((run (step sampleCrates sampleApi) sampleStart sampleResolution).asks 2).bind respondedRevision = some 1 :=
  ⟨resolution_unmasked sampleResolution (throughout_of_isOnTime (by decide +kernel)), by decide +kernel⟩

/-- Request 0 has read the table; the market is resolved; request 0 writes what
it has read; request 2 finds that. -/
def sampleLate : List (Action sampleCrates) :=
  .start 0 .statistics :: sampleAnswers 0 35 ++ .start 1 (.resolveMarket 1 0) :: sampleAnswers 1 37
    ++ sampleAnswers 0 25 ++ .start 2 .statistics :: sampleAnswers 2 8

/-- The late write masks the resolution. -/
theorem sampleLate_masks :
    ¬∀ as, Unmasked sampleBackend (trace (step sampleCrates sampleApi) sampleStart as)
      (run (step sampleCrates sampleApi) sampleStart as) := by
  intro h
  have hasks : ((run (step sampleCrates sampleApi) sampleStart sampleLate).asks 2).bind respondedRevision = some 0 := by
    decide +kernel
  have hinvalidated : 1 ∈ invalidatedRevisions (Machine.startsOf sampleStart
      (trace (step sampleCrates sampleApi) sampleStart sampleLate) 2) := by
    decide +kernel
  obtain ⟨q, hq, hrevision⟩ := Option.bind_eq_some_iff.mp hasks
  have hle := h sampleLate 2 q 0 hq hrevision 1 (invalidated_of_mem hinvalidated)
  omega

end Samples

end PredictIQ.Markets
