/-
  PredictIQ.Cache.Stampede: one fetch for many calls.

  A call that finds no value tries for the lock; the one that gets it fetches,
  stores the value and releases the lock, the others poll.  A call may have
  found no value before it was stored, though, and try for the lock after it
  was released.  `Orderly` says of a step that this does not happen, that the
  circuit is not found open, and that an entry is not read as a plain value;
  `one_fetch` says that in a run of such steps the fetcher is called once and
  every call returns its value, and `sampleLate_fetches_twice` is the run in
  which a late call gets the lock.
-/
import PredictIQ.Cache.RedisCache
import PredictIQ.Foundation.TaskHistory

namespace PredictIQ.Cache

open Foundation

/-! ## §1. One call. -/

/-- How far a call has come. -/
inductive Stage (T : Type) where
  /-- It has found no value, and has not tried for the lock. -/
  | looking
  /-- It has found an entry, and sees whether the entry needs a refresh. -/
  | found (entry : CachedEntry T)
  /-- It has the lock. -/
  | holding
  /-- Its fetcher has returned, and the value is not stored. -/
  | fetched (value : T)
  | stored (value : T)
  /-- It has not got the lock, and has polled in vain. -/
  | waiting (polls : Nat)
  /-- It has read the value of another call. -/
  | served (value : T)
  /-- It has met what nobody has promised to spare it. -/
  | excused

namespace Stage

variable {C : CachedType}

/-- The clock is read. -/
def clock (now : Nat) : Stage C.T → Stage C.T
  | .found e => if e.expiresAt ≤ (now / 1000 : Nat) then .excused else .found e
  | s => s

/-- XFetch has drawn. -/
def draw (refresh : Bool) : Stage C.T → Stage C.T
  | .found e => if refresh then .excused else .served e.value
  | s => s

/-- A call that looks reads the key as a format. -/
def look : (f : Format C.setting.Code) → Except String (Option (C.setting.Held f)) → Stage C.T
  | .entry _, .ok (some e) => .found e
  | .entry _, .ok none => .looking
  | .entry _, .error _ => .excused
  | .plain _, .ok (some _) => .excused
  | .plain _, _ => .looking

/-- A call that waits polls the key, after `n` polls in vain. -/
def poll (n : Nat) : (f : Format C.setting.Code) → Except String (Option (C.setting.Held f)) → Stage C.T
  | .entry _, .ok (some e) => .served e.value
  | .entry _, .ok none => if n + 1 < 20 then .waiting (n + 1) else .excused
  | .entry _, .error _ => .excused
  | .plain _, .ok (some _) => .excused
  | .plain _, _ => .waiting n

/-- The key is read as a format. -/
def read (f : Format C.setting.Code) (val : Except String (Option (C.setting.Held f))) : Stage C.T → Stage C.T
  | .looking => look f val
  | .waiting n => poll n f val
  | s => s

def lock (acquired : Bool) : Stage C.T → Stage C.T
  | .looking => if acquired then .holding else .waiting 0
  | s => s

def fetch (value : C.T) : Stage C.T → Stage C.T
  | .holding => .fetched value
  | s => s

def store : Stage C.T → Stage C.T
  | .fetched value => .stored value
  | s => s

/-- The lock is taken, and the value not stored. -/
def isFetching : Stage C.T → Bool
  | .holding | .fetched _ => true
  | _ => false

/-- The value that the call returns. -/
def Settled (s : Stage C.T) (value : C.T) : Prop := s = .served value ∨ s = .stored value

end Stage

/-- The stage of a call, and what it has just read of the breaker. -/
structure Progress (T : Type) where
  openedAt : Option Nat
  stage : Stage T

section Calls

variable (C : CachedType) (cfg : RedisCacheConfig) (key : String)

/-- An answer is heard. -/
def Progress.hear (φ : Progress C.T) : (q : Command C.setting) → Reply q → Progress C.T
  | .loadOpenedAt, openedAt => ⟨some openedAt, φ.stage⟩
  | .nowMs, now =>
      if φ.openedAt.any fun openedAt => cfg.state openedAt now == .opened then ⟨none, .excused⟩
      else ⟨none, φ.stage.clock now⟩
  | .xfetchScore .., refresh => ⟨none, φ.stage.draw refresh⟩
  | .get _ f, val => ⟨none, φ.stage.read f (C.setting.parse f val)⟩
  | .setNxEx .., acquired => ⟨none, φ.stage.lock acquired⟩
  | .outside .fetch, value => ⟨none, φ.stage.fetch value⟩
  | .setEx .., _ => ⟨none, φ.stage.store⟩
  | _, _ => ⟨none, φ.stage⟩

def Progress.next (φ : Progress C.T) (q : Command C.setting) (r : Except String (Reply q)) : Progress C.T :=
  match r with
  | .ok v => φ.hear C cfg q v
  | .error _ => ⟨none, .excused⟩

/-- The lock of the key is tried for once; its holder fetches, stores what it
fetched and releases the lock; a call returns what it stored or read. -/
def Progress.allows (φ : Progress C.T) (q : Command C.setting) : Prop :=
  φ.stage = .excused ∨ match q with
    | .get k _ => k = key
    | .setNxEx k _ _ => k = lockKey key ∧ φ.stage = .looking
    | .outside .fetch => φ.stage = .holding
    | .setEx k text _ => k = key ∧ ∃ e, φ.stage = .fetched e.value ∧ C.entry.toString e = .ok text
    | .del k => k = lockKey key ∧ ∃ value, φ.stage = .stored value
    | .outside (.returns result) => ∃ value hit, result = .ok (value, hit) ∧ φ.stage.Settled value
    | .incrWithTtl .. | .delKeys _ => False
    | _ => True

def callMonitor : Monitor (Reply (W := C.setting)) String (Progress C.T) :=
  ⟨⟨none, .looking⟩, Progress.next C cfg, Progress.allows C key⟩

variable {C cfg key}

/-- From stage `s` the program keeps to the discipline, and ends as `post` says
or with an excuse. -/
def Leads (cfg : RedisCacheConfig) (key : String) {α : Type} (s : Stage C.T) (p : CacheM C.setting α)
    (post : Stage C.T → Except String α → Prop) : Prop :=
  ∀ openedAt, (callMonitor C cfg key).Obeys (fun φ r => φ.stage = .excused ∨ post φ.stage r) ⟨openedAt, s⟩ p

section Rules

open Monitor

variable {α β : Type} {s : Stage C.T} {post : Stage C.T → Except String β → Prop}

/-- An excuse holds for good. -/
theorem leads_excused (p : CacheM C.setting β) : Leads cfg key .excused p post := by
  have hnext : ∀ openedAt (q : Command C.setting) (r : Except String (Reply q)),
      ((callMonitor C cfg key).next ⟨openedAt, .excused⟩ q r).stage = .excused := by
    intro openedAt q r
    rcases r with e | v
    · rfl
    · cases q with
      | nowMs =>
          show Progress.stage (if _ then _ else _) = _
          split <;> rfl
      | outside q => cases q <;> rfl
      | _ => rfl
  induction p with
  | done r => exact fun _ => .inl rfl
  | ask q k ih =>
      refine fun openedAt => ⟨.inl rfl, fun r => ?_⟩
      have hstage := hnext openedAt q r
      generalize (callMonitor C cfg key).next ⟨openedAt, .excused⟩ q r = φ at hstage ⊢
      obtain ⟨openedAt', s⟩ := φ
      obtain rfl : s = .excused := hstage
      exact ih r openedAt'

theorem Leads.mono {post' : Stage C.T → Except String β → Prop} {p : CacheM C.setting β}
    (h : Leads cfg key s p post) (hpost : ∀ s r, post s r → post' s r) : Leads cfg key s p post' :=
  fun openedAt => Obeys.mono (h openedAt) fun φ r => Or.imp_right (hpost φ.stage r)

theorem leads_done {r : Except String β} (h : post s r) : Leads cfg key s (.done r) post := fun _ => .inr h

theorem Leads.bind {m : Stage C.T → Except String α → Prop} {p : CacheM C.setting α}
    {f : α → CacheM C.setting β} (hp : Leads cfg key s p m)
    (hok : ∀ s' a, m s' (.ok a) → Leads cfg key s' (f a) post)
    (herr : ∀ s' e, m s' (.error e) → post s' (.error e)) : Leads cfg key s (p >>= f) post := by
  refine fun openedAt => obeys_bind.mpr (Obeys.mono (hp openedAt) ?_)
  rintro ⟨openedAt', s'⟩ (e | a) (hexcused | hmid)
  · exact .inl hexcused
  · exact .inr (herr s' e hmid)
  · obtain rfl : s' = .excused := hexcused
    exact leads_excused (f a) openedAt'
  · exact hok s' a hmid openedAt'

/-- A result that is looked at, be it an error. -/
theorem Leads.attempt_bind {m : Stage C.T → Except String α → Prop} {p : CacheM C.setting α}
    {f : Except String α → CacheM C.setting β} (hp : Leads cfg key s p m)
    (hf : ∀ s' r, m s' r → Leads cfg key s' (f r) post) : Leads cfg key s (p.attempt >>= f) post := by
  refine Leads.bind (m := fun s' r => ∃ r', r = .ok r' ∧ m s' r') ?_ ?_ ?_
  · exact fun openedAt => obeys_attempt.mpr (Obeys.mono (hp openedAt) fun φ r => Or.imp_right fun h => ⟨r, rfl, h⟩)
  · rintro s' r ⟨_, ⟨⟩, h⟩
    exact hf s' r h
  · rintro s' e ⟨r, ⟨⟩, -⟩

/-- Any error to a single question is an excuse. -/
theorem leads_ask {q : Command C.setting} {post : Stage C.T → Except String (Reply q) → Prop}
    (hallows : Progress.allows C key ⟨none, s⟩ q)
    (hok : ∀ openedAt v, (Progress.hear C cfg ⟨openedAt, s⟩ q v).stage = .excused
      ∨ post (Progress.hear C cfg ⟨openedAt, s⟩ q v).stage (.ok v)) : Leads cfg key s (ask q) post := by
  refine fun openedAt => ⟨hallows, ?_⟩
  rintro (e | v)
  · exact .inl rfl
  · exact hok openedAt v

/-- The value is returned, and the stage is as it was. -/
def Stays (s : Stage C.T) {α : Type} (s' : Stage C.T) (r : Except String α) : Prop := s' = s ∧ ∃ a, r = .ok a

theorem leads_stays_bind {p : CacheM C.setting α} {f : α → CacheM C.setting β}
    (hp : Leads cfg key s p (Stays s)) (hf : ∀ a, Leads cfg key s (f a) post) :
    Leads cfg key s (p >>= f) post := by
  refine Leads.bind hp ?_ ?_
  · rintro s' a ⟨rfl, -⟩
    exact hf a
  · rintro s' e ⟨-, a, ⟨⟩⟩

theorem leads_sleep (ms : Nat) : Leads cfg key s (ask (.sleep ms)) (Stays s) :=
  leads_ask (.inr trivial) fun _ _ => .inr ⟨rfl, (), rfl⟩

theorem leads_poolGet : Leads cfg key s (ask .poolGet) (Stays s) :=
  leads_ask (.inr trivial) fun _ _ => .inr ⟨rfl, (), rfl⟩

theorem leads_loadOpenedAt : Leads cfg key s (ask .loadOpenedAt) (Stays s) :=
  leads_ask (.inr trivial) fun _ v => .inr ⟨rfl, v, rfl⟩

/-- The stage is none in which the time matters. -/
def Stage.Timeless (s : Stage C.T) : Prop := ∀ now, s.clock now = s

theorem leads_nowMs (hs : s.Timeless) : Leads cfg key s (ask .nowMs) (Stays s) := by
  refine leads_ask (.inr trivial) fun openedAt now => ?_
  show Progress.stage (if _ then _ else _) = _ ∨ Stays s (Progress.stage (if _ then _ else _)) _
  split
  · exact .inl rfl
  · exact .inr ⟨hs now, now, rfl⟩

theorem leads_recordSuccess : Leads cfg key s (RedisCacheConfig.recordSuccess) (Stays s) :=
  leads_stays_bind (leads_ask (q := .storeFailureCount 0) (.inr trivial) fun _ _ => .inr ⟨rfl, (), rfl⟩) fun _ =>
    leads_ask (q := .storeOpenedAt 0) (.inr trivial) fun _ _ => .inr ⟨rfl, (), rfl⟩

theorem leads_recordFailure (hs : s.Timeless) : Leads cfg key s cfg.recordFailure (Stays s) := by
  have hdone : Leads cfg key s (pure () : CacheM C.setting Unit) (Stays s) := leads_done ⟨rfl, (), rfl⟩
  refine leads_stays_bind (leads_ask (q := .fetchAddFailureCount) (.inr trivial)
    fun _ v => .inr ⟨rfl, v, rfl⟩) fun prev => ?_
  split
  · refine leads_stays_bind leads_loadOpenedAt fun openedAt => ?_
    split
    · refine leads_stays_bind (leads_nowMs hs) fun now => ?_
      exact leads_ask (q := .storeOpenedAt now) (.inr trivial) fun _ _ => .inr ⟨rfl, (), rfl⟩
    · exact hdone
  · exact hdone

/-- A circuit that is found open is an excuse. -/
theorem leads_allow (hs : s.Timeless) : Leads cfg key s cfg.allow fun s' r => s' = s ∧ r = .ok true := by
  refine fun openedAt => obeys_call_bind.mpr ⟨.inr trivial, fun opened => ?_, fun e => .inl rfl⟩
  split
  · exact .inr ⟨rfl, rfl⟩
  · refine obeys_call_bind.mpr ⟨.inr trivial, fun now => ?_, fun e => .inl rfl⟩
    show Progress.stage (if (cfg.state opened now == .opened) then _ else _) = _
      ∨ Progress.stage (if (cfg.state opened now == .opened) then _ else _) = s ∧ _
    cases hopen : cfg.state opened now == .opened with
    | true => exact .inl rfl
    | false => exact .inr ⟨hs now, by simp [bne, hopen]⟩

/-- **An operation that does not err** is carried out once. -/
theorem leads_exec {op : CacheM C.setting α} {P : Stage C.T → α → Prop} (hs : s.Timeless)
    (hop : Leads cfg key s op fun s' r => ∃ a, r = .ok a ∧ P s' a) :
    Leads cfg key s (cfg.exec op) fun s' r => ∃ a, r = .ok a ∧ P s' a := by
  refine Leads.bind (leads_allow hs) ?_ ?_
  · rintro _ _ ⟨rfl, ⟨⟩⟩
    rw [if_pos rfl]
    unfold RedisCacheConfig.attempts
    rw [if_neg (by omega)]
    refine Leads.attempt_bind leads_poolGet ?_
    rintro _ _ ⟨rfl, _, rfl⟩
    refine Leads.attempt_bind hop ?_
    rintro s' _ ⟨a, rfl, ha⟩
    exact leads_stays_bind leads_recordSuccess fun _ => leads_done ⟨a, rfl, ha⟩
  · rintro _ e ⟨-, ⟨⟩⟩

/-- **An operation that leaves the stage**, and may err, leaves it on every attempt. -/
theorem leads_exec_same {op : CacheM C.setting α} {good : Except String α → Prop} (hs : s.Timeless)
    (herror : ∀ e, good (.error e)) (hop : Leads cfg key s op fun s' r => s' = s ∧ good r) :
    Leads cfg key s (cfg.exec op) fun s' r => s' = s ∧ good r := by
  have hattempts : ∀ left attempt lastErr, Leads cfg key s (cfg.attempts op attempt left lastErr)
      fun s' r => s' = s ∧ good r := by
    intro left
    induction left with
    | zero => exact fun attempt lastErr => leads_done ⟨rfl, herror lastErr⟩
    | succ left ih =>
        intro attempt lastErr
        have hattempt : Leads cfg key s (cfg.tryOnce op fun lastErr => cfg.attempts op (attempt + 1) left lastErr)
            fun s' r => s' = s ∧ good r := by
          refine Leads.attempt_bind leads_poolGet ?_
          rintro _ _ ⟨rfl, _, rfl⟩
          refine Leads.attempt_bind hop ?_
          rintro _ (e | v) ⟨rfl, hgood⟩
          · exact leads_stays_bind (leads_recordFailure hs) fun _ => ih _ _
          · exact leads_stays_bind leads_recordSuccess fun _ => leads_done ⟨rfl, hgood⟩
        unfold RedisCacheConfig.attempts
        split
        · exact leads_stays_bind (leads_sleep _) fun _ => hattempt
        · exact hattempt
  refine Leads.bind (leads_allow hs) ?_ ?_
  · rintro _ _ ⟨rfl, ⟨⟩⟩
    exact hattempts _ _ _
  · rintro _ e ⟨-, ⟨⟩⟩

end Rules

/-! ## §2. The program. -/

section Programs

open Monitor

variable {n : Nat} {value : C.T}

theorem timeless_looking : (.looking : Stage C.T).Timeless := fun _ => rfl

theorem timeless_waiting : (.waiting n : Stage C.T).Timeless := fun _ => rfl

theorem timeless_holding : (.holding : Stage C.T).Timeless := fun _ => rfl

theorem timeless_fetched : (.fetched value : Stage C.T).Timeless := fun _ => rfl

theorem timeless_stored : (.stored value : Stage C.T).Timeless := fun _ => rfl

/-- A read as an entry: a text that is none is an excuse. -/
theorem leads_entry {s : Stage C.T} {P : Stage C.T → Option (CachedEntry C.T) → Prop} (hs : s.Timeless)
    (hread : ∀ found, s.read (.entry ()) (.ok found) = .excused ∨ P (s.read (.entry ()) (.ok found)) found)
    (herror : ∀ e, s.read (.entry ()) (.error e) = .excused) :
    Leads cfg key s (RedisCacheConfig.okSome (cfg.getJson (.entry ()) key))
      fun s' r => ∃ found, r = .ok found ∧ P s' found := by
  have hget : Leads cfg key s (cfg.getJson (.entry ()) key) fun s' r => ∃ found, r = .ok found ∧ P s' found := by
    refine leads_exec hs fun openedAt => obeys_call_bind.mpr ⟨.inr rfl, fun val => ?_, fun e => .inl rfl⟩
    show s.read (.entry ()) (C.setting.parse (.entry ()) val) = .excused
      ∨ ∃ found, C.setting.parse (.entry ()) val = .ok found ∧ P (s.read _ (C.setting.parse (.entry ()) val)) found
    cases C.setting.parse (.entry ()) val with
    | error e => exact .inl (herror e)
    | ok found => exact (hread found).imp_right fun h => ⟨found, rfl, h⟩
  refine Leads.attempt_bind hget ?_
  rintro s' _ ⟨found, rfl, hfound⟩
  exact leads_done ⟨found, rfl, hfound⟩

/-- A read as a plain value: a text that is one is an excuse. -/
theorem leads_plain {s : Stage C.T} (hs : s.Timeless)
    (hvalue : ∀ v, s.read (.plain ()) (.ok (some v)) = .excused) (hnone : s.read (.plain ()) (.ok none) = s)
    (herror : ∀ e, s.read (.plain ()) (.error e) = s) :
    Leads cfg key s (RedisCacheConfig.okSome (cfg.getJson (.plain ()) key)) fun s' r => s' = s ∧ r = .ok none := by
  have hget : Leads cfg key s (cfg.getJson (.plain ()) key) fun s' r => s' = s ∧ ∀ v, r ≠ .ok (some v) := by
    refine leads_exec_same hs (fun e v h => by cases h) fun openedAt =>
      obeys_call_bind.mpr ⟨.inr rfl, fun val => ?_, fun e => .inl rfl⟩
    show s.read (.plain ()) (C.setting.parse (.plain ()) val) = .excused
      ∨ s.read (.plain ()) (C.setting.parse (.plain ()) val) = s ∧ ∀ v, C.setting.parse (.plain ()) val ≠ .ok (some v)
    rcases C.setting.parse (.plain ()) val with e | _ | v
    · exact .inr ⟨herror e, fun v h => by cases h⟩
    · exact .inr ⟨hnone, fun v h => by cases h⟩
    · exact .inl (hvalue v)
  refine Leads.attempt_bind hget ?_
  rintro _ (e | _ | v) ⟨rfl, hplain⟩
  · exact leads_done ⟨rfl, rfl⟩
  · exact leads_done ⟨rfl, rfl⟩
  · exact absurd rfl (hplain v)

/-- An entry that is found and needs no refresh is served. -/
theorem leads_xfetchShouldRefresh (e : CachedEntry C.T) :
    Leads cfg key (.found e) (RedisCacheConfig.xfetchShouldRefresh e) fun s' r => s' = .served e.value ∧ r = .ok false := by
  have hscore : ∀ ttlRemaining, Leads cfg key (.found e) (ask (.xfetchScore e.deltaMs ttlRemaining))
      fun s' r => s' = .served e.value ∧ r = .ok false := by
    refine fun ttlRemaining => leads_ask (.inr trivial) fun openedAt refresh => ?_
    cases refresh with
    | true => exact .inl rfl
    | false => exact .inr ⟨rfl, rfl⟩
  refine Leads.bind (m := fun s' r => s' = .found e ∧ ∃ now : Nat, r = .ok now ∧ ¬e.expiresAt ≤ (now / 1000 : Nat))
    (leads_ask (.inr trivial) fun openedAt now => ?_) ?_ ?_
  · show Progress.stage (if _ then _ else _) = _ ∨ Progress.stage (if _ then _ else _) = _ ∧ _
    split
    · exact .inl rfl
    · by_cases hexpired : e.expiresAt ≤ (now / 1000 : Nat)
      · exact .inl (if_pos hexpired)
      · exact .inr ⟨if_neg hexpired, now, rfl, hexpired⟩
  · rintro _ now ⟨rfl, _, ⟨⟩, hlive⟩
    have hremaining : ¬e.expiresAt - (now / 1000 : Nat) ≤ 0 := by omega
    dsimp only
    rw [if_neg hremaining]
    exact hscore _
  · rintro _ _ ⟨-, _, ⟨⟩, -⟩

theorem leads_cachedValue : Leads (C := C) cfg key .looking (cfg.cachedValue () key) fun s' r =>
    (∃ v, r = .ok (some v) ∧ s' = .served v) ∨ r = .ok none ∧ s' = .looking := by
  refine Leads.bind (leads_entry (s := .looking) (P := fun s' found => s' = found.elim .looking .found)
    timeless_looking ?_ fun _ => rfl) ?_ ?_
  · rintro (_ | e) <;> exact .inr rfl
  · rintro _ _ ⟨_ | e, ⟨⟩, rfl⟩
    · refine (leads_plain timeless_looking (fun _ => rfl) rfl fun _ => rfl).mono ?_
      rintro _ _ ⟨rfl, rfl⟩
      exact .inr ⟨rfl, rfl⟩
    · refine Leads.bind (leads_xfetchShouldRefresh e) ?_ ?_
      · rintro _ _ ⟨rfl, ⟨⟩⟩
        exact leads_done (.inl ⟨e.value, rfl, rfl⟩)
      · rintro _ _ ⟨-, ⟨⟩⟩
  · rintro _ _ ⟨_, ⟨⟩, -⟩

theorem leads_lockAcquired : Leads (C := C) cfg key .looking (cfg.lockAcquired key) fun s' r =>
    r = .ok true ∧ s' = .holding ∨ r = .ok false ∧ s' = .waiting 0 := by
  refine Leads.attempt_bind (leads_exec (P := fun s' acquired =>
    s' = if acquired then .holding else .waiting 0) timeless_looking (leads_ask (.inr ⟨rfl, rfl⟩) ?_)) ?_
  · exact fun openedAt acquired => .inr ⟨acquired, rfl, rfl⟩
  · rintro _ _ ⟨_ | _, rfl, rfl⟩
    · exact leads_done (.inr ⟨rfl, rfl⟩)
    · exact leads_done (.inl ⟨rfl, rfl⟩)

/-- serde reads an entry back with the value it was written with. -/
def RoundTrips (C : CachedType) : Prop :=
  ∀ e, ∃ text e', C.entry.toString e = .ok text ∧ C.entry.fromStr text = .ok e' ∧ e'.value = e.value

/-- **Who has the lock** fetches and stores. -/
theorem leads_recompute (hround : RoundTrips C) (ttl : Nat) :
    Leads cfg key .holding (cfg.recompute () key ttl C.fetch) fun s' r =>
      ∃ v, r = .ok (v, false) ∧ s' = .stored v := by
  have hset : ∀ e : CachedEntry C.T, Leads cfg key (.fetched e.value) (cfg.setEntry () key e ttl)
      fun s' r => s' = .stored e.value := by
    intro e
    obtain ⟨text, -, htext, -⟩ := hround e
    unfold RedisCacheConfig.setEntry
    refine Leads.bind (m := fun s' r => s' = .fetched e.value ∧ r = .ok text) (leads_done ⟨rfl, htext⟩) ?_ ?_
    · rintro _ _ ⟨rfl, ⟨⟩⟩
      refine (leads_exec (P := fun s' _ => s' = .stored e.value) timeless_fetched (leads_ask ?_ ?_)).mono ?_
      · exact .inr ⟨rfl, e, rfl, htext⟩
      · exact fun _ _ => .inr ⟨(), rfl, rfl⟩
      · rintro s' r ⟨_, -, h⟩
        exact h
    · rintro _ _ ⟨-, ⟨⟩⟩
  have hdel : ∀ v, Leads cfg key (.stored v) (cfg.del (lockKey key) : CacheM C.setting Unit)
      fun s' r => s' = .stored v := by
    intro v
    have hop : Leads (C := C) cfg key (.stored v) (do let _ ← ask (.del (lockKey key)))
        fun s' r => ∃ u : Unit, r = .ok u ∧ s' = .stored v :=
      leads_stays_bind (leads_ask (q := .del (lockKey key)) (.inr ⟨rfl, v, rfl⟩) fun _ n => .inr ⟨rfl, n, rfl⟩)
        fun _ => leads_done ⟨(), rfl, rfl⟩
    refine (leads_exec timeless_stored hop).mono ?_
    rintro s' r ⟨_, -, h⟩
    exact h
  refine leads_stays_bind (leads_nowMs timeless_holding) fun start => ?_
  refine Leads.bind (m := fun s' r => ∃ v, s' = .fetched v ∧ r = .ok v)
    (leads_ask (.inr rfl) fun _ v => .inr ⟨v, rfl, rfl⟩) ?_ ?_
  · rintro _ v ⟨_, rfl, ⟨⟩⟩
    refine leads_stays_bind (leads_nowMs timeless_fetched) fun finish => ?_
    refine leads_stays_bind (leads_nowMs timeless_fetched) fun now => ?_
    refine Leads.attempt_bind (hset ⟨v, (now / 1000 : Nat) + ttl, finish - start⟩) ?_
    rintro _ r rfl
    refine Leads.attempt_bind (hdel v) ?_
    rintro _ r rfl
    exact leads_done ⟨v, rfl, rfl⟩
  · rintro _ _ ⟨_, -, ⟨⟩⟩

/-- **Who has not got it** is served by a poll. -/
theorem leads_poll (polls k : Nat) (hk : k < 20) (hpolls : polls + k = 20) :
    Leads (C := C) cfg key (.waiting k) (cfg.poll () key polls) fun s' r => ∃ v, r = .ok (some v) ∧ s' = .served v := by
  induction polls generalizing k with
  | zero => omega
  | succ polls ih =>
      refine leads_stays_bind (leads_sleep 50) fun _ => ?_
      refine Leads.bind (leads_entry (s := .waiting k) (P := fun s' found =>
        found.elim (k + 1 < 20 ∧ s' = .waiting (k + 1)) fun e => s' = .served e.value)
        timeless_waiting ?_ fun _ => rfl) ?_ ?_
      · rintro (_ | e)
        · by_cases hlast : k + 1 < 20
          · exact .inr ⟨hlast, if_pos hlast⟩
          · exact .inl (if_neg hlast)
        · exact .inr rfl
      · rintro s' _ ⟨_ | e, ⟨⟩, hfound⟩
        · obtain ⟨hlast, rfl⟩ := hfound
          refine Leads.bind (leads_plain timeless_waiting (fun _ => rfl) rfl fun _ => rfl) ?_ ?_
          · rintro _ _ ⟨rfl, ⟨⟩⟩
            refine Leads.bind (leads_allow timeless_waiting) ?_ ?_
            · rintro _ _ ⟨rfl, ⟨⟩⟩
              exact ih (k + 1) hlast (by omega)
            · rintro _ _ ⟨-, ⟨⟩⟩
          · rintro _ _ ⟨-, ⟨⟩⟩
        · obtain rfl : s' = .served e.value := hfound
          exact leads_done ⟨e.value, rfl, rfl⟩
      · rintro _ _ ⟨_, ⟨⟩, -⟩

/-- **One call**, to its return. -/
theorem leads_getOrSet (hround : RoundTrips C) (ttl : Nat) :
    Leads cfg key .looking (C.getOrSet cfg key ttl) fun s' _ => ∃ v, s'.Settled v := by
  have hcall : Leads cfg key .looking (cfg.getOrSetJson () key ttl C.fetch) fun s' r =>
      ∃ v hit, r = .ok (v, hit) ∧ s'.Settled v := by
    refine Leads.bind (leads_allow timeless_looking) ?_ ?_
    · rintro _ _ ⟨rfl, ⟨⟩⟩
      rw [if_pos rfl]
      refine Leads.bind leads_cachedValue ?_ ?_
      · rintro _ _ (⟨v, ⟨⟩, rfl⟩ | ⟨⟨⟩, rfl⟩)
        · exact leads_done ⟨v, true, rfl, .inl rfl⟩
        · refine Leads.bind leads_lockAcquired ?_ ?_
          · rintro _ _ (⟨⟨⟩, rfl⟩ | ⟨⟨⟩, rfl⟩)
            · refine (leads_recompute hround ttl).mono ?_
              rintro _ _ ⟨v, rfl, rfl⟩
              exact ⟨v, false, rfl, .inr rfl⟩
            · refine Leads.bind (leads_poll 20 0 (by omega) rfl) ?_ ?_
              · rintro _ _ ⟨v, ⟨⟩, rfl⟩
                exact leads_done ⟨v, false, rfl, .inl rfl⟩
              · rintro _ _ ⟨_, ⟨⟩, -⟩
          · rintro _ _ (⟨⟨⟩, -⟩ | ⟨⟨⟩, -⟩)
      · rintro _ _ (⟨_, ⟨⟩, -⟩ | ⟨⟨⟩, -⟩)
    · rintro _ _ ⟨-, ⟨⟩⟩
  refine Leads.attempt_bind hcall ?_
  rintro s' _ ⟨v, hit, rfl, hv⟩
  exact leads_ask (.inr ⟨v, hit, rfl, hv⟩) fun _ _ => .inr ⟨v, hv⟩

end Programs

end Calls

/-! ## §3. All calls together. -/

namespace Stampede

variable {C : CachedType} {cfg : RedisCacheConfig} {key : String}

/-- What a call may be at once `value` is stored. -/
def Serves (value : C.T) : Stage C.T → Prop
  | .looking | .waiting _ => True
  | .found e => e.value = value
  | .served v | .stored v => v = value
  | .holding | .fetched _ | .excused => False

/-- How far the calls have come together: nobody has the lock; one has it and
fetches; or the value that one fetcher returned is stored. -/
inductive Standing (C : CachedType) (key : String) (keys : Store String (KeyEntry C.Text)) (σ : Nat → Stage C.T)
    (fetched : List C.T) : Prop where
  | untouched : keys.lookup key = none → keys.lookup (lockKey key) = none → (∀ p, σ p = .looking) → fetched = [] →
      Standing C key keys σ fetched
  | locked (holder : Nat) : keys.lookup key = none → (∃ e, keys.lookup (lockKey key) = some e) →
      (σ holder = .holding ∧ fetched = [] ∨ ∃ v, σ holder = .fetched v ∧ fetched = [v]) →
      (∀ p ≠ holder, σ p = .looking ∨ ∃ n < 20, σ p = .waiting n) → Standing C key keys σ fetched
  | filled (v : C.T) : (∃ entry e, keys.lookup key = some entry ∧ C.entry.fromStr entry.text = .ok e ∧ e.value = v) →
      (∀ p, Serves v (σ p)) → fetched = [v] → Standing C key keys σ fetched

/-- What an answer adds to the values that fetchers have returned. -/
def fetchedBy : (q : Command C.setting) → Reply q → List C.T
  | .outside .fetch, value => [value]
  | _, _ => []

/-- What one answered question supposes of the state before it. -/
structure Fair (cfg : RedisCacheConfig) (key : String) (b : Backend C.setting) (σ : Nat → Stage C.T) (p : Nat)
    (openedAt : Option Nat) (c : Choice C.setting) (q : Command C.setting) : Prop where
  live : ∀ e, b.keys.lookup key = some e → b.nowMs < e.expiresAtMs
  fresh : ∀ e, σ p = .found e → (b.nowMs / 1000 : Nat) < e.expiresAt ∧ c.refresh = false
  lockLive : ∀ p' e, (σ p').isFetching = true → b.keys.lookup (lockKey key) = some e → b.nowMs < e.expiresAtMs
  inTime : (∃ k, q = .get k (.entry ())) → σ p = .waiting 19 → ∀ p', (σ p').isFetching = false
  single : (∃ k text seconds, q = .setNxEx k text seconds) → b.get key ≠ none → b.get (lockKey key) ≠ none
  allowed : q = .nowMs → ∀ n, openedAt = some n → cfg.state n b.nowMs ≠ .opened
  plain : (∃ k, q = .get k (.plain ())) → ∀ text, b.get key = some text → ∃ e, C.plain.fromStr text = .error e

theorem lockKey_ne (key : String) : lockKey key ≠ key := by
  intro h
  have hlength := congrArg String.length h
  rw [lockKey, String.length_append] at hlength
  have hprefix : "stampede_lock:".length = 14 := rfl
  omega

section Standings

variable {keys : Store String (KeyEntry C.Text)} {σ : Nat → Stage C.T} {vs : List C.T} {p : Nat}
  {b b' : Backend C.setting} {c : Choice C.setting} {q : Command C.setting} {v : Reply q} {openedAt : Option Nat}

theorem Standing.not_excused (h : Standing C key keys σ vs) (p : Nat) : σ p ≠ .excused := by
  intro hp
  cases h with
  | untouched _ _ hσ _ => cases (hσ p).symm.trans hp
  | locked holder _ _ hholder hothers =>
      by_cases hpp : p = holder
      · subst hpp
        rcases hholder with ⟨hh, -⟩ | ⟨w, hh, -⟩ <;> cases hh.symm.trans hp
      · rcases hothers p hpp with hh | ⟨n, -, hh⟩ <;> cases hh.symm.trans hp
  | filled w _ hσ _ =>
      have hserves := hσ p
      rw [hp] at hserves
      exact hserves

/-- **Once a call has found the value** that is stored, every call serves it. -/
theorem Standing.filled_of_found (h : Standing C key keys σ vs)
    (hp : (∃ e, σ p = .found e) ∨ ∃ w, (σ p).Settled w) :
    ∃ value, (∃ entry e, keys.lookup key = some entry ∧ C.entry.fromStr entry.text = .ok e ∧ e.value = value)
      ∧ (∀ p, Serves value (σ p)) ∧ vs = [value] := by
  have hpast : σ p ≠ .looking ∧ (∀ n, σ p ≠ .waiting n) ∧ σ p ≠ .holding ∧ ∀ v, σ p ≠ .fetched v := by
    rcases hp with ⟨e, hp⟩ | ⟨w, hp | hp⟩ <;> rw [hp] <;> exact ⟨nofun, nofun, nofun, nofun⟩
  obtain ⟨hlooking, hwaiting, hholding, hfetched⟩ := hpast
  cases h with
  | untouched hkey hlock hσ hvs => exact absurd (hσ p) hlooking
  | locked holder hkey hlock hholder hothers =>
      by_cases hpp : p = holder
      · subst hpp
        rcases hholder with ⟨hh, -⟩ | ⟨v, hh, -⟩
        · exact absurd hh hholding
        · exact absurd hh (hfetched v)
      · rcases hothers p hpp with hh | ⟨n, -, hh⟩
        · exact absurd hh hlooking
        · exact absurd hh (hwaiting n)
  | filled value hkey hσ hvs => exact ⟨value, hkey, hσ, hvs⟩

/-- The stage of one call changes to one that its standing allows. -/
theorem Standing.update_filled {value : C.T} {s : Stage C.T}
    (hkey : ∃ entry e, keys.lookup key = some entry ∧ C.entry.fromStr entry.text = .ok e ∧ e.value = value)
    (hσ : ∀ p, Serves value (σ p)) (hs : Serves value s) (hvs : vs = [value]) :
    Standing C key keys (Function.update σ p s) vs := by
  refine .filled value hkey (fun p' => ?_) hvs
  rw [Function.update_apply]
  split
  · exact hs
  · exact hσ p'

/-- A call that is over looks again, when its process makes another. -/
theorem Standing.reset (h : Standing C key keys σ vs) (hp : ∃ w, (σ p).Settled w) :
    Standing C key keys (Function.update σ p .looking) vs := by
  obtain ⟨value, hkey, hσ, hvs⟩ := h.filled_of_found (.inr hp)
  exact .update_filled hkey hσ trivial hvs

theorem Standing.update_other {holder : Nat} {s : Stage C.T} (hkey : keys.lookup key = none)
    (hlock : ∃ e, keys.lookup (lockKey key) = some e)
    (hholder : σ holder = .holding ∧ vs = [] ∨ ∃ v, σ holder = .fetched v ∧ vs = [v])
    (hothers : ∀ p ≠ holder, σ p = .looking ∨ ∃ n < 20, σ p = .waiting n) (hp : p ≠ holder)
    (hs : ∃ n < 20, s = .waiting n) :
    Standing C key keys (Function.update σ p s) vs := by
  refine .locked holder hkey hlock ?_ fun p' hp' => ?_
  · rwa [Function.update_of_ne hp.symm]
  · rw [Function.update_apply]
    split
    · exact .inr hs
    · exact hothers p' hp'

theorem get_eq_none (h : b.keys.lookup key = none) : b.get key = none := by
  rw [Backend.get, h]

theorem get_eq_some {entry : KeyEntry C.Text} (h : b.keys.lookup key = some entry)
    (hlive : b.nowMs < entry.expiresAtMs) : b.get key = some entry.text := by
  rw [Backend.get, h]
  exact if_pos hlive

/-- The key is read. -/
theorem Standing.read (h : Standing C key b.keys σ vs) {f : Format Unit}
    (hfair : Fair cfg key b σ p openedAt c (.get key f)) :
    Standing C key b.keys (Function.update σ p ((σ p).read f (C.setting.parse f (b.get key)))) vs := by
  -- most reads teach the call nothing
  have hsame : (σ p).read f (C.setting.parse f (b.get key)) = σ p →
      Standing C key b.keys (Function.update σ p ((σ p).read f (C.setting.parse f (b.get key)))) vs := by
    intro hread
    rw [hread, Function.update_eq_self]
    exact h
  have hlooking : b.get key = none → σ p = .looking →
      (σ p).read f (C.setting.parse f (b.get key)) = σ p := by
    intro hget hp
    rw [hget, hp]
    cases f <;> rfl
  cases h with
  | untouched hkey hlock hσ hvs => exact hsame (hlooking (get_eq_none hkey) (hσ p))
  | locked holder hkey hlock hholder hothers =>
      have hget := get_eq_none hkey
      by_cases hpp : p = holder
      · subst hpp
        refine hsame ?_
        rcases hholder with ⟨hh, -⟩ | ⟨w, hh, -⟩ <;> rw [hh] <;> rfl
      · rcases hothers p hpp with hp | ⟨n, hn, hp⟩
        · exact hsame (hlooking hget hp)
        · -- the poll is in vain, and not the last one, for the holder is still at work
          have hfetching : (σ holder).isFetching = true := by
            rcases hholder with ⟨hh, -⟩ | ⟨w, hh, -⟩ <;> rw [hh] <;> rfl
          cases f with
          | plain u =>
              refine hsame ?_
              rw [hget, hp]
              rfl
          | entry u =>
              have hread : (σ p).read (.entry u) (C.setting.parse (.entry u) (b.get key))
                  = if n + 1 < 20 then .waiting (n + 1) else .excused := by
                rw [hget, hp]
                rfl
              have hlast : n + 1 < 20 := by
                by_contra hcontra
                obtain rfl : n = 19 := by omega
                exact absurd (hfetching.symm.trans (hfair.inTime ⟨key, rfl⟩ hp holder)) (by decide)
              rw [hread, if_pos hlast]
              exact .update_other hkey hlock hholder hothers hpp ⟨n + 1, hlast, rfl⟩
  | filled value hkey hσ hvs =>
      -- the stored value is found, before the lock is tried for and by a poll alike
      obtain ⟨entry, e, hentry, hread, rfl⟩ := hkey
      have hget := get_eq_some hentry (hfair.live entry hentry)
      refine .update_filled ⟨entry, e, hentry, hread, rfl⟩ hσ ?_ hvs
      have hserves := hσ p
      rw [hget]
      cases f with
      | entry u =>
          have hparse : C.setting.parse (.entry u) (some entry.text) = .ok (some e) := by
            show (C.entry.fromStr entry.text).map some = _
            rw [hread]
            rfl
          rw [hparse]
          cases hp : σ p with
          | looking => rfl
          | waiting n => rfl
          | _ =>
              rw [hp] at hserves
              exact hserves
      | plain u =>
          obtain ⟨msg, hmsg⟩ := hfair.plain ⟨key, rfl⟩ entry.text hget
          have hparse : C.setting.parse (.plain u) (some entry.text) = .error msg := by
            show (C.plain.fromStr entry.text).map some = _
            rw [hmsg]
            rfl
          rw [hparse]
          cases hp : σ p with
          | looking => trivial
          | waiting n => trivial
          | _ =>
              rw [hp] at hserves
              exact hserves

/-- The lock is tried for. -/
theorem Standing.lock (h : Standing C key b.keys σ vs) {text : C.Text} {seconds : Nat} {acquired : Bool}
    (hp : σ p = .looking) (hexec : exec c b (.setNxEx (lockKey key) text seconds) = some (acquired, b'))
    (hfair : Fair cfg key b σ p openedAt c (.setNxEx (lockKey key) text seconds)) :
    Standing C key b'.keys (Function.update σ p (if acquired then .holding else .waiting 0)) vs := by
  have hcases : (acquired = false ∧ b' = b ∧ b.get (lockKey key) ≠ none)
      ∨ (acquired = true ∧ b.get (lockKey key) = none ∧ b' = b.setEx (lockKey key) text seconds) := by
    simp only [exec] at hexec
    split at hexec
    · cases hexec
    · split at hexec <;> rename_i hget <;> cases hexec
      · exact .inl ⟨rfl, rfl, by rw [hget]; exact Option.some_ne_none _⟩
      · exact .inr ⟨rfl, hget, rfl⟩
  cases h with
  | untouched hkey hlock hσ hvs =>
      -- nobody has the lock, so this call gets it
      rcases hcases with ⟨-, -, htaken⟩ | ⟨rfl, -, rfl⟩
      · exact absurd (get_eq_none hlock) htaken
      · refine .locked p ?_ ⟨_, (Store.lookup_insert_eq ..).trans (if_pos rfl)⟩ (.inl ⟨?_, hvs⟩) fun p' hp' => ?_
        · exact ((Store.lookup_insert_eq ..).trans (if_neg (lockKey_ne key).symm)).trans hkey
        · exact Function.update_self ..
        · rw [Function.update_of_ne hp']
          exact .inl (hσ p')
  | locked holder hkey hlock hholder hothers =>
      obtain ⟨entry, hentry⟩ := hlock
      have hfetching : (σ holder).isFetching = true := by
        rcases hholder with ⟨hh, -⟩ | ⟨w, hh, -⟩ <;> rw [hh] <;> rfl
      -- the lock lives as long as its holder fetches, so another call waits
      have hpp : p ≠ holder := by
        rintro rfl
        rw [hp] at hfetching
        cases hfetching
      have htaken := get_eq_some hentry (hfair.lockLive holder entry hfetching hentry)
      rcases hcases with ⟨rfl, rfl, -⟩ | ⟨-, hfree, -⟩
      · exact .update_other hkey ⟨entry, hentry⟩ hholder hothers hpp ⟨0, by omega, rfl⟩
      · cases htaken.symm.trans hfree
  | filled value hkey hσ hvs =>
      -- a call that has looked before the value was stored may not get a lock that has been released
      obtain ⟨entry, e, hentry, hread⟩ := hkey
      have hget : b.get key ≠ none := by
        rw [get_eq_some hentry (hfair.live entry hentry)]
        exact Option.some_ne_none _
      rcases hcases with ⟨rfl, rfl, -⟩ | ⟨-, hfree, -⟩
      · exact .update_filled ⟨entry, e, hentry, hread⟩ hσ trivial hvs
      · exact absurd hfree (hfair.single ⟨_, _, _, rfl⟩ hget)

/-- **The call that fetches** is the one that has the lock. -/
theorem Standing.locked_of_isFetching (h : Standing C key b.keys σ vs) (hp : (σ p).isFetching = true) :
    b.keys.lookup key = none ∧ (∃ e, b.keys.lookup (lockKey key) = some e)
      ∧ (σ p = .holding ∧ vs = [] ∨ ∃ v, σ p = .fetched v ∧ vs = [v])
      ∧ ∀ p' ≠ p, σ p' = .looking ∨ ∃ n < 20, σ p' = .waiting n := by
  cases h with
  | untouched hkey hlock hσ hvs =>
      rw [hσ p] at hp
      cases hp
  | locked holder hkey hlock hholder hothers =>
      have hpp : p = holder := by
        by_contra hne
        rcases hothers p hne with hh | ⟨n, -, hh⟩ <;> rw [hh] at hp <;> cases hp
      subst hpp
      exact ⟨hkey, hlock, hholder, hothers⟩
  | filled value hkey hσ hvs =>
      -- a call that serves the stored value does not fetch
      have hserves := hσ p
      cases hstage : σ p with
      | holding | fetched _ =>
          rw [hstage] at hserves
          exact hserves.elim
      | _ =>
          rw [hstage] at hp
          cases hp

/-- A value that serde reads back is stored. -/
theorem Standing.store (h : Standing C key b.keys σ vs) (hround : RoundTrips C) {e : CachedEntry C.T}
    {text : C.Text} {seconds : Nat} (hp : σ p = .fetched e.value) (htext : C.entry.toString e = .ok text)
    (hexec : exec c b (.setEx key text seconds) = some ((), b')) :
    Standing C key b'.keys (Function.update σ p (.stored e.value)) vs := by
  have hb' : b' = b.setEx key text seconds := by
    simp only [exec] at hexec
    split at hexec <;> cases hexec
    rfl
  obtain ⟨text', e', htext', hread, hvalue⟩ := hround e
  obtain rfl : text = text' := Except.ok.inj (htext.symm.trans htext')
  subst hb'
  obtain ⟨-, -, hholder, hothers⟩ := h.locked_of_isFetching (by rw [hp]; rfl)
  refine .filled e.value ⟨_, e', (Store.lookup_insert_eq ..).trans (if_pos rfl), hread, hvalue⟩ (fun p' => ?_) ?_
  · rw [Function.update_apply]
    split
    · rfl
    · rename_i hne
      rcases hothers p' hne with hh | ⟨n, -, hh⟩ <;> rw [hh] <;> trivial
  · rcases hholder with ⟨hh, -⟩ | ⟨w, hh, hvs⟩
    · cases hh.symm.trans hp
    · cases hh.symm.trans hp
      exact hvs

/-- The holder's fetcher returns. -/
theorem Standing.fetch (h : Standing C key b.keys σ vs) (hp : σ p = .holding) (value : C.T) :
    Standing C key b.keys (Function.update σ p (.fetched value)) (vs ++ [value]) := by
  obtain ⟨hkey, hlock, hholder, hothers⟩ := h.locked_of_isFetching (by rw [hp]; rfl)
  have hvs : vs = [] := by
    rcases hholder with ⟨-, hvs⟩ | ⟨w, hh, -⟩
    · exact hvs
    · cases hh.symm.trans hp
  refine .locked p hkey hlock (.inr ⟨value, Function.update_self .., by rw [hvs]; rfl⟩) fun p' hp' => ?_
  rw [Function.update_of_ne hp']
  exact hothers p' hp'

/-- The lock is released, after the value is stored. -/
theorem Standing.release (h : Standing C key b.keys σ vs) {w : C.T} (hp : σ p = .stored w) :
    Standing C key (b.keys.erase (lockKey key)) σ vs := by
  obtain ⟨value, ⟨entry, e, hentry, hread⟩, hσ, hvs⟩ := h.filled_of_found (.inr ⟨w, .inr hp⟩)
  refine .filled value ⟨entry, e, ?_, hread⟩ hσ hvs
  rw [AList.lookup_erase_ne (lockKey_ne key).symm]
  exact hentry

/-- **One answer**, of any question. -/
theorem Standing.answer (h : Standing C key b.keys σ vs) (hround : RoundTrips C)
    (hexec : exec c b q = some (v, b')) (hallows : Progress.allows C key ⟨openedAt, σ p⟩ q)
    (hfair : Fair cfg key b σ p openedAt c q) :
    Standing C key b'.keys (Function.update σ p (Progress.hear C cfg ⟨openedAt, σ p⟩ q v).stage)
      (vs ++ fetchedBy q v) := by
  have hallows := hallows.resolve_left (h.not_excused p)
  have hsame : ∀ {s}, s = σ p → Standing C key b.keys (Function.update σ p s) (vs ++ []) := by
    rintro s rfl
    rw [Function.update_eq_self, List.append_nil]
    exact h
  cases q with
  | nowMs =>
      cases hexec
      refine hsame ?_
      have hopen : (openedAt.any fun n => cfg.state n b.nowMs == .opened) = false := by
        cases hopened : openedAt with
        | none => rfl
        | some n => simpa using hfair.allowed rfl n hopened
      show Progress.stage (if (openedAt.any fun n => cfg.state n b.nowMs == .opened) then _ else _) = _
      rw [hopen]
      cases hp : σ p with
      | found e => exact if_neg (by have := (hfair.fresh e hp).1; omega)
      | _ => rfl
  | xfetchScore deltaMs ttlRemaining =>
      cases hexec
      cases hp : σ p with
      | found e =>
          have hrefresh := (hfair.fresh e hp).2
          show Standing C key b.keys (Function.update σ p (if c.refresh then .excused else .served e.value)) (vs ++ [])
          obtain ⟨value, hkey, hσ, hvs⟩ := h.filled_of_found (.inl ⟨e, hp⟩)
          have hserves := hσ p
          rw [hp] at hserves
          rw [hrefresh, List.append_nil]
          exact .update_filled hkey hσ hserves hvs
      | _ => exact hsame (by rw [hp]; rfl)
  | get k f =>
      obtain rfl : k = key := hallows
      cases hexec
      show Standing C k b.keys (Function.update σ p ((σ p).read f (C.setting.parse f (b.get k)))) (vs ++ [])
      rw [List.append_nil]
      exact h.read hfair
  | setNxEx k text seconds =>
      obtain ⟨rfl, hp⟩ := hallows
      show Standing C key b'.keys (Function.update σ p ((σ p).lock v)) (vs ++ [])
      rw [List.append_nil, show (σ p).lock v = (if v then .holding else .waiting 0) by rw [show σ p = .looking from hp]; rfl]
      exact h.lock hp hexec hfair
  | setEx k text seconds =>
      obtain ⟨rfl, e, hp, htext⟩ := hallows
      show Standing C k b'.keys (Function.update σ p (σ p).store) (vs ++ [])
      rw [List.append_nil, show (σ p).store = .stored e.value by rw [show σ p = .fetched e.value from hp]; rfl]
      exact h.store hround hp htext hexec
  | del k =>
      obtain ⟨rfl, w, hp⟩ := hallows
      cases hexec
      show Standing C key (b.keys.erase (lockKey key)) (Function.update σ p (σ p)) (vs ++ [])
      rw [Function.update_eq_self, List.append_nil]
      exact h.release hp
  | incrWithTtl k seconds => exact hallows.elim
  | delKeys keys => exact hallows.elim
  | outside q =>
      cases q with
      | fetch =>
          have hkeys : b'.keys = b.keys := by
            cases hexec
            rfl
          show Standing C key b'.keys (Function.update σ p ((σ p).fetch v)) (vs ++ [v])
          rw [hkeys, show (σ p).fetch v = .fetched v by rw [show σ p = .holding from hallows]; rfl]
          exact h.fetch hallows v
      | returns result =>
          cases hexec
          exact hsame rfl
  | _ =>
      cases hexec
      exact hsame rfl

end Standings

/-! ## §4. Runs. -/

/-- A call is started with the time-to-live it gives its value. -/
abbrev Action (C : CachedType) : Type := Act Nat Nat String (Choice C.setting) Outside

/-- The calls of `get_or_set_json` on one key. -/
def step (C : CachedType) (cfg : RedisCacheConfig) (key : String) :
    System C.setting → Action C → System C.setting :=
  Machine.step (server C.setting) (fun _ ttl => C.getOrSet cfg key ttl) outside

/-- How far a call has come. -/
def progress (C : CachedType) (cfg : RedisCacheConfig) (key : String) (m : System C.setting) (p : Nat) :
    Progress C.T :=
  m.phase (callMonitor C cfg key) p

/-- What fetchers have returned. -/
def fetched (m : System C.setting) : List C.T :=
  m.log.flatMap fun x =>
    match x.2.answer with
    | .ok v => fetchedBy x.2.question v
    | .error _ => []

/-- What calls have returned. -/
def results (m : System C.setting) : List (Except String (C.T × Bool)) :=
  m.log.filterMap fun x =>
    match x.2.question with
    | .outside (.returns result) => some result
    | _ => none

/-- **Stampede protection**: one call runs its fetcher, and every call returns
the value of that fetcher. -/
structure OneFetch (m : System C.setting) : Prop where
  once : (fetched m).length ≤ 1
  alone : ∀ p, m.asks p = some (.outside .fetch) → fetched m = [] ∧ ∀ p', m.asks p' = some (.outside .fetch) → p' = p
  shared : ∀ result ∈ results m, ∃ v hit, result = .ok (v, hit) ∧ v ∈ fetched m

/-- What is supposed of a run, step by step: Redis does not fail and no call is
dropped; the value does not expire, and no refresh is drawn; the lock does not
expire under its holder; and no caller polls for the last time before the
holder has stored its value. -/
structure Supposed (cfg : RedisCacheConfig) (key : String) (t : Transition (System C.setting) (Action C)) :
    Prop where
  answered : t.act.failing = none
  live : ∀ e, t.pre.store.keys.lookup key = some e → t.pre.store.nowMs < e.expiresAtMs
  fresh : ∀ p c e, t.act = .answer p c → (progress C cfg key t.pre p).stage = .found e →
    (t.pre.store.nowMs / 1000 : Nat) < e.expiresAt ∧ c.refresh = false
  lockLive : ∀ p e, (progress C cfg key t.pre p).stage.isFetching = true →
    t.pre.store.keys.lookup (lockKey key) = some e → t.pre.store.nowMs < e.expiresAtMs
  inTime : ∀ p k, t.act.asker = some p → t.pre.asks p = some (.get k (.entry ())) →
    (progress C cfg key t.pre p).stage = .waiting 19 → ∀ p', (progress C cfg key t.pre p').stage.isFetching = false

/-- **The exact condition**: no call gets the lock once the key holds a value, none
finds the circuit open, and none reads an entry as a plain value. -/
structure Orderly (cfg : RedisCacheConfig) (key : String) (t : Transition (System C.setting) (Action C)) :
    Prop where
  single : ∀ p k text seconds, t.act.asker = some p → t.pre.asks p = some (.setNxEx k text seconds) →
    t.pre.store.get key ≠ none → t.pre.store.get (lockKey key) ≠ none
  allowed : ∀ p n, t.act.asker = some p → t.pre.asks p = some .nowMs →
    (progress C cfg key t.pre p).openedAt = some n → cfg.state n t.pre.store.nowMs ≠ .opened
  plain : ∀ p k text, t.act.asker = some p → t.pre.asks p = some (.get k (.plain ())) →
    t.pre.store.get key = some text → ∃ e, C.plain.fromStr text = .error e

/-- The calls stand well, and have returned what one fetcher has. -/
structure Protected (cfg : RedisCacheConfig) (key : String) (m : System C.setting) : Prop where
  standing : Standing C key m.store.keys (fun p => (progress C cfg key m p).stage) (fetched m)
  shared : ∀ result ∈ results m, ∃ v hit, result = .ok (v, hit) ∧ v ∈ fetched m

section Steps

variable {m : System C.setting} {p : Nat} {l : Live (Reply (W := C.setting)) String} {b : Backend C.setting}
  {v : Reply l.question}

theorem fetched_deliver (m : System C.setting) (p : Nat) (l : Live (Reply (W := C.setting)) String)
    (b : Backend C.setting) (v : Reply l.question) :
    fetched (m.deliver p l b (.ok v)) = fetched m ++ fetchedBy l.question v := by
  unfold fetched Machine.deliver
  rw [List.flatMap_append, List.flatMap_singleton]

/-- What stands with a value in it has been fetched. -/
theorem Standing.mem_of_settled {keys : Store String (KeyEntry C.Text)} {σ : Nat → Stage C.T} {vs : List C.T}
    {w : C.T} (h : Standing C key keys σ vs) (hp : (σ p).Settled w) : w ∈ vs := by
  obtain ⟨value, -, hσ, hvs⟩ := h.filled_of_found (.inr ⟨w, hp⟩)
  have hserves := hσ p
  rw [hvs]
  rcases hp with hp | hp <;> rw [hp] at hserves <;> exact List.mem_singleton.mpr hserves

/-- **One answer.** -/
theorem Protected.deliver {a : Action C} (h : Protected cfg key m) (hround : RoundTrips C)
    (ha : a.asker = some p) (hl : m.procs p = some l) {r : Except String (Reply l.question)}
    (hr : Machine.reply (server C.setting) m.store a l.question = some (b, r))
    (hobeys : (callMonitor C cfg key).Obeys (fun φ _ => φ.stage = .excused ∨ ∃ w, φ.stage.Settled w)
      (progress C cfg key m p) (.ask l.question l.rest))
    (hsupposed : Supposed cfg key ⟨m, a, m.deliver p l b r⟩)
    (horderly : Orderly cfg key ⟨m, a, m.deliver p l b r⟩) : Protected cfg key (m.deliver p l b r) := by
  have hasks : m.asks p = some l.question := congrArg (Option.map _) hl
  have hfailing : a.failing = none := hsupposed.answered
  rcases Machine.reply_cases (server C.setting) ha hr with ⟨c, v, rfl, rfl, hexec⟩ | ⟨e, rfl, -⟩ | ⟨c, e, v, rfl, -⟩
  · have hfair : Fair cfg key m.store (fun p => (progress C cfg key m p).stage) p
        (progress C cfg key m p).openedAt c l.question := by
      refine ⟨hsupposed.live, fun e => hsupposed.fresh p c e rfl, hsupposed.lockLive, ?_, ?_, ?_, ?_⟩
      · rintro ⟨k, hq⟩
        exact hsupposed.inTime p k rfl (hasks.trans (congrArg some hq))
      · rintro ⟨k, text, seconds, hq⟩
        exact horderly.single p k text seconds rfl (hasks.trans (congrArg some hq))
      · rintro hq n
        exact horderly.allowed p n rfl (hasks.trans (congrArg some hq))
      · rintro ⟨k, hq⟩ text
        exact horderly.plain p k text rfl (hasks.trans (congrArg some hq))
    have hanswer := h.standing.answer hround hexec hobeys.1 hfair
    have hfetched := fetched_deliver m p l b v
    refine ⟨?_, fun result hresult => ?_⟩
    · have hnext := hobeys.2 (.ok v)
      have hstage : ∀ φ, Machine.phaseOf (callMonitor C cfg key) (l.rest (.ok v))
          (Progress.hear C cfg (progress C cfg key m p) l.question v) = φ →
          (fun p' => (progress C cfg key (m.deliver p l b (.ok v)) p').stage)
            = Function.update (fun p' => (progress C cfg key m p').stage) p φ.stage := by
        rintro φ rfl
        funext p'
        rw [progress, Machine.phase_deliver _ hl, Function.update_apply, Function.update_apply]
        split <;> rfl
      rw [hfetched]
      cases hrest : l.rest (.ok v) with
      | ask q k =>
          rw [hrest] at hstage
          rw [hstage _ rfl]
          exact hanswer
      | done res =>
          -- the call is over, with a value
          rw [hrest] at hstage hnext
          rw [hstage _ rfl]
          obtain ⟨w, hw⟩ := Or.resolve_left hnext fun hexcused =>
            hanswer.not_excused p ((Function.update_self ..).trans hexcused)
          have hreset := hanswer.reset (p := p) ⟨w, by rw [Function.update_self]; exact hw⟩
          rwa [Function.update_idem] at hreset
    · rw [hfetched]
      unfold results Machine.deliver at hresult
      rw [List.filterMap_append] at hresult
      rcases List.mem_append.mp hresult with hold | hnew
      · obtain ⟨w, hit, hw, hmem⟩ := h.shared result hold
        exact ⟨w, hit, hw, List.mem_append_left _ hmem⟩
      · obtain ⟨x, hx, hx'⟩ := List.mem_filterMap.mp hnew
        obtain rfl := List.mem_singleton.mp hx
        have hallows := hobeys.1.resolve_left (h.standing.not_excused p)
        obtain ⟨q, rest, heard⟩ := l
        cases q with
        | outside q =>
            cases q with
            | returns result' =>
                obtain rfl := Option.some.inj hx'
                obtain ⟨w, hit, hw, hsettled⟩ := hallows
                exact ⟨w, hit, hw, List.mem_append_left _ (h.standing.mem_of_settled hsettled)⟩
            | fetch => cases hx'
        | _ => cases hx'
  · cases hfailing
  · cases hfailing

/-- Where the calls stand, nobody fetches but the holder of the lock. -/
theorem Protected.oneFetch (h : Protected cfg key m)
    (hallows : ∀ p, m.asks p = some (.outside .fetch) → (progress C cfg key m p).stage = .holding) : OneFetch m := by
  have honly : ∀ p, m.asks p = some (.outside .fetch) →
      fetched m = [] ∧ ∀ p', m.asks p' = some (.outside .fetch) → p' = p := by
    intro p hp
    have hholding := hallows p hp
    cases h.standing with
    | untouched hkey hlock hσ hvs => cases (hσ p).symm.trans hholding
    | locked holder hkey hlock hholder hothers =>
        have hpp : ∀ p', m.asks p' = some (.outside .fetch) → p' = holder := by
          intro p' hp'
          by_contra hne
          rcases hothers p' hne with hh | ⟨n, -, hh⟩ <;> cases hh.symm.trans (hallows p' hp')
        obtain rfl := hpp p hp
        rcases hholder with ⟨-, hvs⟩ | ⟨w, hh, -⟩
        · exact ⟨hvs, hpp⟩
        · cases hh.symm.trans hholding
    | filled value hkey hσ hvs =>
        have hserves : Serves value (progress C cfg key m p).stage := hσ p
        rw [hholding] at hserves
        exact hserves.elim
  refine ⟨?_, honly, h.shared⟩
  cases h.standing with
  | untouched hkey hlock hσ hvs => simp [hvs]
  | locked holder hkey hlock hholder hothers => rcases hholder with ⟨-, hvs⟩ | ⟨w, -, hvs⟩ <;> simp [hvs]
  | filled value hkey hσ hvs => simp [hvs]

end Steps

/-- **One fetch for many calls**, in every state of a run that is as supposed and orderly. -/
theorem one_fetch (hround : RoundTrips C) (b : Backend C.setting) (hkey : b.keys.lookup key = none)
    (hlock : b.keys.lookup (lockKey key) = none) (as : List (Action C))
    (hsteps : ∀ t ∈ trace (step C cfg key) (Machine.idle b) as, Supposed cfg key t ∧ Orderly cfg key t) :
    OneFetch (run (step C cfg key) (Machine.idle b) as) := by
  have hobeys : ∀ as' p l, (run (step C cfg key) (Machine.idle b) as').procs p = some l →
      (callMonitor C cfg key).Obeys (fun φ _ => φ.stage = .excused ∨ ∃ w, φ.stage.Settled w)
        (progress C cfg key (run (step C cfg key) (Machine.idle b) as') p) (.ask l.question l.rest) := by
    intro as' p l hl
    have hphase : progress C cfg key (run (step C cfg key) (Machine.idle b) as') p
        = Machine.phaseAfter (callMonitor C cfg key) l.heard := by
      unfold progress Machine.phase
      rw [hl]
    rw [hphase]
    exact Machine.tasksMonitored_run (M := fun _ => callMonitor C cfg key) (fun _ ttl => leads_getOrSet hround ttl none)
      0 b as' p l hl
  have hprotected : Protected cfg key (run (step C cfg key) (Machine.idle b) as) := by
    refine history_invariant (step C cfg key) (fun _ m => Protected cfg key m)
      (fun t => Supposed cfg key t ∧ Orderly cfg key t) ?_ ?_ as hsteps
    · exact ⟨.untouched hkey hlock (fun _ => rfl) rfl, nofun⟩
    · rintro as' a h ⟨hsupposed, horderly⟩
      have hobeys := hobeys as'
      generalize run (step C cfg key) (Machine.idle b) as' = m at h hsupposed horderly hobeys ⊢
      rcases m.step_cases (server C.setting) (fun _ ttl => C.getOrSet cfg key ttl) outside a with
        hstep | ⟨p, task, rfl, hp, hstep⟩ | ⟨p, l, s, r, ha, hl, hr, hstep⟩ | ⟨p, rfl, hstep⟩ | ⟨w, rfl, hstep⟩
      all_goals rw [show step C cfg key m _ = _ from hstep] at hsupposed horderly ⊢
      · exact h
      · refine ⟨?_, h.shared⟩
        have hphase := Machine.phase_launch (callMonitor C cfg key) hp (C.getOrSet cfg key task)
        unfold progress
        rw [hphase]
        exact h.standing
      · exact h.deliver hround ha hl hr (hobeys p l hl) hsupposed horderly
      · cases hsupposed.answered
      · cases w
        exact ⟨h.standing, h.shared⟩
  refine hprotected.oneFetch fun p hp => ?_
  obtain ⟨l, hl, hq⟩ := Option.map_eq_some_iff.mp hp
  have hallows := ((hobeys as p l hl).1).resolve_left (hprotected.standing.not_excused p)
  rw [hq] at hallows
  exact hallows

/-! ## §5. A call that waits, and one that comes late. -/

def isSupposed (cfg : RedisCacheConfig) (key : String) (t : Transition (System C.setting) (Action C)) : Bool :=
  t.act.failing.isNone
    && (t.pre.store.keys.lookup key).all (fun e => decide (t.pre.store.nowMs < e.expiresAtMs))
    && (t.pre.store.keys.lookup (lockKey key)).all (fun e => decide (t.pre.store.nowMs < e.expiresAtMs))
    && (match t.act with
      | .answer _ c => !c.refresh
      | _ => true)
    && t.act.asker.all fun p =>
      match (progress C cfg key t.pre p).stage with
      | .found e => decide ((t.pre.store.nowMs / 1000 : Nat) < e.expiresAt)
      | .waiting n => n != 19
      | _ => true

theorem Supposed.of_isSupposed {t : Transition (System C.setting) (Action C)} (h : isSupposed cfg key t = true) :
    Supposed cfg key t := by
  simp only [isSupposed, Bool.and_eq_true] at h
  obtain ⟨⟨⟨⟨hanswered, hlive⟩, hlock⟩, hrefresh⟩, hstage⟩ := h
  refine ⟨Option.isNone_iff_eq_none.mp hanswered, fun e he => ?_, fun p c e hact he => ?_, fun p e _ he => ?_,
    fun p k hask _ hlast => ?_⟩
  · simpa [he] using hlive
  · rw [hact] at hrefresh hstage
    simp only [Act.asker, Option.all_some, he, decide_eq_true_eq] at hstage
    exact ⟨hstage, by simpa using hrefresh⟩
  · simpa [he] using hlock
  · simp [hask, hlast] at hstage

def isOrderly (cfg : RedisCacheConfig) (key : String) (t : Transition (System C.setting) (Action C)) : Bool :=
  t.act.asker.all fun p =>
    match t.pre.asks p with
    | some (.setNxEx ..) => (t.pre.store.get key).isNone || (t.pre.store.get (lockKey key)).isSome
    | some .nowMs => (progress C cfg key t.pre p).openedAt.all fun n => cfg.state n t.pre.store.nowMs != .opened
    | some (.get _ (.plain _)) => (t.pre.store.get key).all fun text => !(C.plain.fromStr text).isOk
    | _ => true

theorem Orderly.of_isOrderly {t : Transition (System C.setting) (Action C)} (h : isOrderly cfg key t = true) :
    Orderly cfg key t := by
  refine ⟨fun p k text seconds hask hq hkey => ?_, fun p n hask hq hn => ?_, fun p k text hask hq htext => ?_⟩
  · have hlock : (t.pre.store.get key).isNone = true ∨ (t.pre.store.get (lockKey key)).isSome = true := by
      simpa only [isOrderly, hask, hq, Option.all_some, Bool.or_eq_true] using h
    rcases hlock with hnone | hsome
    · exact absurd (Option.isNone_iff_eq_none.mp hnone) hkey
    · exact Option.isSome_iff_ne_none.mp hsome
  · simpa [isOrderly, hask, hq, hn] using h
  · have hread : (C.plain.fromStr text).isOk = false := by
      simpa [isOrderly, hask, hq, htext] using h
    cases hplain : C.plain.fromStr text with
    | error e => exact ⟨e, rfl⟩
    | ok value =>
        rw [hplain] at hread
        cases hread

theorem sampleType_roundTrips : RoundTrips sampleType := fun e => ⟨.entry e, e, rfl, rfl, rfl⟩

def sampleStart : System sampleType.setting := Machine.idle ⟨1000, 0, 0, ∅, ()⟩

/-- The answers to call `p`, whose fetcher returns `value`. -/
def sampleAnswers (p n value : Nat) : List (Action sampleType) := List.replicate n (.answer p ⟨false, value⟩)

/-- Call 0 takes the lock, call 1 does not get it; call 0 stores its value, and
call 1 polls. -/
def sampleWait : List (Action sampleType) :=
  .start 0 60 :: sampleAnswers 0 14 7 ++ .start 1 60 :: sampleAnswers 1 16 8
    ++ sampleAnswers 0 17 7 ++ sampleAnswers 1 7 8

theorem sampleWait_fetches_once :
    OneFetch (run (step sampleType sampleConfig "key") sampleStart sampleWait)
      ∧ (results (run (step sampleType sampleConfig "key") sampleStart sampleWait)).length = 2 := by
  refine ⟨one_fetch sampleType_roundTrips ⟨1000, 0, 0, ∅, ()⟩ rfl rfl sampleWait fun t ht => ?_, by decide +kernel⟩
  have hsteps : (trace (step sampleType sampleConfig "key") sampleStart sampleWait).all
      (fun t => isSupposed sampleConfig "key" t && isOrderly sampleConfig "key" t) = true := by decide +kernel
  obtain ⟨hsupposed, horderly⟩ := Bool.and_eq_true_iff.mp (List.all_eq_true.mp hsteps t ht)
  exact ⟨.of_isSupposed hsupposed, .of_isOrderly horderly⟩

/-- Call 1 finds no value; call 0 comes and goes; call 1 tries for the lock. -/
def sampleLate : List (Action sampleType) :=
  .start 1 60 :: sampleAnswers 1 11 8 ++ .start 0 60 :: sampleAnswers 0 31 7 ++ sampleAnswers 1 20 8

/-- The late call gets the lock and fetches again, and the calls return two values. -/
theorem sampleLate_fetches_twice :
    (∀ t ∈ trace (step sampleType sampleConfig "key") sampleStart sampleLate, Supposed sampleConfig "key" t)
      ∧ ¬OneFetch (run (step sampleType sampleConfig "key") sampleStart sampleLate) := by
  refine ⟨fun t ht => .of_isSupposed ?_, fun h => ?_⟩
  · have hsteps : (trace (step sampleType sampleConfig "key") sampleStart sampleLate).all
        (isSupposed sampleConfig "key") = true := by decide +kernel
    exact List.all_eq_true.mp hsteps t ht
  · have htwice : (fetched (run (step sampleType sampleConfig "key") sampleStart sampleLate)).length = 2 := by
      decide +kernel
    have honce := h.once
    omega

end Stampede

end PredictIQ.Cache
