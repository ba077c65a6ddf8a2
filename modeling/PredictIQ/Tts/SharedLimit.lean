/-
  PredictIQ.Tts.SharedLimit: the rate limit that replicas share.

  A process is one call of `enqueueAsync` up to its check, on any replica: they
  share nothing but Redis.  `Books` holds in every run: in the life of a
  counter no more calls pass than it counts, and none beyond the limit.  That
  a counter has an expiry is `Bounded`, and needs the first call of a window
  to get from its INCR to its PEXPIRE; `sampleCrashed_locks` is a run in which
  it crashes between the two.
-/
import PredictIQ.Foundation.TaskHistory
import PredictIQ.Foundation.Triple
import PredictIQ.Tts.Service

namespace PredictIQ.Tts

open Foundation Monitor

/-! ## §1. Calls and windows. -/

abbrev Check : Type := Act Nat String TtsError Choice Outside

/-- The counter that a question is about. -/
def Command.counter : Command → Option String
  | .incr key | .pexpire key _ => some key
  | _ => none

/-- The program has returned. -/
def hasReturned : TtsM Unit → Bool
  | .done (.ok _) => true
  | _ => false

section Calls

variable (W : Setting) (cfg : TTSConfig) (limit : RateLimitConfig)

/-- The check of `enqueueAsync` on a key. -/
def admission (_ : Nat) (key : String) : TtsM Unit := checkSharedRate limit key

def checkStep : System → Check → System := Machine.step (server W cfg) (admission limit) (outside cfg)

/-- A step in which a call passes, by its last question about a counter. -/
def passes (key : String) (t : Transition System Check) : Bool :=
  match t.act.asker.bind t.pre.procs with
  | some l =>
      (l.question.counter = some key) &&
        match Machine.reply (server W cfg) t.pre.store t.act l.question with
        | some sr => hasReturned (l.rest sr.2)
        | none => false
  | none => false

/-- A step in which an increment creates a counter: its window begins. -/
def creates (key : String) (t : Transition System Check) : Bool :=
  (t.pre.performs t.act = some (.incr key)) && (t.pre.store.counter key).isNone

/-- The calls that have passed in the window, after one more step. -/
def passedAfter (key : String) (passed : Nat) (t : Transition System Check) : Nat :=
  (if creates key t then 0 else passed) + if passes W cfg key t then 1 else 0

/-- The calls that have passed since the counter was last created. -/
def passedInWindow (key : String) (history : List (Transition System Check)) : Nat :=
  history.foldl (passedAfter W cfg key) 0

/-- The step does not come between a counter and its expiry: no increment that
creates one is lost, no PEXPIRE fails before it takes effect, and no call
crashes that is about to ask it. -/
def ExpiryKept (t : Transition System Check) : Prop :=
  ∀ p l, t.pre.procs p = some l →
    (∀ o e key, t.act = .lose p o e → l.question = .incr key → t.pre.store.counter key ≠ none)
      ∧ (∀ key windowMs, l.question = .pexpire key windowMs → (∀ e, t.act ≠ .refuse p e) ∧ t.act ≠ .crash p)

/-- What is asked of a run: no more calls pass in a window than the limit says;
when no call is in progress every counter expires within the window; and a
client that then stays idle for that long, whatever others do, passes. -/
structure LimitKept (now : Int) (as : List Check) : Prop where
  limited : ∀ key, (passedInWindow W cfg key (trace (checkStep W cfg limit) (Machine.idle (State.initial now)) as) : Int)
    ≤ max 0 limit.maxRequests
  expiring : ∀ key counter,
    (∀ p, (run (checkStep W cfg limit) (Machine.idle (State.initial now)) as).procs p = none) →
    (run (checkStep W cfg limit) (Machine.idle (State.initial now)) as).store.counter key = some counter →
    ∃ expiresAt, counter.expiresAt = some expiresAt ∧
      expiresAt ≤ (run (checkStep W cfg limit) (Machine.idle (State.initial now)) as).store.nowMs + limit.windowMs
  admitted : ∀ key p o o' (bs : List Check),
    (∀ p, (run (checkStep W cfg limit) (Machine.idle (State.initial now)) as).procs p = none) →
    (∀ p, .start p key ∉ bs) →
    (run (checkStep W cfg limit) (Machine.idle (State.initial now)) as).store.nowMs + limit.windowMs
      ≤ (run (checkStep W cfg limit) (Machine.idle (State.initial now)) (as ++ bs)).store.nowMs →
    (run (checkStep W cfg limit) (Machine.idle (State.initial now)) (as ++ bs)).procs p = none →
    1 ≤ limit.maxRequests →
    passes W cfg ("tts:rl:" ++ key)
      ⟨run (checkStep W cfg limit) (Machine.idle (State.initial now)) (as ++ bs ++ [.start p key, .answer p o]),
        .answer p o',
        run (checkStep W cfg limit) (Machine.idle (State.initial now))
          (as ++ bs ++ [.start p key, .answer p o, .answer p o'])⟩ = true

end Calls

/-! ## §2. The stages of a call. -/

/-- A call has not counted yet, or has opened a window and is to set its
expiry, or has passed, or not. -/
inductive Visit where
  | arriving
  | opening (key : String)
  | passed (key : String)
  | refused

namespace Visit

variable (limit : RateLimitConfig)

/-- Whether a count is within the limit. -/
def judged (key : String) (count : Nat) : Visit := if (count : Int) ≤ limit.maxRequests then .passed key else .refused

def next (φ : Visit) : (q : Command) → Except TtsError (Reply q) → Visit
  | .incr key, .ok count => if count = (1 : Nat) then .opening key else judged limit key count
  | .pexpire key _, .ok () => judged limit key 1
  | .incr _, .error _ | .pexpire .., .error _ => .refused
  | _, _ => φ

def permits (φ : Visit) : Command → Prop
  | .incr _ => φ = .arriving
  | .pexpire key windowMs => φ = .opening key ∧ windowMs = limit.windowMs
  | _ => False

/-- A call ends when its window has an expiry, and passes if it returns. -/
def Ended (φ : Visit) (res : Except TtsError Unit) : Prop :=
  (∀ key, φ ≠ .opening key) ∧ (res = .ok () → ∃ key, φ = .passed key)

end Visit

def visitMonitor (limit : RateLimitConfig) : Monitor Reply TtsError Visit :=
  ⟨.arriving, Visit.next limit, Visit.permits limit⟩

section Visits

variable {limit : RateLimitConfig}

theorem Visit.judged_ne_opening (key key' : String) (count : Nat) : Visit.judged limit key count ≠ .opening key' := by
  unfold Visit.judged
  split <;> simp

/-- What a call asks, and where it stands. -/
theorem Visit.permits_cases {φ : Visit} {q : Command} (h : φ.permits limit q) :
    (∃ key, q = .incr key ∧ φ = .arriving) ∨ ∃ key, q = .pexpire key limit.windowMs ∧ φ = .opening key := by
  cases q with
  | incr key => exact .inl ⟨key, rfl, h⟩
  | pexpire key windowMs =>
      obtain ⟨hopening, rfl⟩ := h
      exact .inr ⟨key, rfl, hopening⟩
  | checkRate key windowMs | createJob spec | setJob ref | setProcessing ref | localCacheGet key
  | localCacheSet key buffer | sharedCacheGet key | sharedCacheSet key buffer ttlMs | callProvider provider text voice
  | mkdir path | writeFile path buffer | setDone ref path | failJob id message | lookupJob id | resolve id path => cases h

/-- **Every call keeps to its stages.** -/
theorem obeys_admission (p : Nat) (key : String) :
    (visitMonitor limit).Obeys Visit.Ended (visitMonitor limit).start (admission limit p key) := by
  have hcompare : ∀ count : Nat, (visitMonitor limit).Triple (· = Visit.judged limit ("tts:rl:" ++ key) count)
      (if (count : Int) > limit.maxRequests then .fail (rateLimitError key count limit) else pure () : TtsM Unit)
      (fun φ _ => ∃ key, φ = .passed key) (fun φ => ∀ key, φ ≠ .opening key) := by
    intro count
    split
    · refine triple_fail ?_
      rintro φ rfl key'
      exact Visit.judged_ne_opening _ _ _
    · rename_i hle
      refine triple_pure ?_
      rintro φ rfl
      exact ⟨"tts:rl:" ++ key, if_pos (not_lt.mp hle)⟩
  have hcheck : (visitMonitor limit).Triple (· = .arriving) (checkSharedRate limit key)
      (fun φ _ => ∃ key, φ = .passed key) (fun φ => ∀ key, φ ≠ .opening key) := by
    refine triple_bind (B := fun φ count => φ = Visit.judged limit ("tts:rl:" ++ key) count) ?_ hcompare
    refine triple_bind (B := fun φ count => φ = Visit.next limit .arriving (.incr ("tts:rl:" ++ key)) (.ok count))
      (triple_call (fun φ hφ => hφ) ?_ ?_) fun count => ?_
    · rintro φ count rfl
      rfl
    · rintro φ e rfl key'
      exact nofun
    · by_cases hcount : count = (1 : Nat)
      · subst hcount
        refine triple_bind (B := fun φ _ => φ = Visit.judged limit ("tts:rl:" ++ key) 1)
          (triple_call (fun φ hφ => ⟨hφ, rfl⟩) (fun _ _ _ => rfl) ?_) fun _ => triple_pure fun _ hφ => hφ
        rintro φ e rfl key'
        exact nofun
      · simp only [if_neg hcount]
        refine triple_pure fun φ hφ => ?_
        rw [hφ]
        exact if_neg hcount
  refine (hcheck .arriving rfl).mono fun φ res hres => ?_
  cases res with
  | error e => exact ⟨hres, nofun⟩
  | ok u =>
      obtain ⟨key', rfl⟩ := hres
      exact ⟨nofun, fun _ => ⟨key', rfl⟩⟩

end Visits

/-! ## §3. Counters. -/

section Counters

variable {s : State} {key key' : String} {c : Counter}

/-- A counter that never expires is there. -/
theorem counter_of_lookup (h : s.redis.counters.lookup key = some c) (hc : c.expiresAt = none) : s.counter key = some c := by
  unfold State.counter
  rw [h]
  simp [Option.filter, hc]

theorem lookup_of_counter (h : s.counter key = some c) : s.redis.counters.lookup key = some c :=
  (Option.filter_eq_some_iff.mp h).1

/-- What is found after a counter is set. -/
theorem lookup_setCounter (s : State) (key key' : String) (c : Counter) :
    (s.setCounter key c).redis.counters.lookup key' = if key' = key then some c else s.redis.counters.lookup key' :=
  Store.lookup_insert_eq _ _ _ _

theorem counter_setCounter_of_ne (hne : key' ≠ key) (c : Counter) : (s.setCounter key c).counter key' = s.counter key' := by
  unfold State.counter
  rw [lookup_setCounter, if_neg hne]
  rfl

theorem eq_of_counter_setCounter {c' : Counter} (h : (s.setCounter key c).counter key = some c') : c' = c := by
  have hlookup := lookup_of_counter h
  rw [lookup_setCounter, if_pos rfl] at hlookup
  exact (Option.some.inj hlookup).symm

end Counters

/-! ## §4. What every run keeps. -/

/-- The books of the counters: `passed` calls have passed in their windows.  A
call that is about to set an expiry has one place left for itself. -/
structure Books (limit : RateLimitConfig) (passed : String → Nat) (visits : Nat → Visit) (s : State) : Prop where
  positive : ∀ key c, s.redis.counters.lookup key = some c → 1 ≤ c.value
  opening : ∀ p key, visits p = .opening key → ∃ c, s.redis.counters.lookup key = some c ∧ c.expiresAt = none
    ∧ passed key + 1 ≤ c.value ∧ (1 ≤ limit.maxRequests → (passed key : Int) + 1 ≤ limit.maxRequests)
  single : ∀ p p' key, visits p = .opening key → visits p' = .opening key → p = p'
  counted : ∀ key c, s.counter key = some c → passed key ≤ c.value
  limited : ∀ key, (passed key : Int) ≤ max 0 limit.maxRequests

/-- A counter has an expiry within the window, or a call is about to set it. -/
def Bounded (limit : RateLimitConfig) (visits : Nat → Visit) (s : State) : Prop :=
  ∀ key c, s.counter key = some c → (∃ p, visits p = .opening key)
    ∨ ∃ expiresAt, c.expiresAt = some expiresAt ∧ expiresAt ≤ s.nowMs + limit.windowMs

section Keeping

variable {limit : RateLimitConfig} {passed : String → Nat} {visits : Nat → Visit} {s s' : State} {key : String}
  {c : Counter} {p : Nat} {φ : Visit} {n : Nat}

/-- A call goes on, and opens nothing. -/
theorem Books.leave (h : Books limit passed visits s) (hφ : ∀ key, φ ≠ .opening key) :
    Books limit passed (Function.update visits p φ) s := by
  have hold : ∀ p' key, Function.update visits p φ p' = .opening key → visits p' = .opening key := by
    intro p' key hp'
    rw [Function.update_apply] at hp'
    split at hp'
    · exact absurd hp' (hφ key)
    · exact hp'
  exact ⟨h.positive, fun p' key hp' => h.opening p' key (hold p' key hp'), fun p₁ p₂ key h₁ h₂ =>
    h.single p₁ p₂ key (hold p₁ key h₁) (hold p₂ key h₂), h.counted, h.limited⟩

/-- **A counter is set** by a call, which then has passed or not. -/
theorem Books.set (h : Books limit passed visits s) (hpositive : 1 ≤ c.value) (hcounted : n ≤ c.value)
    (hlimited : (n : Int) ≤ max 0 limit.maxRequests) (hother : ∀ key', φ = .opening key' → key' = key)
    (hopening : ∀ p', Function.update visits p φ p' = .opening key → c.expiresAt = none ∧ n + 1 ≤ c.value
      ∧ (1 ≤ limit.maxRequests → (n : Int) + 1 ≤ limit.maxRequests))
    (hsingle : ∀ p' p'', Function.update visits p φ p' = .opening key → Function.update visits p φ p'' = .opening key →
      p' = p'') :
    Books limit (Function.update passed key n) (Function.update visits p φ) (s.setCounter key c) := by
  have hold : ∀ p' key', key' ≠ key → Function.update visits p φ p' = .opening key' → visits p' = .opening key' := by
    intro p' key' hne hp'
    rw [Function.update_apply] at hp'
    split at hp'
    · exact absurd (hother key' hp') hne
    · exact hp'
  refine ⟨fun key' c' hc' => ?_, fun p' key' hp' => ?_, fun p₁ p₂ key' h₁ h₂ => ?_, fun key' c' hc' => ?_, fun key' => ?_⟩
  · rw [lookup_setCounter] at hc'
    split at hc'
    · cases hc'
      exact hpositive
    · exact h.positive key' c' hc'
  · by_cases hkey : key' = key
    · subst hkey
      obtain ⟨hexpiry, hvalue, hroom⟩ := hopening p' hp'
      rw [Function.update_self]
      exact ⟨c, by rw [lookup_setCounter, if_pos rfl], hexpiry, hvalue, hroom⟩
    · rw [Function.update_of_ne hkey, lookup_setCounter, if_neg hkey]
      exact h.opening p' key' (hold p' key' hkey hp')
  · by_cases hkey : key' = key
    · subst hkey
      exact hsingle p₁ p₂ h₁ h₂
    · exact h.single p₁ p₂ key' (hold p₁ key' hkey h₁) (hold p₂ key' hkey h₂)
  · by_cases hkey : key' = key
    · subst hkey
      rw [Function.update_self, eq_of_counter_setCounter hc']
      exact hcounted
    · rw [Function.update_of_ne hkey]
      exact h.counted key' c' (counter_setCounter_of_ne hkey c ▸ hc')
  · by_cases hkey : key' = key
    · subst hkey
      rw [Function.update_self]
      exact hlimited
    · rw [Function.update_of_ne hkey]
      exact h.limited key'

/-- Nobody is about to set the expiry of a counter that is not there. -/
theorem Books.not_opening (h : Books limit passed visits s) (hnone : s.counter key = none) : visits p ≠ .opening key := by
  intro hp
  obtain ⟨c, hlookup, hexpiry, -⟩ := h.opening p key hp
  rw [counter_of_lookup hlookup hexpiry] at hnone
  cases hnone

/-- **A counter is created**, by a call that is to set its expiry, or was lost. -/
theorem Books.create (h : Books limit passed visits s) (hnone : s.counter key = none)
    (hφ : ∀ key', φ = .opening key' → key' = key) :
    Books limit (Function.update passed key 0) (Function.update visits p φ) (s.setCounter key ⟨1, none⟩) := by
  refine h.set le_rfl (Nat.zero_le _) (by omega) hφ (fun p' _ => ⟨rfl, le_rfl, fun h1 => by omega⟩) fun p' p'' hp' hp'' => ?_
  have hself : ∀ q, Function.update visits p φ q = .opening key → q = p := by
    intro q hq
    by_contra hne
    rw [Function.update_of_ne hne] at hq
    exact h.not_opening hnone hq
  rw [hself p' hp', hself p'' hp'']

/-- **A counter is raised**: a call passes when the count is within the limit. -/
theorem Books.raise (h : Books limit passed visits s) (hc : s.counter key = some c) (hφ : ∀ key, φ ≠ .opening key)
    {b : Bool} (hb : b = true → ((c.value + 1 : Nat) : Int) ≤ limit.maxRequests) :
    Books limit (Function.update passed key (passed key + if b then 1 else 0)) (Function.update visits p φ)
      (s.setCounter key { c with value := c.value + 1 }) := by
  have hlookup := lookup_of_counter hc
  have hcounted := h.counted key c hc
  have hlimited := h.limited key
  have hold : ∀ p', Function.update visits p φ p' = .opening key → visits p' = .opening key := by
    intro p' hp'
    rw [Function.update_apply] at hp'
    split at hp'
    · exact absurd hp' (hφ key)
    · exact hp'
  refine h.set (Nat.succ_pos _) ?_ ?_ (fun key' hkey' => absurd hkey' (hφ key')) (fun p' hp' => ?_)
    fun p' p'' hp' hp'' => h.single p' p'' key (hold p' hp') (hold p'' hp'')
  · show passed key + _ ≤ c.value + 1
    split <;> omega
  · cases b with
    | false => simpa using hlimited
    | true =>
        have hle := hb rfl
        simp only [if_true]
        omega
  · obtain ⟨c', hlookup', hexpiry, hvalue, hroom⟩ := h.opening p' key (hold p' hp')
    obtain rfl := Option.some.inj (hlookup.symm.trans hlookup')
    refine ⟨hexpiry, ?_, fun h1 => ?_⟩
    · show passed key + _ + 1 ≤ c.value + 1
      split <;> omega
    · cases b with
      | false => simpa using hroom h1
      | true =>
          have hle := hb rfl
          simp only [if_true]
          omega

/-- **A counter gets its expiry**: the call that opened the window passes, if the limit lets anybody. -/
theorem Books.expire (h : Books limit passed visits s) (hp : visits p = .opening key)
    (hlookup : s.redis.counters.lookup key = some c) (hφ : ∀ key, φ ≠ .opening key) (expiresAt : Int) {b : Bool}
    (hb : b = true → 1 ≤ limit.maxRequests) :
    Books limit (Function.update passed key (passed key + if b then 1 else 0)) (Function.update visits p φ)
      (s.setCounter key { c with expiresAt := some expiresAt }) := by
  obtain ⟨c', hlookup', -, hvalue, hroom⟩ := h.opening p key hp
  obtain rfl := Option.some.inj (hlookup.symm.trans hlookup')
  have hnobody : ∀ p', Function.update visits p φ p' ≠ .opening key := by
    intro p' hp'
    rw [Function.update_apply] at hp'
    split at hp'
    · exact hφ key hp'
    · rename_i hne
      exact hne (h.single p' p key hp' hp)
  have hlimited := h.limited key
  refine h.set (h.positive key c hlookup) ?_ ?_ (fun key' hkey' => absurd hkey' (hφ key'))
    (fun p' hp' => absurd hp' (hnobody p')) fun p' _ hp' => absurd hp' (hnobody p')
  · show passed key + _ ≤ c.value
    split <;> omega
  · cases b with
    | false => simpa using hlimited
    | true =>
        have h1 := hroom (hb rfl)
        simp only [if_true]
        omega

theorem Bounded.leave (h : Bounded limit visits s) (hp : ∀ key, visits p ≠ .opening key) :
    Bounded limit (Function.update visits p φ) s := by
  intro key c hc
  refine (h key c hc).imp_left fun ⟨p', hp'⟩ => ⟨p', ?_⟩
  rw [Function.update_of_ne]
  · exact hp'
  · rintro rfl
    exact hp key hp'

/-- The same where a counter is set. -/
theorem Bounded.set (h : Bounded limit visits s) (hp : ∀ key', visits p = .opening key' → key' = key)
    (hc : (∃ p', Function.update visits p φ p' = .opening key)
      ∨ ∃ expiresAt, c.expiresAt = some expiresAt ∧ expiresAt ≤ s.nowMs + limit.windowMs) :
    Bounded limit (Function.update visits p φ) (s.setCounter key c) := by
  intro key' c' hc'
  by_cases hkey : key' = key
  · subst hkey
    rw [eq_of_counter_setCounter hc']
    exact hc
  · rw [counter_setCounter_of_ne hkey] at hc'
    refine (h key' c' hc').imp_left fun ⟨p', hp'⟩ => ⟨p', ?_⟩
    rw [Function.update_of_ne]
    · exact hp'
    · rintro rfl
      exact hkey (hp key' hp')

end Keeping

/-! ## §5. One step. -/

section Steps

variable {W : Setting} {cfg : TTSConfig} {limit : RateLimitConfig} {passed : String → Nat} {m : System} {a : Check}
  {p : Nat} {l : Live Reply TtsError} {s' : State} {r : Except TtsError (Reply l.question)} {key : String}

/-- An increment is always carried out. -/
theorem exec_incr (W : Setting) (cfg : TTSConfig) (o : Choice) (s : State) (key : String) :
    ∃ count, exec W cfg o s (.incr key) = some (count, s.setCounter key
      ((s.counter key).elim ⟨1, none⟩ fun c => { c with value := c.value + 1 }))
        ∧ count = (s.counter key).elim 1 fun c => c.value + 1 := by
  simp only [exec]
  cases s.counter key with
  | none => exact ⟨1, rfl, rfl⟩
  | some c => exact ⟨c.value + 1, rfl, rfl⟩

/-- Steps that answer nothing count nothing. -/
theorem passedAfter_of_unserved {m' : System} (h : ∀ p l, a.asker = some p → m.procs p = some l →
      Machine.reply (server W cfg) m.store a l.question = none) (n : Nat) : passedAfter W cfg key n ⟨m, a, m'⟩ = n := by
  have hpasses : passes W cfg key ⟨m, a, m'⟩ = false := by
    unfold passes
    split
    · rename_i l hl
      obtain ⟨p, ha, hl⟩ := Option.bind_eq_some_iff.mp hl
      simp only [h p l ha hl, Bool.and_false]
    · rfl
  have hperforms : m.performs a ≠ some (.incr key) := by
    intro hq
    cases a with
    | answer p o =>
        obtain ⟨l, hl, hincr⟩ := Option.map_eq_some_iff.mp hq
        have hreply := h p l rfl hl
        rw [hincr] at hreply
        obtain ⟨count, hexec, -⟩ := exec_incr W cfg o m.store key
        simp [Machine.reply, server, hexec] at hreply
    | lose p o e =>
        obtain ⟨l, hl, hincr⟩ := Option.map_eq_some_iff.mp hq
        have hreply := h p l rfl hl
        rw [hincr] at hreply
        obtain ⟨count, hexec, -⟩ := exec_incr W cfg o m.store key
        simp [Machine.reply, server, Command.isAwait, hexec] at hreply
    | start p task | refuse p e | crash p | outside w => cases hq
  have hcreates : creates key ⟨m, a, m'⟩ = false := by simp [creates, hperforms]
  simp [passedAfter, hpasses, hcreates]

/-- An answer counts under the key that it is about. -/
theorem passedAfter_of_served {m' : System} (ha : a.asker = some p) (hl : m.procs p = some l)
    (hr : Machine.reply (server W cfg) m.store a l.question = some (s', r)) (hkey : l.question.counter = some key) :
    (fun key' => passedAfter W cfg key' (passed key') ⟨m, a, m'⟩)
      = Function.update passed key ((if creates key ⟨m, a, m'⟩ then 0 else passed key)
        + if hasReturned (l.rest r) then 1 else 0) := by
  have hpasses : ∀ key', passes W cfg key' ⟨m, a, m'⟩ = (decide (key = key') && hasReturned (l.rest r)) := by
    intro key'
    simp [passes, ha, hl, hr, hkey]
  funext key'
  by_cases hkeys : key' = key
  · subst hkeys
    rw [Function.update_self]
    simp [passedAfter, hpasses]
  · rw [Function.update_of_ne hkeys]
    have hperforms : m.performs a ≠ some (.incr key') := by
      intro hq
      have hquestion : l.question = .incr key' := by
        cases a with
        | answer p' o | lose p' o e =>
            cases ha
            have hmap : (m.procs p).map (·.question) = some (.incr key') := hq
            rw [hl] at hmap
            exact Option.some.inj hmap
        | start p' task | refuse p' e | crash p' | outside w => cases hq
      rw [hquestion] at hkey
      exact hkeys (Option.some.inj hkey)
    simp [passedAfter, hpasses, creates, hperforms, Ne.symm hkeys]

/-- A call that stands at its increment. -/
theorem answer_incr {visits : Nat → Visit} {φ : Visit} {m' : System} {q : Command}
    {rest : Except TtsError (Reply q) → TtsM Unit} {heard : List (Exchange Reply TtsError)} {r : Except TtsError (Reply q)}
    (h : Books limit passed visits m.store) (hq : q = .incr key) (ha : a.asker = some p)
    (hl : m.procs p = some ⟨q, rest, heard⟩) (hr : Machine.reply (server W cfg) m.store a q = some (s', r))
    (hp : visits p = .arriving) (hφ : ∀ key, φ = .opening key ↔ (visits p).next limit q r = .opening key)
    (hreturned : hasReturned (rest r) = true → ∃ key, (visits p).next limit q r = .passed key) :
    Books limit (fun key => passedAfter W cfg key (passed key) ⟨m, a, m'⟩) (Function.update visits p φ) s'
      ∧ (ExpiryKept ⟨m, a, m'⟩ → Bounded limit visits m.store → Bounded limit (Function.update visits p φ) s') := by
  subst hq
  rw [passedAfter_of_served (l := ⟨.incr key, rest, heard⟩) ha hl hr rfl]
  have hnowhere : ∀ key, visits p ≠ .opening key := by
    intro key' hkey'
    cases hp.symm.trans hkey'
  have hrefused : ∀ e, r = .error e → (∀ key, φ ≠ .opening key) ∧ hasReturned (rest r) = false := by
    rintro e rfl
    refine ⟨fun key' hkey' => ?_, ?_⟩
    · cases (hφ key').mp hkey'
    · by_contra htrue
      obtain ⟨key', hkey'⟩ := hreturned (Bool.not_eq_false _ ▸ htrue)
      cases hkey'
  rcases Machine.reply_cases (server W cfg) ha hr with ⟨o, v, rfl, rfl, hexec⟩ | ⟨e, rfl, rfl, rfl⟩
    | ⟨o, e, v, rfl, rfl, hexec⟩
  · obtain ⟨count, hexec', hcount⟩ := exec_incr W cfg o m.store key
    cases hexec.symm.trans hexec'
    have hperforms : m.performs (.answer p o : Check) = some (.incr key) := by simp [Machine.performs, hl]
    cases hc : m.store.counter key with
    | none =>
        rw [hc] at hcount
        have hnext : (visits p).next limit (.incr key) (.ok v) = .opening key := by
          rw [hp, hcount]
          rfl
        have hopened : φ = .opening key := (hφ key).mpr hnext
        have hpending : hasReturned (rest (.ok v)) = false := by
          by_contra htrue
          obtain ⟨key', hkey'⟩ := hreturned (Bool.not_eq_false _ ▸ htrue)
          cases hnext.symm.trans hkey'
        have hcreated : creates key ⟨m, .answer p o, m'⟩ = true := by simp [creates, hperforms, hc]
        simp only [hpending, hcreated, if_true, Bool.false_eq_true, if_false, Nat.add_zero]
        refine ⟨h.create hc fun key' hkey' => ?_, fun _ hbounded => hbounded.set (fun key' hkey' =>
          absurd hkey' (hnowhere key')) (.inl ⟨p, by rw [Function.update_self, hopened]⟩)⟩
        rw [hopened] at hkey'
        cases hkey'
        rfl
    | some c =>
        rw [hc] at hcount
        have hcount : v = c.value + 1 := hcount
        have hpositive := h.positive key c (lookup_of_counter hc)
        have hnext : (visits p).next limit (.incr key) (.ok v) = Visit.judged limit key v := by
          have hne : c.value + 1 ≠ 1 := by omega
          rw [hp, hcount]
          exact if_neg hne
        have hopened : ∀ key', φ ≠ .opening key' := fun key' hkey' =>
          Visit.judged_ne_opening key key' v (hnext.symm.trans ((hφ key').mp hkey'))
        have hcreated : creates key ⟨m, .answer p o, m'⟩ = false := by simp [creates, hc]
        simp only [hcreated, Bool.false_eq_true, if_false]
        refine ⟨h.raise hc hopened fun hb => ?_, fun _ hbounded => hbounded.set (fun key' hkey' =>
          absurd hkey' (hnowhere key')) ?_⟩
        · obtain ⟨key', hkey'⟩ := hreturned hb
          have hpassed := hnext.symm.trans hkey'
          unfold Visit.judged at hpassed
          split at hpassed
          · rename_i hle
            rwa [hcount] at hle
          · cases hpassed
        · refine (hbounded key c hc).imp_left fun hopen => hopen.imp fun p' hp' => ?_
          rw [Function.update_of_ne]
          · exact hp'
          · rintro rfl
            exact hnowhere key hp'
  · obtain ⟨hopened, hpending⟩ := hrefused e rfl
    have hcreated : creates key ⟨m, .refuse p e, m'⟩ = false := by simp [creates, Machine.performs]
    simp only [hpending, hcreated, Bool.false_eq_true, if_false, Nat.add_zero, Function.update_eq_self]
    exact ⟨h.leave hopened, fun _ hbounded => hbounded.leave hnowhere⟩
  · obtain ⟨hopened, hpending⟩ := hrefused e rfl
    obtain ⟨count, hexec', -⟩ := exec_incr W cfg o m.store key
    cases hexec.symm.trans hexec'
    have hperforms : m.performs (.lose p o e : Check) = some (.incr key) := by simp [Machine.performs, hl]
    cases hc : m.store.counter key with
    | none =>
        have hcreated : creates key ⟨m, .lose p o e, m'⟩ = true := by simp [creates, hperforms, hc]
        simp only [hpending, hcreated, if_true, Bool.false_eq_true, if_false, Nat.add_zero]
        exact ⟨h.create hc fun key' hkey' => absurd hkey' (hopened key'), fun hkept =>
          absurd hc ((hkept p _ hl).1 o e key rfl rfl)⟩
    | some c =>
        have hcreated : creates key ⟨m, .lose p o e, m'⟩ = false := by simp [creates, hc]
        simp only [hpending, hcreated, Bool.false_eq_true, if_false]
        refine ⟨h.raise (b := false) hc hopened (fun hpass => by cases hpass), fun _ hbounded => hbounded.set
          (fun key' hkey' => absurd hkey' (hnowhere key')) ?_⟩
        refine (hbounded key c hc).imp_left fun hopen => hopen.imp fun p' hp' => ?_
        rw [Function.update_of_ne]
        · exact hp'
        · rintro rfl
          exact hnowhere key hp'

/-- A call that stands at its PEXPIRE. -/
theorem answer_pexpire {visits : Nat → Visit} {φ : Visit} {m' : System} {q : Command}
    {rest : Except TtsError (Reply q) → TtsM Unit} {heard : List (Exchange Reply TtsError)} {r : Except TtsError (Reply q)}
    (h : Books limit passed visits m.store) (hq : q = .pexpire key limit.windowMs) (ha : a.asker = some p)
    (hl : m.procs p = some ⟨q, rest, heard⟩) (hr : Machine.reply (server W cfg) m.store a q = some (s', r))
    (hp : visits p = .opening key) (hφ : ∀ key, φ = .opening key ↔ (visits p).next limit q r = .opening key)
    (hreturned : hasReturned (rest r) = true → ∃ key, (visits p).next limit q r = .passed key) :
    Books limit (fun key => passedAfter W cfg key (passed key) ⟨m, a, m'⟩) (Function.update visits p φ) s'
      ∧ (ExpiryKept ⟨m, a, m'⟩ → Bounded limit visits m.store → Bounded limit (Function.update visits p φ) s') := by
  subst hq
  rw [passedAfter_of_served (l := ⟨.pexpire key limit.windowMs, rest, heard⟩) ha hl hr rfl]
  obtain ⟨c, hlookup, hexpiry, -⟩ := h.opening p key hp
  have hc := counter_of_lookup hlookup hexpiry
  have hcreated : creates key ⟨m, a, m'⟩ = false := by simp [creates, hc]
  have hmine : ∀ key', visits p = .opening key' → key' = key := by
    intro key' hkey'
    cases hp.symm.trans hkey'
    rfl
  have hopened : ∀ key', φ ≠ .opening key' := by
    intro key' hkey'
    have hnext := (hφ key').mp hkey'
    cases r with
    | error e => cases hnext
    | ok u => exact Visit.judged_ne_opening key key' 1 hnext
  have hset : ∀ o v, exec W cfg o m.store (.pexpire key limit.windowMs) = some (v, s') →
      s' = m.store.setCounter key { c with expiresAt := some (m.store.nowMs + limit.windowMs) } := by
    intro o v hexec
    simp only [exec, hc] at hexec
    cases hexec
    rfl
  have hbound : ∀ o v, exec W cfg o m.store (.pexpire key limit.windowMs) = some (v, s') → Bounded limit visits m.store →
      Bounded limit (Function.update visits p φ) s' := by
    intro o v hexec hbounded
    rw [hset o v hexec]
    exact hbounded.set hmine (.inr ⟨_, rfl, le_rfl⟩)
  simp only [hcreated, Bool.false_eq_true, if_false]
  have hrefused : ∀ e, r = .error e → hasReturned (rest r) = false := by
    rintro e rfl
    by_contra htrue
    obtain ⟨key', hkey'⟩ := hreturned (Bool.not_eq_false _ ▸ htrue)
    cases hkey'
  rcases Machine.reply_cases (server W cfg) ha hr with ⟨o, v, rfl, rfl, hexec⟩ | ⟨e, rfl, rfl, rfl⟩
    | ⟨o, e, v, rfl, rfl, hexec⟩
  · refine ⟨?_, fun _ => hbound o v hexec⟩
    rw [hset o v hexec]
    refine h.expire hp hlookup hopened _ fun hb => ?_
    obtain ⟨key', hkey'⟩ := hreturned hb
    have hpassed : Visit.judged limit key 1 = .passed key' := hkey'
    unfold Visit.judged at hpassed
    split at hpassed
    · rename_i hle
      exact hle
    · cases hpassed
  · rw [hrefused e rfl]
    simp only [Bool.false_eq_true, if_false, Nat.add_zero, Function.update_eq_self]
    exact ⟨h.leave hopened, fun hkept => absurd rfl (((hkept p _ hl).2 key limit.windowMs rfl).1 e)⟩
  · refine ⟨?_, fun _ => hbound o v hexec⟩
    rw [hrefused e rfl, hset o v hexec]
    exact h.expire hp hlookup hopened _ nofun

/-- **One step.** -/
theorem Books.step (h : Books limit passed (m.phase (visitMonitor limit)) m.store)
    (hm : Machine.MonitoredTo (visitMonitor limit) Visit.Ended m) (m' : System)
    (hm' : m' = checkStep W cfg limit m a) :
    Books limit (fun key => passedAfter W cfg key (passed key) ⟨m, a, m'⟩) (m'.phase (visitMonitor limit)) m'.store
      ∧ (ExpiryKept ⟨m, a, m'⟩ → Bounded limit (m.phase (visitMonitor limit)) m.store →
        Bounded limit (m'.phase (visitMonitor limit)) m'.store) := by
  have hquiet : a.asker = none → (fun key => passedAfter W cfg key (passed key) ⟨m, a, m'⟩) = passed := fun ha =>
    funext fun key => passedAfter_of_unserved (fun p l ha' => by rw [ha] at ha'; cases ha') _
  rcases m.step_cases (server W cfg) (admission limit) (outside cfg) a with hstep | ⟨p, key, rfl, hp, hstep⟩
    | ⟨p, l, s', r, ha, hl, hr, hstep⟩ | ⟨p, rfl, hstep⟩ | ⟨w, rfl, hstep⟩
  · have hsame : (fun key => passedAfter W cfg key (passed key) ⟨m, a, m'⟩) = passed := funext fun key =>
      passedAfter_of_unserved (fun p l ha hl => Machine.reply_eq_none_of_step (server W cfg) (admission limit) (outside cfg)
        hstep ha hl) _
    rw [hsame, hm'.trans hstep]
    exact ⟨h, fun _ hbounded => hbounded⟩
  · rw [hquiet rfl, hm'.trans hstep, Machine.phase_launch (visitMonitor limit) hp]
    exact ⟨h, fun _ hbounded => hbounded⟩
  · obtain ⟨q, rest, heard⟩ := l
    obtain ⟨hallows, hrest⟩ := hm p _ hl
    have hended : (visitMonitor limit).Obeys Visit.Ended ((m.phase (visitMonitor limit) p).next limit q r) (rest r) :=
      hrest r
    rw [hm'.trans hstep, Machine.phase_deliver (visitMonitor limit) hl]
    -- a call that is over has opened nothing
    have hφ : ∀ key, Machine.phaseOf (visitMonitor limit) (rest r)
          ((visitMonitor limit).next (m.phase (visitMonitor limit) p) q r) = .opening key
        ↔ (m.phase (visitMonitor limit) p).next limit q r = .opening key := by
      intro key
      cases hres : rest r with
      | ask q' k => exact Iff.rfl
      | done res =>
          rw [hres] at hended
          exact ⟨nofun, fun hopening => absurd hopening (hended.1 key)⟩
    have hreturned : hasReturned (rest r) = true → ∃ key, (m.phase (visitMonitor limit) p).next limit q r = .passed key := by
      intro hdone
      cases hres : rest r with
      | ask q' k =>
          rw [hres] at hdone
          cases hdone
      | done res =>
          rw [hres] at hdone hended
          cases res with
          | error e => cases hdone
          | ok u => exact hended.2 rfl
    have hpermits : (m.phase (visitMonitor limit) p).permits limit q := hallows
    rcases Visit.permits_cases hpermits with ⟨key, hq, harriving⟩ | ⟨key, hq, hopening⟩
    · exact answer_incr h hq ha hl hr harriving hφ hreturned
    · exact answer_pexpire h hq ha hl hr hopening hφ hreturned
  · rw [hquiet rfl, hm'.trans hstep, Machine.phase_halt]
    refine ⟨h.leave nofun, fun hkept hbounded => hbounded.leave fun key hopening => ?_⟩
    -- who has opened a window stands at its PEXPIRE
    cases hl : m.procs p with
    | none =>
        unfold Machine.phase at hopening
        rw [hl] at hopening
        cases hopening
    | some l =>
        have hallows : (m.phase (visitMonitor limit) p).permits limit l.question := (hm p l hl).1
        rcases Visit.permits_cases hallows with ⟨key', -, harriving⟩ | ⟨key', hq, -⟩
        · cases hopening.symm.trans harriving
        · exact ((hkept p l hl).2 key' limit.windowMs hq).2 rfl
  · rw [hquiet rfl, hm'.trans hstep]
    cases w with
    | evictExpiredJobs => exact ⟨⟨h.positive, h.opening, h.single, h.counted, h.limited⟩, fun _ hbounded => hbounded⟩
    | tick ms =>
        have hstays : ∀ key c, State.counter { m.store with nowMs := m.store.nowMs + ms } key = some c →
            m.store.counter key = some c := by
          intro key c hc
          obtain ⟨hlookup, halive⟩ := Option.filter_eq_some_iff.mp hc
          refine Option.filter_eq_some_iff.mpr ⟨hlookup, ?_⟩
          cases hexpiry : c.expiresAt with
          | none => rfl
          | some expiresAt =>
              rw [hexpiry] at halive
              have hlt : m.store.nowMs + (ms : Int) < expiresAt := of_decide_eq_true halive
              exact decide_eq_true (by omega)
        refine ⟨⟨h.positive, h.opening, h.single, fun key c hc => h.counted key c (hstays key c hc), h.limited⟩,
          fun _ hbounded key c hc => (hbounded key c (hstays key c hc)).imp_right ?_⟩
        rintro ⟨expiresAt, hexpiry, hle⟩
        refine ⟨expiresAt, hexpiry, ?_⟩
        show expiresAt ≤ m.store.nowMs + (ms : Int) + limit.windowMs
        omega

/-! ## §6. Every run. -/

theorem monitoredTo_admission (now : Int) (as : List Check) : Machine.MonitoredTo (visitMonitor limit) Visit.Ended
    (run (checkStep W cfg limit) (Machine.idle (State.initial now)) as) :=
  Machine.monitoredTo_run obeys_admission (State.initial now) as

/-- **Every run**: no more calls pass in a window than the limit says. -/
theorem books_run (now : Int) (as : List Check) :
    Books limit (fun key => passedInWindow W cfg key (trace (checkStep W cfg limit) (Machine.idle (State.initial now)) as))
      ((run (checkStep W cfg limit) (Machine.idle (State.initial now)) as).phase (visitMonitor limit))
      (run (checkStep W cfg limit) (Machine.idle (State.initial now)) as).store := by
  induction as using List.reverseRecOn with
  | nil =>
      refine ⟨fun key c hc => ?_, fun p key hp => ?_, fun p p' key hp => ?_, fun key c hc => Nat.zero_le _, fun key => ?_⟩
      · cases hc
      · cases hp
      · cases hp
      · exact le_max_left 0 _
  | append_singleton as a ih =>
      rw [trace_concat, run_concat]
      have hnext : checkStep W cfg limit (run (checkStep W cfg limit) (Machine.idle (State.initial now)) as) a
          = checkStep W cfg limit (run (checkStep W cfg limit) (Machine.idle (State.initial now)) as) a := rfl
      have hnew := (ih.step (monitoredTo_admission now as) _ hnext).1
      unfold passedInWindow at hnew ⊢
      simp only [List.foldl_append]
      exact hnew

/-- **Every run in which nothing comes between a counter and its expiry.** -/
theorem bounded_run (now : Int) (as : List Check)
    (hkept : ∀ t ∈ trace (checkStep W cfg limit) (Machine.idle (State.initial now)) as, ExpiryKept t) :
    Bounded limit ((run (checkStep W cfg limit) (Machine.idle (State.initial now)) as).phase (visitMonitor limit))
      (run (checkStep W cfg limit) (Machine.idle (State.initial now)) as).store := by
  induction as using List.reverseRecOn with
  | nil => exact fun key c hc => by cases hc
  | append_singleton as a ih =>
      rw [trace_concat] at hkept
      rw [run_concat]
      exact ((books_run now as).step (monitoredTo_admission now as) _ rfl).2
        (hkept _ (List.mem_append_right _ List.mem_cons_self)) (ih fun t ht => hkept t (List.mem_append_left _ ht))

/-! ## §7. A client that was idle. -/

/-- Nobody asks about a counter, and it is as it was; time goes on. -/
structure Untouched (key : String) (s₀ : State) (m : System) : Prop where
  uses : ∀ p l, m.procs p = some l → (Prog.ask l.question l.rest).Uses fun q => q.counter ≠ some key
  lookup : m.store.redis.counters.lookup key = s₀.redis.counters.lookup key
  later : s₀.nowMs ≤ m.store.nowMs

theorem uses_admission {key' : String} (hne : key' ≠ key) (p : Nat) :
    (admission limit p key').Uses fun q => q.counter ≠ some ("tts:rl:" ++ key) := by
  have hother : some ("tts:rl:" ++ key') ≠ some ("tts:rl:" ++ key) := by
    intro heq
    refine hne (String.toList_inj.mp ?_)
    have hlist := congrArg String.toList (Option.some.inj heq)
    rw [String.toList_append, String.toList_append] at hlist
    exact List.append_cancel_left hlist
  refine Prog.Uses.bind (Prog.Uses.bind (Prog.uses_call.mpr hother) fun count => ?_) fun count => ?_
  · split
    · exact Prog.Uses.bind (Prog.uses_call.mpr hother) fun _ => Prog.uses_pure _
    · exact Prog.uses_pure _
  · split
    · exact Prog.uses_fail _
    · exact Prog.uses_pure _

/-- What a question about another counter leaves of this one. -/
theorem exec_of_counter_ne {o : Choice} {s s' : State} {q : Command} {v : Reply q} (hexec : exec W cfg o s q = some (v, s'))
    (hq : (∃ key, q = .incr key) ∨ ∃ key windowMs, q = .pexpire key windowMs) (hne : q.counter ≠ some key) :
    s'.redis.counters.lookup key = s.redis.counters.lookup key ∧ s'.nowMs = s.nowMs := by
  have hset : ∀ key' c, some key' ≠ some key →
      (s.setCounter key' c).redis.counters.lookup key = s.redis.counters.lookup key := by
    intro key' c hkey
    rw [lookup_setCounter]
    refine if_neg ?_
    rintro rfl
    exact hkey rfl
  rcases hq with ⟨key', rfl⟩ | ⟨key', windowMs, rfl⟩
  · simp only [exec] at hexec
    split at hexec <;> cases hexec <;> exact ⟨hset _ _ hne, rfl⟩
  · simp only [exec] at hexec
    split at hexec <;> cases hexec
    · exact ⟨hset _ _ hne, rfl⟩
    · exact ⟨rfl, rfl⟩

/-- **One step** of others. -/
theorem Untouched.step {s₀ : State} (h : Untouched ("tts:rl:" ++ key) s₀ m)
    (hm : Machine.MonitoredTo (visitMonitor limit) Visit.Ended m) (ha : ∀ p, a ≠ .start p key) :
    Untouched ("tts:rl:" ++ key) s₀ (checkStep W cfg limit m a) := by
  rcases m.step_cases (server W cfg) (admission limit) (outside cfg) a with hstep | ⟨p, key', rfl, hp, hstep⟩
    | ⟨p, l, s', r, hasker, hl, hr, hstep⟩ | ⟨p, rfl, hstep⟩ | ⟨w, rfl, hstep⟩
  · rw [show checkStep W cfg limit m a = m from hstep]
    exact h
  · rw [show checkStep W cfg limit m (.start p key') = m.launch p (admission limit p key') from hstep]
    have hne : key' ≠ key := by
      rintro rfl
      exact ha p rfl
    refine ⟨fun p' l hl => ?_, h.lookup, h.later⟩
    by_cases hpp : p' = p
    · subst hpp
      have huses : (admission limit p' key').Uses fun q => q.counter ≠ some ("tts:rl:" ++ key) := uses_admission hne p'
      have hof : Live.of (admission limit p' key') [] = some l := by simpa [Machine.launch] using hl
      cases hbody : admission limit p' key' with
      | done res =>
          rw [hbody] at hof
          cases hof
      | ask q k =>
          rw [hbody] at hof huses
          cases hof
          exact huses
    · exact h.uses p' l (by simpa [Machine.launch, hpp] using hl)
  · rw [show checkStep W cfg limit m a = m.deliver p l s' r from hstep]
    have huses := h.uses p l hl
    have hstore : s'.redis.counters.lookup ("tts:rl:" ++ key) = m.store.redis.counters.lookup ("tts:rl:" ++ key)
        ∧ s'.nowMs = m.store.nowMs := by
      have hq : (∃ key, l.question = .incr key) ∨ ∃ key windowMs, l.question = .pexpire key windowMs := by
        rcases Visit.permits_cases (hm p l hl).1 with ⟨key', hq, -⟩ | ⟨key', hq, -⟩
        · exact .inl ⟨key', hq⟩
        · exact .inr ⟨key', _, hq⟩
      rcases Machine.reply_cases (server W cfg) hasker hr with ⟨o, v, -, -, hexec⟩ | ⟨e, -, -, rfl⟩ | ⟨o, e, v, -, -, hexec⟩
      · exact exec_of_counter_ne hexec hq huses.1
      · exact ⟨rfl, rfl⟩
      · exact exec_of_counter_ne hexec hq huses.1
    refine ⟨fun p' l' hl' => ?_, hstore.1.trans h.lookup, ?_⟩
    · by_cases hpp : p' = p
      · subst hpp
        have hof : Live.of (l.rest r) (l.heard ++ [⟨l.question, r⟩]) = some l' := by simpa [Machine.deliver] using hl'
        have hrest := huses.2 r
        cases hnext : l.rest r with
        | done res =>
            rw [hnext] at hof
            cases hof
        | ask q k =>
            rw [hnext] at hof hrest
            cases hof
            exact hrest
      · exact h.uses p' l' (by simpa [Machine.deliver, hpp] using hl')
    · show s₀.nowMs ≤ s'.nowMs
      rw [hstore.2]
      exact h.later
  · rw [show checkStep W cfg limit m (.crash p) = m.halt p from hstep]
    refine ⟨fun p' l hl => ?_, h.lookup, h.later⟩
    by_cases hpp : p' = p
    · subst hpp
      simp [Machine.halt] at hl
    · exact h.uses p' l (by simpa [Machine.halt, hpp] using hl)
  · rw [show checkStep W cfg limit m (.outside w) = { m with store := outside cfg w m.store } from hstep]
    cases w with
    | evictExpiredJobs => exact ⟨h.uses, h.lookup, h.later⟩
    | tick ms =>
        refine ⟨h.uses, h.lookup, ?_⟩
        have hlater := h.later
        show s₀.nowMs ≤ m.store.nowMs + (ms : Int)
        omega

theorem untouched_run {m : System} (hm : Machine.MonitoredTo (visitMonitor limit) Visit.Ended m)
    (hidle : ∀ p, m.procs p = none) (bs : List Check) (hbs : ∀ p, .start p key ∉ bs) :
    Untouched ("tts:rl:" ++ key) m.store (run (checkStep W cfg limit) m bs) := by
  refine (run_invariant_of (checkStep W cfg limit)
    (fun m' => Machine.MonitoredTo (visitMonitor limit) Visit.Ended m' ∧ Untouched ("tts:rl:" ++ key) m.store m')
    (fun t => ∀ p, t.act ≠ .start p key) ⟨hm, fun p l hl => ?_, rfl, le_rfl⟩ ?_ bs ?_).2
  · rw [hidle p] at hl
    cases hl
  · rintro m' a ⟨hm', h⟩ ha
    exact ⟨hm'.step obeys_admission a, h.step hm' ha⟩
  · intro t ht p hact
    exact hbs p (hact ▸ act_mem_of_mem_trace _ ht)

/-- The first call of a window. -/
theorem admission_first (p : Nat) (key : String) : ∃ rest k, admission limit p key = .ask (.incr ("tts:rl:" ++ key)) rest
    ∧ rest (.ok (1 : Nat)) = .ask (.pexpire ("tts:rl:" ++ key) limit.windowMs) k
    ∧ (1 ≤ limit.maxRequests → k (.ok ()) = .done (.ok ())) := by
  refine ⟨_, _, rfl, rfl, fun h1 => ?_⟩
  have hnot : ¬((1 : Nat) : Int) > limit.maxRequests := not_lt.mpr h1
  show ((if ((1 : Nat) : Int) > limit.maxRequests then .fail (rateLimitError key 1 limit) else pure ()) : TtsM Unit) = _
  rw [if_neg hnot]
  rfl

/-- **A call that finds no counter passes**, when nothing fails. -/
theorem passes_of_counter_none {m : System} {p : Nat} (hp : m.procs p = none)
    (hnone : m.store.counter ("tts:rl:" ++ key) = none) (h1 : 1 ≤ limit.maxRequests) (o o' : Choice) (m' : System) :
    passes W cfg ("tts:rl:" ++ key) ⟨run (checkStep W cfg limit) m [.start p key, .answer p o], .answer p o', m'⟩ = true := by
  obtain ⟨rest, k, hbody, hrest, hk⟩ : ∃ rest k, admission limit p key = .ask (.incr ("tts:rl:" ++ key)) rest
      ∧ rest (.ok (1 : Nat)) = .ask (.pexpire ("tts:rl:" ++ key) limit.windowMs) k
      ∧ (1 ≤ limit.maxRequests → k (.ok ()) = .done (.ok ())) := admission_first p key
  obtain ⟨count, hexec, hcount⟩ := exec_incr W cfg o m.store ("tts:rl:" ++ key)
  rw [hnone] at hexec hcount
  have hcount : count = 1 := hcount
  subst hcount
  have hstart : checkStep W cfg limit m (.start p key) = m.launch p (admission limit p key) := by
    simp only [checkStep, Machine.step, hp]
  have hlive : (m.launch p (admission limit p key)).procs p = some ⟨.incr ("tts:rl:" ++ key), rest, []⟩ := by
    simp [Machine.launch, hbody, Live.of]
  have hreply : Machine.reply (server W cfg) m.store (.answer p o : Check) (.incr ("tts:rl:" ++ key))
      = some (m.store.setCounter ("tts:rl:" ++ key) ⟨1, none⟩, .ok 1) := by
    simp [Machine.reply, server, hexec]
  have hanswer : checkStep W cfg limit (m.launch p (admission limit p key)) (.answer p o)
      = (m.launch p (admission limit p key)).deliver p ⟨.incr ("tts:rl:" ++ key), rest, []⟩
        (m.store.setCounter ("tts:rl:" ++ key) ⟨1, none⟩) (.ok 1) :=
    Machine.step_eq_deliver (server W cfg) (admission limit) (outside cfg) rfl hlive hreply
  have hrun : run (checkStep W cfg limit) m [.start p key, .answer p o]
      = (m.launch p (admission limit p key)).deliver p ⟨.incr ("tts:rl:" ++ key), rest, []⟩
        (m.store.setCounter ("tts:rl:" ++ key) ⟨1, none⟩) (.ok 1) := by
    show checkStep W cfg limit (checkStep W cfg limit m (.start p key)) (.answer p o) = _
    rw [hstart, hanswer]
  have hcounter : (m.store.setCounter ("tts:rl:" ++ key) ⟨1, none⟩).counter ("tts:rl:" ++ key) = some ⟨1, none⟩ :=
    counter_of_lookup (by rw [lookup_setCounter, if_pos rfl]) rfl
  rw [hrun]
  simp [passes, Act.asker, Machine.deliver, hrest, Live.of, Command.counter, Machine.reply, server, exec, hcounter,
    hk h1, hasReturned]

/-- **The shared limit neither leaks nor locks out** in every run in which
nothing comes between a counter and its expiry. -/
theorem limit_kept (W : Setting) (cfg : TTSConfig) (limit : RateLimitConfig) (now : Int) (as : List Check)
    (hkept : ∀ t ∈ trace (checkStep W cfg limit) (Machine.idle (State.initial now)) as, ExpiryKept t) :
    LimitKept W cfg limit now as := by
  have hexpiring : ∀ key c, (∀ p, (run (checkStep W cfg limit) (Machine.idle (State.initial now)) as).procs p = none) →
      (run (checkStep W cfg limit) (Machine.idle (State.initial now)) as).store.counter key = some c →
      ∃ expiresAt, c.expiresAt = some expiresAt ∧
        expiresAt ≤ (run (checkStep W cfg limit) (Machine.idle (State.initial now)) as).store.nowMs + limit.windowMs := by
    intro key c hidle hc
    refine (bounded_run now as hkept key c hc).resolve_left fun ⟨p, hp⟩ => ?_
    unfold Machine.phase at hp
    rw [hidle p] at hp
    cases hp
  refine ⟨(books_run now as).limited, hexpiring, fun key p o o' bs hidle hbs hlater hp h1 => ?_⟩
  have huntouched : Untouched ("tts:rl:" ++ key) (run (checkStep W cfg limit) (Machine.idle (State.initial now)) as).store
      (run (checkStep W cfg limit) (run (checkStep W cfg limit) (Machine.idle (State.initial now)) as) bs) :=
    untouched_run (monitoredTo_admission now as) hidle bs hbs
  rw [← run_append] at huntouched
  have hnone : (run (checkStep W cfg limit) (Machine.idle (State.initial now)) (as ++ bs)).store.counter ("tts:rl:" ++ key)
      = none := by
    by_contra hsome
    obtain ⟨c, hc⟩ := Option.ne_none_iff_exists'.mp hsome
    obtain ⟨hlookup, halive⟩ := Option.filter_eq_some_iff.mp hc
    rw [huntouched.lookup] at hlookup
    -- what is alive now was alive when the client went idle
    have hbefore : (run (checkStep W cfg limit) (Machine.idle (State.initial now)) as).store.counter ("tts:rl:" ++ key)
        = some c := by
      refine Option.filter_eq_some_iff.mpr ⟨hlookup, ?_⟩
      cases hexpiry : c.expiresAt with
      | none => rfl
      | some expiresAt =>
          rw [hexpiry] at halive
          have hlt := of_decide_eq_true halive
          have hle := huntouched.later
          exact decide_eq_true (by omega)
    obtain ⟨expiresAt, hexpiry, hle⟩ := hexpiring _ c hidle hbefore
    rw [hexpiry] at halive
    have hlt := of_decide_eq_true halive
    omega
  rw [run_append _ _ (as ++ bs) [.start p key, .answer p o]]
  exact passes_of_counter_none hp hnone h1 o o' _

end Steps

/-! ## §8. A crash between INCR and PEXPIRE. -/

def silentSetting : Setting where
  sha256Hex text := text
  sha256Hex_injective _ _ h := h
  elevenlabs _ _ := []
  google _ _ _ := []

def sharedConfig : TTSConfig := ⟨.google, false, true, "audio", none, some ⟨2, 60000⟩, none, ⟨true, true, true⟩, 3600000⟩

def sampleLimit : RateLimitConfig := ⟨2, 60000⟩

/-- Two calls pass, the third does not. -/
def sampleThreeCalls : List Check :=
  [.start 0 "ip:1.2.3.4", .answer 0 ⟨"", 0⟩, .answer 0 ⟨"", 0⟩, .start 1 "ip:1.2.3.4", .answer 1 ⟨"", 0⟩,
    .start 2 "ip:1.2.3.4", .answer 2 ⟨"", 0⟩]

/-- A replica crashes when it has created the counter. -/
def sampleCrashed : List Check := [.start 0 "ip:1.2.3.4", .answer 0 ⟨"", 0⟩, .crash 0]

theorem sampleThreeCalls_kept : LimitKept silentSetting sharedConfig sampleLimit 0 sampleThreeCalls
    ∧ passedInWindow silentSetting sharedConfig "tts:rl:ip:1.2.3.4"
      (trace (checkStep silentSetting sharedConfig sampleLimit) (Machine.idle (State.initial 0)) sampleThreeCalls) = 2 := by
  have hanswered : sampleThreeCalls.all (fun a => match a with | .start .. | .answer .. => true | _ => false) = true := by
    decide +kernel
  refine ⟨limit_kept silentSetting sharedConfig sampleLimit 0 sampleThreeCalls fun t ht p l hl => ?_, by decide +kernel⟩
  have hact := List.all_eq_true.mp hanswered t.act (act_mem_of_mem_trace _ ht)
  refine ⟨fun o e key hlose => ?_, fun key windowMs _ => ⟨fun e hrefuse => ?_, fun hcrash => ?_⟩⟩
  · rw [hlose] at hact
    cases hact
  · rw [hrefuse] at hact
    cases hact
  · rw [hcrash] at hact
    cases hact

/-- **The counter has no expiry**, and nobody is left to set it. -/
theorem sampleCrashed_locks : ¬LimitKept silentSetting sharedConfig sampleLimit 0 sampleCrashed := by
  intro h
  have hidle : ∀ p, (run (checkStep silentSetting sharedConfig sampleLimit) (Machine.idle (State.initial 0))
      sampleCrashed).procs p = none := by
    intro p
    by_cases hp : p = 0
    · subst hp
      exact Option.isNone_iff_eq_none.mp (by decide +kernel)
    · refine Machine.procs_run_eq_none _ _ _ (fun a ha task hstart => ?_) _
      subst hstart
      simp [sampleCrashed, hp] at ha
  have hcounter : (run (checkStep silentSetting sharedConfig sampleLimit) (Machine.idle (State.initial 0))
      sampleCrashed).store.counter "tts:rl:ip:1.2.3.4" = some ⟨1, none⟩ := by
    decide +kernel
  obtain ⟨expiresAt, hexpiry, -⟩ := h.expiring _ _ hidle hcounter
  cases hexpiry

end PredictIQ.Tts
