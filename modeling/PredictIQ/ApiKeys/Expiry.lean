/-
  PredictIQ.ApiKeys.Expiry: a rotated key dies on time.

  The first rotation that reaches a key gives it an expiry.  The key is dead
  from then on provided that no later rotation gives it a later one: a key in
  its overlap window is still active, so every rotation of its label reaches
  it again.
-/
import PredictIQ.ApiKeys.Keys

namespace PredictIQ.ApiKeys

open Foundation Machine

/-! ## §1. What a rotation returns. -/

/-- The expiry that a rotation has set: one for all keys. -/
def expiryMonitor : Monitor Reply String (Option Int) where
  start := none
  next φ q r :=
    match q, r with
    | .setExpires _ expiresAt, .ok _ => some expiresAt
    | _, _ => φ
  allows φ q := ∀ h e, q = .setExpires h e → φ = none ∨ φ = some e

/-- A successful rotation answers with the expiry that it set. -/
def ReturnsExpiry (φ : Option Int) (r : Except String RotateApiKeyResponse) : Prop :=
  ∀ response, r = .ok response → response.oldKeyExpiresAt = φ

theorem scheduleExpiry_returns {x : Crates} {newRawKey keyLabel : String} (expiresAt : Int)
    (keys : List ApiKeyRecord) (old : Option (Int × String)) (h : old = none ∨ ∃ l, old = some (expiresAt, l)) :
    expiryMonitor.Obeys ReturnsExpiry (old.map (·.1)) (do
      let old ← scheduleExpiry keyLabel expiresAt keys old
      let _ ← request (.insert (x.sha256Hex newRawKey) keyLabel)
      return ⟨newRawKey, keyLabel, old.map (·.1), old.map (·.2)⟩) := by
  induction keys generalizing old with
  | nil =>
      refine ⟨nofun, fun r => ?_⟩
      cases r with
      | error e => exact nofun
      | ok v =>
          intro response hr
          cases hr
          rfl
  | cons key keys ih =>
      unfold scheduleExpiry
      split
      · refine ⟨?_, fun r => ?_⟩
        · intro h' e he
          cases he
          rcases h with rfl | ⟨l, rfl⟩
          · exact .inl rfl
          · exact .inr rfl
        · cases r with
          | error e => exact nofun
          | ok v => exact ih (some (expiresAt, key.label)) (.inr ⟨_, rfl⟩)
      · exact ih old h

/-- **One expiry for all keys of a rotation, which is the one it returns.** -/
theorem rotateApiKey_returns (x : Crates) (req : RotateApiKeyRequest) :
    expiryMonitor.Obeys ReturnsExpiry none (rotateApiKey x req) := by
  refine ⟨nofun, fun r => ?_⟩
  cases r with
  | error e => exact nofun
  | ok newRawKey =>
      refine ⟨nofun, fun r => ?_⟩
      cases r with
      | error e => exact nofun
      | ok activeKeys =>
          refine ⟨nofun, fun r => ?_⟩
          rcases r with e | _ | expiresAt
          · exact nofun
          · exact nofun
          · exact scheduleExpiry_returns expiresAt activeKeys none (.inl rfl)

/-! ## §2. The expiry of one key. -/

/-- The step gives the key its first expiry, `e`. -/
def FirstExpiry (t : Transition System Action) (h : String) (e : Int) : Prop :=
  (∃ key, t.pre.store.keys.lookup h = some key ∧ key.expiresAt = none)
    ∧ ∃ key, t.post.store.keys.lookup h = some key ∧ key.expiresAt = some e

/-- The key is gone, or expires no later than at `e`. -/
def ExpiresBy (h : String) (e : Int) (m : System) : Prop :=
  ∀ key, m.store.keys.lookup h = some key → ∃ e' ≤ e, key.expiresAt = some e'

/-- Some rotation has set an expiry for the key. -/
def Scheduled (h : String) (m : System) : Prop := ∃ p e r, (p, ⟨.setExpires h e, r⟩) ∈ m.log

/-- A step gives no expiring key a later expiry, adds no days past the last
time there is, and draws no key that was rotated before. -/
structure Timely (x : Crates) (t : Transition System Action) : Prop where
  shortens : ∀ h e, t.pre.performs t.act = some (.setExpires h e) → ∀ key e₀,
    t.pre.store.keys.lookup h = some key → key.expiresAt = some e₀ → e ≤ e₀
  fits : ∀ days, t.pre.performs t.act = some (.utcNowPlusDays days) →
    t.pre.store.now + days * 86400000000 ≤ x.maxUtc
  fresh : ∀ h label, t.pre.performs t.act = some (.insert h label) → ¬Scheduled h t.pre

variable {x : Crates}

/-- What one step does to the keys. -/
theorem keys_of_step (m : System) (a : Action) :
    (m.step x a).store.keys = m.store.keys
      ∨ (∃ h e, m.performs a = some (.setExpires h e) ∧ Scheduled h (m.step x a)
        ∧ (m.step x a).store.keys = (apiKeySetExpires h e m.store.keys).2)
      ∨ (∃ h label key, m.performs a = some (.insert h label)
        ∧ apiKeyInsert m.store.now h label m.store.keys = some (key, (m.step x a).store.keys))
      ∨ (m.step x a).store.keys = (apiKeyDeleteExpired m.store.now m.store.keys).2 := by
  rcases m.store_step_cases (server x) (body x) outside a with hsame | ⟨q, c, v, hq, hexec, p, r, hlog⟩ | ⟨w, rfl, hw⟩
  · exact .inl (by rw [System.step, hsame])
  · rcases (keys_of_exec hexec).2 with hkeys | ⟨h, e, rfl, hkeys⟩ | ⟨h, label, key, rfl, hkeys⟩
    · exact .inl hkeys
    · exact .inr (.inl ⟨h, e, hq, ⟨p, e, r, hlog⟩, hkeys⟩)
    · exact .inr (.inr (.inl ⟨h, label, key, hq, hkeys⟩))
  · cases w with
    | tick elapsed => exact .inl (by rw [System.step, hw]; rfl)
    | deleteExpired => exact .inr (.inr (.inr (by rw [System.step, hw]; rfl)))

theorem Scheduled.step {h : String} {m : System} (hm : Scheduled h m) (a : Action) :
    Scheduled h (m.step x a) := by
  obtain ⟨p, e, r, hlog⟩ := hm
  exact ⟨p, e, r, (m.log_isPrefix_step (server x) (body x) outside a).subset hlog⟩

/-- A first expiry is set by a rotation. -/
theorem FirstExpiry.scheduled {m : System} {a : Action} {h : String} {e : Int}
    (hfirst : FirstExpiry ⟨m, a, m.step x a⟩ h e) : Scheduled h (m.step x a) := by
  obtain ⟨⟨old, hold, hnone⟩, key, hkey, hexp⟩ := hfirst
  have hchanged : ¬(m.step x a).store.keys.lookup h = m.store.keys.lookup h := by
    intro hsame
    obtain rfl : old = key := Option.some.inj (hold.symm.trans (hsame.symm.trans hkey))
    rw [hnone] at hexp
    cases hexp
  rcases keys_of_step (x := x) m a with hkeys | ⟨h', e', -, hscheduled, hkeys⟩ | ⟨h', label, new, -, hins⟩ | hkeys
  · exact absurd (by rw [hkeys]) hchanged
  · by_cases hh : h = h'
    · subst hh
      exact hscheduled
    · exact absurd (by rw [hkeys, lookup_setExpires]; simp [hh]) hchanged
  · obtain ⟨hfree, -, hlookup⟩ := lookup_insert (h := h) hins
    have hne : h ≠ h' := by
      rintro rfl
      exact Option.some_ne_none old (hold.symm.trans hfree)
    exact absurd (by rw [hlookup, if_neg hne]) hchanged
  · rw [hkeys, lookup_deleteExpired] at hkey hchanged
    exact absurd ((Option.filter_eq_some_iff.mp hkey).1 ▸ hkey) hchanged

/-- **One step keeps a key dying.** -/
theorem ExpiresBy.step {h : String} {e : Int} {m : System} {a : Action} (hby : ExpiresBy h e m)
    (hscheduled : Scheduled h m) (htimely : Timely x ⟨m, a, m.step x a⟩) : ExpiresBy h e (m.step x a) := by
  intro key hkey
  rcases keys_of_step m a with hkeys | ⟨h', e', hq, -, hkeys⟩ | ⟨h', label, new, hq, hins⟩ | hkeys
  · rw [hkeys] at hkey
    exact hby key hkey
  · rw [hkeys, lookup_setExpires] at hkey
    obtain ⟨old, hold, rfl⟩ := Option.map_eq_some_iff.mp hkey
    obtain ⟨e₀, he₀, hexp⟩ := hby old hold
    split
    · rename_i hh
      subst hh
      exact ⟨e', (htimely.shortens h e' hq old e₀ hold hexp).trans he₀, rfl⟩
    · exact ⟨e₀, he₀, hexp⟩
  · obtain ⟨-, -, hlookup⟩ := lookup_insert (h := h) hins
    have hne : h ≠ h' := by
      rintro rfl
      exact htimely.fresh h label hq hscheduled
    rw [hlookup, if_neg hne] at hkey
    exact hby key hkey
  · rw [hkeys, lookup_deleteExpired] at hkey
    exact hby key (Option.filter_eq_some_iff.mp hkey).1

/-- A key that expires by `e` is refused from `e` on, unless it is a static key. -/
theorem ExpiresBy.refused {h : String} {e : Int} {m : System} (hby : ExpiresBy h e m)
    (hnow : e ≤ m.store.now) {validKeys : List String} {key : String} (hkey : x.sha256Hex key = h)
    (hstatic : verify validKeys key = false) (dbError : Option String) :
    verifyAsync x validKeys (some m.store) dbError key = false := by
  unfold verifyAsync
  rw [if_neg (by simp [hstatic])]
  cases dbError with
  | some err => rfl
  | none =>
      rw [hkey]
      show (apiKeyValidate m.store.now h m.store.keys).isSome = false
      unfold apiKeyValidate
      cases hrow : m.store.keys.lookup h with
      | none => rfl
      | some row =>
          obtain ⟨e', he', hexp⟩ := hby row hrow
          have hdead : row.isActive m.store.now = false := by
            simp [ApiKeyRecord.isActive, hexp, he'.trans hnow]
          simp [Option.filter, hdead]

/-! ## §3. Every run. -/

/-- The expiries added up so far are times. -/
def NoOverflow (m : System) : Prop := ∀ p days, (p, ⟨.utcNowPlusDays days, .ok none⟩) ∉ m.log

theorem NoOverflow.step {m : System} {a : Action} (hm : NoOverflow m)
    (htimely : Timely x ⟨m, a, m.step x a⟩) : NoOverflow (m.step x a) := by
  unfold System.step at htimely ⊢
  rcases m.step_cases (server x) (body x) outside a with hstep | ⟨p, task, rfl, _, hstep⟩
    | ⟨p, l, s, r, hp, hl, hr, hstep⟩ | ⟨p, rfl, hstep⟩ | ⟨w, rfl, hstep⟩
  · rwa [hstep]
  · rwa [hstep]
  · rw [hstep]
    intro p' days hmem
    rcases List.mem_append.mp hmem with hmem | hmem
    · exact hm p' days hmem
    · obtain ⟨question, rest, heard⟩ := l
      obtain ⟨rfl, hexchange⟩ := Prod.mk.inj (List.mem_singleton.mp hmem)
      cases hexchange
      -- the clock is read, and the days fit
      cases a with
      | answer p'' c =>
          obtain rfl : p'' = p' := Option.some.inj hp
          have hfits := htimely.fits days (by simp [performs, hl])
          have hv : x.addDays m.store.now days = none :=
            Except.ok.inj (Prod.mk.inj (Option.some.inj hr)).2
          simp only [Crates.addDays] at hv
          rw [if_pos hfits] at hv
          cases hv
      | refuse p'' e => cases hr
      | lose p'' c e => cases hr
      | start p'' task => cases hp
      | crash p'' => cases hp
      | outside w => cases hp
  · rwa [hstep]
  · rwa [hstep]

/-- A rotated key dies on time: from the first expiry that a rotation gives a
key, it is never moved later, and from that time on the key is refused, unless
it is a static key as well; and no expiry overflows. -/
structure DiesOnTime (x : Crates) (validKeys : List String) (b₀ : Backend) (as : List Action) : Prop where
  kept : ∀ bs a cs, as = bs ++ a :: cs → ∀ h e,
    FirstExpiry ⟨run (System.step x) (idle b₀) bs, a, (run (System.step x) (idle b₀) bs).step x a⟩ h e →
    ExpiresBy h e (run (System.step x) (idle b₀) as)
  refused : ∀ bs a cs, as = bs ++ a :: cs → ∀ h e,
    FirstExpiry ⟨run (System.step x) (idle b₀) bs, a, (run (System.step x) (idle b₀) bs).step x a⟩ h e →
    e ≤ (run (System.step x) (idle b₀) as).store.now → ∀ key dbError, x.sha256Hex key = h →
    verify validKeys key = false →
    verifyAsync x validKeys (some (run (System.step x) (idle b₀) as).store) dbError key = false
  noOverflow : NoOverflow (run (System.step x) (idle b₀) as)

/-- **A rotated key dies on time in every timely run**, and what a rotation
returns is the expiry that it sets. -/
theorem rotated_key_dies (validKeys : List String) (b₀ : Backend) (as : List Action)
    (htimely : ∀ t ∈ trace (System.step x) (idle b₀) as, Timely x t) :
    DiesOnTime x validKeys b₀ as
      ∧ ∀ req, expiryMonitor.Obeys ReturnsExpiry none (rotateApiKey x req) := by
  have hkept : ∀ bs a cs, as = bs ++ a :: cs → ∀ h e,
      FirstExpiry ⟨run (System.step x) (idle b₀) bs, a, (run (System.step x) (idle b₀) bs).step x a⟩ h e →
      ExpiresBy h e (run (System.step x) (idle b₀) as) := by
    intro bs a cs has h e hfirst
    have hsplit : as = (bs ++ [a]) ++ cs := by rw [has, List.append_assoc]; rfl
    rw [hsplit, trace_append] at htimely
    rw [hsplit, run_append]
    refine (run_invariant_of (System.step x) (fun m => ExpiresBy h e m ∧ Scheduled h m) (Timely x) ?_
      (fun m a hm hC => ⟨hm.1.step hm.2 hC, hm.2.step a⟩) cs
      fun t ht => htimely t (List.mem_append_right _ ht)).1
    rw [run_concat]
    refine ⟨?_, hfirst.scheduled⟩
    obtain ⟨-, key, hkey, hexp⟩ := hfirst
    intro key' hkey'
    rw [hkey] at hkey'
    cases hkey'
    exact ⟨e, le_rfl, hexp⟩
  refine ⟨⟨hkept, ?_, ?_⟩, rotateApiKey_returns x⟩
  · intro bs a cs has h e hfirst hnow key dbError hkey hstatic
    exact (hkept bs a cs has h e hfirst).refused hnow hkey hstatic dbError
  · exact run_invariant_of (System.step x) NoOverflow (Timely x) (fun _ _ => List.not_mem_nil)
      (fun m a hm hC => hm.step hC) as htimely

/-- The test of `Timely`, on one step. -/
def isTimely (x : Crates) (t : Transition System Action) : Bool :=
  match t.pre.performs t.act with
  | some (.setExpires h e) => (t.pre.store.keys.lookup h).all fun key => key.expiresAt.all fun e₀ => decide (e ≤ e₀)
  | some (.utcNowPlusDays days) => decide (t.pre.store.now + days * 86400000000 ≤ x.maxUtc)
  | some (.insert h _) => t.pre.log.all fun entry =>
      match entry.2.question with
      | .setExpires h' _ => h' != h
      | _ => true
  | _ => true

theorem timely_of_isTimely {t : Transition System Action} (h : isTimely x t = true) : Timely x t := by
  unfold isTimely at h
  refine ⟨fun h' e hq key e₀ hkey hexp => ?_, fun days hq => ?_, fun h' label hq => ?_⟩
  · simpa [hq, hkey, hexp] using h
  · simpa [hq] using h
  · rintro ⟨p, e, r, hlog⟩
    simp only [hq, List.all_eq_true] at h
    simpa using h _ hlog

/-- Two rotations of one label, and the seven days of the second one's overlap. -/
def sampleOnce : List Action :=
  sampleRotation 1 sampleKey1 4 ++ sampleRotation 2 sampleKey2 5 ++ List.replicate 7 sampleDay

theorem rotated_key_dies_sample : DiesOnTime sampleCrates [] sampleBackend sampleOnce :=
  (rotated_key_dies [] sampleBackend sampleOnce fun t ht =>
    timely_of_isTimely (List.all_eq_true.mp (by decide +kernel :
      (trace (System.step sampleCrates) (idle sampleBackend) sampleOnce).all (isTimely sampleCrates) = true) t ht)).1

/-- Three rotations of one label, the last a day after the second, and the
seven days of the second one's overlap. -/
def sampleTwice : List Action :=
  sampleRotation 1 sampleKey1 4 ++ sampleRotation 2 sampleKey2 5 ++ [sampleDay]
    ++ sampleRotation 3 sampleKey3 6 ++ List.replicate 6 sampleDay

/-- A rotation with as many days of overlap as a `u32` can ask for. -/
def sampleForever : List Action :=
  .start 1 ⟨"ci", some 4294967295⟩ :: sampleAnswers 1 sampleKey1 3

/-- The second rotation's key is accepted past the expiry that was returned
for it, and the days of an overlap can overflow. -/
theorem rotated_key_outlives : ¬DiesOnTime sampleCrates [] sampleBackend sampleTwice
    ∧ ¬DiesOnTime sampleCrates [] sampleBackend sampleForever := by
  constructor
  · intro h
    -- the expiry set by the second rotation is its fourth answer
    have hfirst : FirstExpiry ⟨run (System.step sampleCrates) (idle sampleBackend) (sampleTwice.take 9),
        .answer 2 ⟨sampleKey2, .asStored _⟩, run (System.step sampleCrates) (idle sampleBackend) (sampleTwice.take 10)⟩
        sampleHash1 (1750000000000000 + 7 * 86400000000) :=
      ⟨⟨⟨sampleHash1, "ci", 1750000000000000, none, none⟩, by decide +kernel⟩,
        ⟨sampleHash1, "ci", 1750000000000000, some (1750000000000000 + 7 * 86400000000), none⟩, by decide +kernel⟩
    have hrefused := h.refused (sampleTwice.take 9) (.answer 2 ⟨sampleKey2, .asStored _⟩) (sampleTwice.drop 10)
      rfl sampleHash1 (1750000000000000 + 7 * 86400000000) hfirst (by decide +kernel) sampleKey1 none (by decide +kernel)
      (by decide +kernel)
    exact absurd hrefused (by decide +kernel)
  · intro h
    exact h.noOverflow 1 4294967295 (List.mem_of_getElem? (i := 2) rfl)

end PredictIQ.ApiKeys
