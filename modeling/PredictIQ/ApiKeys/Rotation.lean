/-
  PredictIQ.ApiKeys.Rotation: rotation and the keys of a label.

  A rotation lists the keys, sets the expiry of those of its label one by one,
  and inserts the new key, each in a statement of its own.  `Progress` is what
  it has seen and done so far.  A label keeps exactly one key without expiry as
  long as no rotation fails after its first change, and none inserts while a
  key of its label that it has not listed is without expiry.
-/
import PredictIQ.ApiKeys.Keys
import PredictIQ.Foundation.TaskHistory

namespace PredictIQ.ApiKeys

open Foundation Machine

/-! ## §1. How far a rotation has come. -/

/-- The keys it has listed, the hashes it has set to expire, and whether it
has changed the table, inserted its key, or seen a statement fail. -/
structure Progress where
  keys : List ApiKeyRecord := []
  done : List String := []
  changed : Bool := false
  inserted : Bool := false
  failed : Bool := false

def Progress.after (φ : Progress) : (q : Command) → Except String (Reply q) → Progress
  | .listActive, .ok keys => { φ with keys := keys, done := [] }
  | .setExpires h _, .ok updated => { φ with done := h :: φ.done, changed := φ.changed || updated }
  | .insert .., .ok _ => { φ with changed := true, inserted := true }
  | .newRawKey, .ok _ | .utcNowPlusDays _, .ok _ => φ
  | _, .error _ => { φ with failed := true }

/-- What a rotation of a label may ask: it goes on only while nothing has
failed, sets the expiry of listed keys of its label, and inserts its key when
all of them are set. -/
def Progress.Allows (label : String) (φ : Progress) : Command → Prop
  | .setExpires h _ => ∃ key ∈ φ.keys, key.keyHash = h ∧ key.label = label
  | .insert _ label' => label' = label ∧ ∀ key ∈ φ.keys, key.label = label → key.keyHash ∈ φ.done
  | .newRawKey | .listActive | .utcNowPlusDays _ => True

def progressMonitor : Monitor Reply String Progress where
  start := {}
  next := Progress.after
  allows _ _ := True

def rotationMonitor (req : RotateApiKeyRequest) : Monitor Reply String Progress where
  start := {}
  next := Progress.after
  allows φ q := φ.failed = false ∧ φ.inserted = false ∧ φ.Allows req.keyLabel q

/-- How far each rotation has come. -/
def progress (m : System) : Nat → Progress := m.phase progressMonitor

/-- A rotation succeeds by inserting its key, and fails after a change only
when a statement has failed. -/
def Concluded {α : Type} (φ : Progress) : Except String α → Prop
  | .ok _ => φ.inserted = true
  | .error _ => φ.changed = true → φ.failed = true

section Program

variable {x : Crates} {req : RotateApiKeyRequest}

theorem scheduleExpiry_obeys {newHash newRawKey : String} (expiresAt : Int) (rest : List ApiKeyRecord)
    (old : Option (Int × String)) {φ : Progress} (hfailed : φ.failed = false) (hinserted : φ.inserted = false)
    (hrest : ∀ key ∈ rest, key ∈ φ.keys)
    (hdone : ∀ key ∈ φ.keys, key.label = req.keyLabel → key.keyHash ∈ φ.done ∨ key ∈ rest) :
    (rotationMonitor req).Obeys Concluded φ (do
      let old ← scheduleExpiry req.keyLabel expiresAt rest old
      let _ ← request (.insert newHash req.keyLabel)
      return (⟨newRawKey, req.keyLabel, old.map (·.1), old.map (·.2)⟩ : RotateApiKeyResponse)) := by
  induction rest generalizing old φ with
  | nil =>
      refine ⟨⟨hfailed, hinserted, rfl, fun key hkey hlabel => ?_⟩, fun r => ?_⟩
      · exact (hdone key hkey hlabel).resolve_right List.not_mem_nil
      · cases r with
        | error e => exact fun _ => rfl
        | ok key => exact rfl
  | cons key rest ih =>
      unfold scheduleExpiry
      have hrest' : ∀ k ∈ rest, k ∈ φ.keys := fun k hk => hrest k (List.mem_cons_of_mem _ hk)
      split
      · rename_i hlabel
        refine ⟨⟨hfailed, hinserted, key, hrest key List.mem_cons_self, rfl, hlabel⟩, fun r => ?_⟩
        cases r with
        | error e => exact fun _ => rfl
        | ok updated =>
            refine ih _ hfailed hinserted hrest' fun k hk hk' => ?_
            rcases hdone k hk hk' with hd | hd
            · exact .inl (List.mem_cons_of_mem _ hd)
            · rcases List.mem_cons.mp hd with rfl | hd
              · exact .inl List.mem_cons_self
              · exact .inr hd
      · rename_i hlabel
        refine ih _ hfailed hinserted hrest' fun k hk hk' => (hdone k hk hk').imp_right fun hd => ?_
        refine (List.mem_cons.mp hd).resolve_left ?_
        rintro rfl
        exact hlabel hk'

theorem rotateApiKey_obeys : (rotationMonitor req).Obeys Concluded {} (rotateApiKey x req) := by
  refine ⟨⟨rfl, rfl, trivial⟩, fun r => ?_⟩
  cases r with
  | error e => exact nofun
  | ok newRawKey =>
      refine ⟨⟨rfl, rfl, trivial⟩, fun r => ?_⟩
      cases r with
      | error e => exact nofun
      | ok activeKeys =>
          refine ⟨⟨rfl, rfl, trivial⟩, fun r => ?_⟩
          rcases r with e | _ | expiresAt
          · exact nofun
          · exact nofun
          · exact scheduleExpiry_obeys expiresAt activeKeys none rfl rfl (fun _ hkey => hkey)
              fun _ hkey _ => .inr hkey

theorem body_obeys (p : Nat) (req : RotateApiKeyRequest) :
    (rotationMonitor req).Obeys Concluded (rotationMonitor req).start (body x p req) := by
  refine Monitor.obeys_bind.mpr (rotateApiKey_obeys.mono fun φ r h => ?_)
  cases r with
  | ok response => exact h
  | error e => exact h

end Program

/-! ## §2. The keys and what rotations know of them. -/

/-- A key of the label without expiry. -/
def OpenKey (keys : Keys) (label h : String) : Prop :=
  ∃ key, keys.lookup h = some key ∧ key.label = label ∧ key.expiresAt = none

/-- The keys before and after a statement that inserts none: those left keep
their hash and label, and an expiry. -/
def Evolves (keys keys' : Keys) : Prop :=
  ∀ h key', keys'.lookup h = some key' → ∃ key, keys.lookup h = some key ∧ key'.keyHash = key.keyHash
    ∧ key'.label = key.label ∧ (key'.expiresAt = none → key.expiresAt = none)

theorem Evolves.refl (keys : Keys) : Evolves keys keys := fun _ key h => ⟨key, h, rfl, rfl, id⟩

theorem evolves_setExpires (h : String) (e : Int) (keys : Keys) :
    Evolves keys (apiKeySetExpires h e keys).2 := by
  intro h' key' hkey'
  rw [lookup_setExpires] at hkey'
  obtain ⟨key, hkey, rfl⟩ := Option.map_eq_some_iff.mp hkey'
  refine ⟨key, hkey, ?_⟩
  split
  · exact ⟨rfl, rfl, nofun⟩
  · exact ⟨rfl, rfl, id⟩

theorem evolves_deleteExpired (now : Int) (keys : Keys) : Evolves keys (apiKeyDeleteExpired now keys).2 := by
  intro h key hkey
  rw [lookup_deleteExpired] at hkey
  exact ⟨key, (Option.filter_eq_some_iff.mp hkey).1, rfl, rfl, id⟩

theorem Evolves.openKey {keys keys' : Keys} (hev : Evolves keys keys') {label h : String}
    (hopen : OpenKey keys' label h) : OpenKey keys label h := by
  obtain ⟨key', hkey', hlabel, hexp⟩ := hopen
  obtain ⟨key, hkey, -, hlab, hnone⟩ := hev h key' hkey'
  exact ⟨key, hkey, hlab ▸ hlabel, hnone hexp⟩

/-- The clean-up leaves keys without expiry alone. -/
theorem OpenKey.deleteExpired {keys : Keys} {label h : String} (hopen : OpenKey keys label h) (now : Int) :
    OpenKey (apiKeyDeleteExpired now keys).2 label h := by
  obtain ⟨key, hkey, hlabel, hexp⟩ := hopen
  refine ⟨key, ?_, hlabel, hexp⟩
  rw [lookup_deleteExpired, hkey, Option.filter_some_pos]
  simp [ApiKeyRecord.isExpired, hexp]

/-- Setting an expiry leaves the other keys alone. -/
theorem OpenKey.setExpires {keys : Keys} {label h h' : String} (hopen : OpenKey keys label h) (e : Int)
    (hne : h ≠ h') : OpenKey (apiKeySetExpires h' e keys).2 label h := by
  obtain ⟨key, hkey, hlabel, hexp⟩ := hopen
  refine ⟨key, ?_, hlabel, hexp⟩
  rw [lookup_setExpires, hkey]
  simp [hne]

/-- Keys are stored under their hash, a label has at most one without expiry,
and what the rotations have seen and done can be found in the table. -/
structure Orderly (keys : Keys) (φ : Nat → Progress) : Prop where
  keyed : ∀ h key, keys.lookup h = some key → key.keyHash = h
  unique : ∀ label h h', OpenKey keys label h → OpenKey keys label h' → h = h'
  labels : ∀ p, ∀ listed ∈ (φ p).keys, ∀ key, keys.lookup listed.keyHash = some key → key.label = listed.label
  expiring : ∀ p, ∀ h ∈ (φ p).done, ∀ key, keys.lookup h = some key → key.expiresAt ≠ none
  known : ∀ p, ∀ h ∈ (φ p).done, ∃ listed ∈ (φ p).keys, listed.keyHash = h

section Orderly

variable {keys keys' : Keys} {φ : Nat → Progress} {p : Nat} {ψ : Progress}

theorem Orderly.evolve (h : Orderly keys φ) (hev : Evolves keys keys') : Orderly keys' φ where
  keyed h' key' hkey' := by
    obtain ⟨key, hkey, hhash, -⟩ := hev h' key' hkey'
    exact hhash.trans (h.keyed h' key hkey)
  unique label h₁ h₂ hopen₁ hopen₂ := h.unique label h₁ h₂ (hev.openKey hopen₁) (hev.openKey hopen₂)
  labels p listed hmem key' hkey' := by
    obtain ⟨key, hkey, -, hlabel, -⟩ := hev _ key' hkey'
    exact hlabel.trans (h.labels p listed hmem key hkey)
  expiring p h' hmem key' hkey' hnone := by
    obtain ⟨key, hkey, -, -, hexp⟩ := hev h' key' hkey'
    exact h.expiring p h' hmem key hkey (hexp hnone)
  known := h.known

/-- One rotation moves on. -/
theorem Orderly.update (h : Orderly keys φ)
    (hlabels : ∀ listed ∈ ψ.keys, ∀ key, keys.lookup listed.keyHash = some key → key.label = listed.label)
    (hexpiring : ∀ h ∈ ψ.done, ∀ key, keys.lookup h = some key → key.expiresAt ≠ none)
    (hknown : ∀ h ∈ ψ.done, ∃ listed ∈ ψ.keys, listed.keyHash = h) :
    Orderly keys (Function.update φ p ψ) where
  keyed := h.keyed
  unique := h.unique
  labels p' listed hmem := by
    by_cases hp : p' = p
    · subst hp
      rw [Function.update_self] at hmem
      exact hlabels listed hmem
    · rw [Function.update_of_ne hp] at hmem
      exact h.labels p' listed hmem
  expiring p' h' hmem := by
    by_cases hp : p' = p
    · subst hp
      rw [Function.update_self] at hmem
      exact hexpiring h' hmem
    · rw [Function.update_of_ne hp] at hmem
      exact h.expiring p' h' hmem
  known p' h' hmem := by
    by_cases hp : p' = p
    · subst hp
      rw [Function.update_self] at hmem ⊢
      exact hknown h' hmem
    · rw [Function.update_of_ne hp] at hmem ⊢
      exact h.known p' h' hmem

/-- A rotation moves on without having seen or set anything more. -/
theorem Orderly.update_same (h : Orderly keys φ) (hkeys : ψ.keys = (φ p).keys) (hdone : ψ.done = (φ p).done) :
    Orderly keys (Function.update φ p ψ) := by
  refine h.update ?_ ?_ ?_
  · rw [hkeys]
    exact h.labels p
  · rw [hdone]
    exact h.expiring p
  · rw [hdone, hkeys]
    exact h.known p

/-- A rotation is over. -/
theorem Orderly.leave (h : Orderly keys φ) : Orderly keys (Function.update φ p {}) :=
  h.update (fun _ hmem => absurd hmem List.not_mem_nil) (fun _ hmem => absurd hmem List.not_mem_nil)
    fun _ hmem => absurd hmem List.not_mem_nil

/-- The listed keys are in the table. -/
theorem Orderly.listActive (h : Orderly keys φ) {order : RowOrder ApiKeyRecord} {now : Int}
    (hkeys : ψ.keys = apiKeyListActive order now keys) (hdone : ψ.done = []) :
    Orderly keys (Function.update φ p ψ) := by
  refine h.update ?_ ?_ (by simp [hdone])
  · intro listed hmem key hkey
    rw [hkeys, apiKeyListActive, (List.perm_insertionSort _ _).mem_iff, (order.perm _).mem_iff] at hmem
    obtain ⟨entry, hentry, rfl⟩ := List.mem_map.mp (List.mem_filter.mp hmem).1
    have hlookup : keys.lookup entry.1 = some entry.2 := Store.mem_entries.mp hentry
    rw [h.keyed _ _ hlookup, hlookup] at hkey
    rw [Option.some.inj hkey]
  · intro h' hmem
    rw [hdone] at hmem
    cases hmem

/-- One more key is expiring. -/
theorem Orderly.setExpires (h : Orderly keys φ) {h' : String} {e : Int} (hkeys : ψ.keys = (φ p).keys)
    (hdone : ψ.done = h' :: (φ p).done) (hlisted : ∃ listed ∈ (φ p).keys, listed.keyHash = h') :
    Orderly (apiKeySetExpires h' e keys).2 (Function.update φ p ψ) := by
  have hev := h.evolve (evolves_setExpires h' e keys)
  refine hev.update ?_ ?_ ?_
  · rw [hkeys]
    exact hev.labels p
  · rw [hdone]
    intro k hmem key hkey
    rcases List.mem_cons.mp hmem with rfl | hmem
    · rw [lookup_setExpires] at hkey
      obtain ⟨old, -, rfl⟩ := Option.map_eq_some_iff.mp hkey
      simp
    · exact hev.expiring p k hmem key hkey
  · rw [hdone, hkeys]
    intro k hmem
    rcases List.mem_cons.mp hmem with rfl | hmem
    · exact hlisted
    · exact h.known p k hmem

/-- A new key that no rotation has listed, of a label with no key left without expiry. -/
theorem Orderly.insert (h : Orderly keys φ) {now : Int} {h' label : String} {key : ApiKeyRecord}
    (hins : apiKeyInsert now h' label keys = some (key, keys')) (hclosed : ∀ h'', ¬OpenKey keys label h'')
    (hlisted : ∀ p, ∀ listed ∈ (φ p).keys, listed.keyHash ≠ h') : Orderly keys' φ := by
  obtain ⟨-, hkey, -⟩ := lookup_insert (h := h') hins
  have hlookup : ∀ k, keys'.lookup k = if k = h' then some key else keys.lookup k :=
    fun k => (lookup_insert hins).2.2
  -- an open key is the new one or was there before
  have hopen : ∀ label' k, OpenKey keys' label' k → (k = h' ∧ label' = label) ∨ OpenKey keys label' k := by
    rintro label' k ⟨row, hrow, hlabel, hexp⟩
    rw [hlookup] at hrow
    split at hrow
    · rename_i hk
      obtain rfl := Option.some.inj hrow
      subst hkey
      exact .inl ⟨hk, hlabel.symm⟩
    · exact .inr ⟨row, hrow, hlabel, hexp⟩
  refine ⟨fun k row hrow => ?_, fun label' k k' hk hk' => ?_, fun p listed hmem row hrow => ?_,
    fun p k hmem row hrow => ?_, h.known⟩
  · rw [hlookup] at hrow
    split at hrow
    · rename_i hk
      obtain rfl := Option.some.inj hrow
      rw [hkey, hk]
    · exact h.keyed k row hrow
  · rcases hopen label' k hk with ⟨rfl, rfl⟩ | hold
    · rcases hopen label' k' hk' with ⟨rfl, -⟩ | hold'
      · rfl
      · exact absurd hold' (hclosed k')
    · rcases hopen label' k' hk' with ⟨rfl, rfl⟩ | hold'
      · exact absurd hold (hclosed k)
      · exact h.unique label' k k' hold hold'
  · rw [hlookup, if_neg (hlisted p listed hmem)] at hrow
    exact h.labels p listed hmem row hrow
  · have hne : k ≠ h' := by
      obtain ⟨listed, hmem', rfl⟩ := h.known p k hmem
      exact hlisted p listed hmem'
    rw [hlookup, if_neg hne] at hrow
    exact h.expiring p k hmem row hrow

end Orderly

/-! ## §3. Undisturbed steps. -/

/-- The command changes the table. -/
def Command.changes (keys : Keys) : Command → Bool
  | .setExpires h _ => (keys.lookup h).isSome
  | .insert .. => true
  | .newRawKey | .listActive | .utcNowPlusDays _ => false

/-- A rotation fails only before its first change, and not in a statement that
changes the table all the same; the key it inserts is new; and it has listed
every key of its label that is without expiry when it inserts. -/
structure Undisturbed (t : Transition System Action) : Prop where
  early : ∀ p, t.act.failing = some p → (progress t.pre p).changed = false
  harmless : ∀ p c e q, t.act = .lose p c e → t.pre.performs t.act = some q →
    q.changes t.pre.store.keys = false
  fresh : ∀ h label, t.pre.performs t.act = some (.insert h label) → ∀ p keys,
    (p, ⟨.listActive, .ok keys⟩) ∈ t.pre.log → ∀ key ∈ (keys : List ApiKeyRecord), key.keyHash ≠ h
  alone : ∀ p h label, t.act.asker = some p → t.pre.performs t.act = some (.insert h label) →
    ∀ h', OpenKey t.pre.store.keys label h' → ∃ listed ∈ (progress t.pre p).keys, listed.keyHash = h'

/-- What the answer to `q` does to the table and to the progress of the rotation
that asked. -/
inductive Effect (keys : Keys) (φ : Progress) : Command → Keys → Progress → Prop where
  | same (q : Command) : Effect keys φ q keys φ
  | listed (order : RowOrder ApiKeyRecord) (now : Int) :
      Effect keys φ .listActive keys { φ with keys := apiKeyListActive order now keys, done := [] }
  | expires (h : String) (e : Int) : Effect keys φ (.setExpires h e) (apiKeySetExpires h e keys).2
      { φ with done := h :: φ.done, changed := φ.changed || (keys.lookup h).isSome }
  | inserted (h label : String) (now : Int) (key : ApiKeyRecord) (keys' : Keys) :
      apiKeyInsert now h label keys = some (key, keys') →
      Effect keys φ (.insert h label) keys' { φ with changed := true, inserted := true }

theorem effect_of_exec {x : Crates} {c : Choice} {b s : Backend} {q : Command} {v : Reply q}
    (hexec : exec x c b q = some (v, s)) (φ : Progress) : Effect b.keys φ q s.keys (φ.after q (.ok v)) := by
  cases q with
  | newRawKey =>
      cases hexec
      exact .same _
  | listActive =>
      cases hexec
      exact .listed c.order b.now
  | utcNowPlusDays days =>
      cases hexec
      exact .same _
  | setExpires h e =>
      cases hexec
      have hupdated : (apiKeySetExpires h e b.keys).1 = (b.keys.lookup h).isSome := by
        unfold apiKeySetExpires
        split <;> simp_all
      have heffect : Effect b.keys φ (.setExpires h e) (apiKeySetExpires h e b.keys).2
          { φ with done := h :: φ.done, changed := φ.changed || (b.keys.lookup h).isSome } := .expires h e
      rwa [← hupdated] at heffect
  | insert h label =>
      obtain ⟨⟨key, keys'⟩, hins, heq⟩ := Option.map_eq_some_iff.mp hexec
      cases heq
      exact .inserted h label b.now key keys' hins

/-- A statement that changes nothing leaves the table alone. -/
theorem keys_of_not_changes {x : Crates} {c : Choice} {b s : Backend} {q : Command} {v : Reply q}
    (hexec : exec x c b q = some (v, s)) (hq : q.changes b.keys = false) : s.keys = b.keys := by
  rcases (keys_of_exec hexec).2 with hkeys | ⟨h, e, rfl, hkeys⟩ | ⟨h, label, key, rfl, -⟩
  · exact hkeys
  · have hnone : b.keys.lookup h = none := by simpa [Command.changes] using hq
    rw [hkeys, apiKeySetExpires, hnone]
  · cases hq

section Steps

variable {x : Crates} {m : System} {a : Action} {p : Nat} {l : Live Reply String} {s : Backend}
  {r : Except String (Reply l.question)}

theorem progress_of_procs (hl : m.procs p = some l) : progress m p = phaseAfter progressMonitor l.heard := by
  simp [progress, phase, hl]

/-- A rotation that has changed something is in flight. -/
theorem exists_procs_of_changed (h : (progress m p).changed = true) : ∃ l, m.procs p = some l := by
  cases hl : m.procs p with
  | some l => exact ⟨l, rfl⟩
  | none => simp [progress, phase, hl, progressMonitor] at h

/-- **What an undisturbed reply does.**  A command is answered, or it fails
before the rotation has changed anything and changes nothing itself. -/
theorem effect_of_reply (ha : a.asker = some p) (hl : m.procs p = some l)
    (hr : reply (server x) m.store a l.question = some (s, r)) {m' : System} (hC : Undisturbed ⟨m, a, m'⟩) :
    (m.performs a = some l.question
      ∧ Effect m.store.keys (progress m p) l.question s.keys ((progress m p).after l.question r))
    ∨ ((progress m p).changed = false ∧ s.keys = m.store.keys
      ∧ (progress m p).after l.question r = { progress m p with failed := true }) := by
  have hafter : ∀ e, (progress m p).after l.question (.error e) = { progress m p with failed := true } := by
    intro e
    cases l.question <;> rfl
  rcases reply_cases (server x) ha hr with ⟨c, v, rfl, rfl, hexec⟩ | ⟨e, rfl, rfl, rfl⟩ | ⟨c, e, v, rfl, rfl, hexec⟩
  · exact .inl ⟨by simp [performs, hl], effect_of_exec hexec _⟩
  · exact .inr ⟨hC.early p rfl, rfl, hafter e⟩
  · have hharmless := hC.harmless p c e l.question rfl (by simp [performs, hl])
    exact .inr ⟨hC.early p rfl, keys_of_not_changes hexec hharmless, hafter e⟩

/-- An answer that leaves the rotation without a change leaves the table alone. -/
theorem Effect.keys_eq {keys keys' : Keys} {φ ψ : Progress} {q : Command} (h : Effect keys φ q keys' ψ)
    (hψ : ψ.changed = false) : keys' = keys ∧ φ.changed = false := by
  cases h with
  | same => exact ⟨rfl, hψ⟩
  | listed => exact ⟨rfl, hψ⟩
  | expires h e =>
      obtain ⟨hφ, hnone⟩ := Bool.or_eq_false_iff.mp hψ
      have hnone : keys.lookup h = none := by simpa using hnone
      exact ⟨by rw [apiKeySetExpires, hnone], hφ⟩
  | inserted => cases hψ

/-- After an answer and a change, a rotation that neither failed nor inserted goes on. -/
theorem goes_on {req : RotateApiKeyRequest} {φ : Progress} {rest : Prog Reply String Unit}
    (hobeys : (rotationMonitor req).Obeys Concluded φ rest) (hfailed : φ.failed = false)
    (hinserted : φ.inserted = false) (hchanged : φ.changed = true) :
    phaseOf progressMonitor rest φ = φ := by
  cases rest with
  | ask q k => rfl
  | done res =>
      cases res with
      | ok u => exact absurd (hinserted.symm.trans hobeys) nofun
      | error e => exact absurd (hfailed.symm.trans (hobeys hchanged)) nofun

theorem progress_deliver (hl : m.procs p = some l) :
    progress (m.deliver p l s r) = Function.update (progress m) p
      (phaseOf progressMonitor (l.rest r) ((progress m p).after l.question r)) :=
  phase_deliver progressMonitor hl s r

/-- What a monitored rotation may ask, and what follows its answer. -/
theorem obeys_of_tasksMonitored {tasks : Nat → RotateApiKeyRequest}
    (hM : TasksMonitored rotationMonitor (fun _ => Concluded) tasks m) (hl : m.procs p = some l) :
    (rotationMonitor (tasks p)).Obeys Concluded (progress m p) (.ask l.question l.rest) := by
  rw [progress_of_procs hl]
  exact hM p l hl

end Steps

/-! ## §4. One step. -/

section Answers

variable {keys keys' : Keys} {φ : Nat → Progress} {ψ : Progress} {p : Nat} {q : Command} {label : String}

/-- **One answer keeps the table in order**, provided that a new key is new and
the rotation has listed the keys of its label that are without expiry. -/
theorem Orderly.effect (h : Orderly keys φ) (heffect : Effect keys (φ p) q keys' ψ)
    (hallows : (φ p).Allows label q) (hinsert : ∀ h' label', q = .insert h' label' →
      (∀ p, ∀ listed ∈ (φ p).keys, listed.keyHash ≠ h')
        ∧ ∀ h'', OpenKey keys label' h'' → ∃ listed ∈ (φ p).keys, listed.keyHash = h'') :
    Orderly keys' (Function.update φ p ψ) := by
  cases heffect with
  | same => exact h.update_same rfl rfl
  | listed order now => exact h.listActive rfl rfl
  | expires h' e =>
      obtain ⟨listed, hmem, hhash, -⟩ := hallows
      exact h.setExpires rfl rfl ⟨listed, hmem, hhash⟩
  | inserted h' label' now key _ hins =>
      obtain ⟨rfl, hset⟩ := hallows
      obtain ⟨hfresh, halone⟩ := hinsert h' label' rfl
      -- every key of the label was listed, and so set to expire
      have hclosed : ∀ h'', ¬OpenKey keys label' h'' := by
        intro h'' hopen
        obtain ⟨listed, hmem, rfl⟩ := halone h'' hopen
        obtain ⟨row, hrow, hlabel, hexp⟩ := hopen
        have hdone := hset listed hmem ((h.labels p listed hmem row hrow).symm.trans hlabel)
        exact h.expiring p _ hdone row hrow hexp
      exact (h.insert hins hclosed hfresh).update_same rfl rfl

/-- A key without expiry stays so, or the rotation of its label has changed it. -/
theorem OpenKey.effect {h : String} (hopen : OpenKey keys label h) (horder : Orderly keys φ)
    (heffect : Effect keys (φ p) q keys' ψ) {label' : String} (hallows : (φ p).Allows label' q) :
    OpenKey keys' label h ∨ (label = label' ∧ ψ.changed = true) := by
  cases heffect with
  | same => exact .inl hopen
  | listed order now => exact .inl hopen
  | expires h' e =>
      obtain ⟨listed, hmem, hhash, hlabel'⟩ := hallows
      by_cases hne : h = h'
      · subst hne
        obtain ⟨row, hrow, hlabel, -⟩ := hopen
        have hrow' := horder.labels p listed hmem row (by rw [hhash]; exact hrow)
        exact .inr ⟨hlabel.symm.trans (hrow'.trans hlabel'), by simp [hrow]⟩
      · exact .inl (hopen.setExpires e hne)
  | inserted h' label'' now key _ hins =>
      obtain ⟨row, hrow, hlabel, hexp⟩ := hopen
      obtain ⟨hfree, -, hlookup⟩ := lookup_insert (h := h) hins
      have hne : h ≠ h' := by
        rintro rfl
        exact Option.some_ne_none row (hrow.symm.trans hfree)
      exact .inl ⟨row, by rw [hlookup, if_neg hne]; exact hrow, hlabel, hexp⟩

/-- A rotation stays under way, or has just inserted the key of its label. -/
theorem Effect.underway (heffect : Effect keys (φ p) q keys' ψ) (hallows : (φ p).Allows label q)
    (hfailed : (φ p).failed = false) (hinserted : (φ p).inserted = false) (hchanged : ψ.changed = true) :
    (ψ.failed = false ∧ ψ.inserted = false) ∨ ∃ h, OpenKey keys' label h := by
  cases heffect with
  | same => exact .inl ⟨hfailed, hinserted⟩
  | listed order now => exact .inl ⟨hfailed, hinserted⟩
  | expires h' e => exact .inl ⟨hfailed, hinserted⟩
  | inserted h' label' now key _ hins =>
      obtain ⟨rfl, -⟩ := hallows
      obtain ⟨-, rfl, hlookup⟩ := lookup_insert (h := h') hins
      exact .inr ⟨h', _, by rw [hlookup, if_pos rfl], rfl, rfl⟩

theorem Effect.failed_eq {φ : Progress} (heffect : Effect keys φ q keys' ψ) : ψ.failed = φ.failed := by
  cases heffect <;> rfl

theorem Effect.changed_mono (heffect : Effect keys (φ p) q keys' ψ) (hchanged : (φ p).changed = true) :
    ψ.changed = true := by
  cases heffect with
  | same => exact hchanged
  | listed order now => exact hchanged
  | expires h' e => simp [hchanged]
  | inserted => rfl

end Answers

/-- A label that had a key without expiry has one still, or a rotation of the
label that has changed the table is under way. -/
def Kept (tasks : Nat → RotateApiKeyRequest) (m : System) (label : String) : Prop :=
  (∃ h, OpenKey m.store.keys label h) ∨ ∃ p, (tasks p).keyLabel = label ∧ (progress m p).changed = true

/-- What a run has established: the table is in order, every label that had a
key without expiry is kept, and a rotation that has changed nothing so far has
left the table alone in each of its steps. -/
structure Established (history : List (Transition System Action)) (m : System) : Prop where
  orderly : Orderly m.store.keys (progress m)
  kept : ∀ label, (∃ t ∈ history, ∃ h, OpenKey t.post.store.keys label h) →
    Kept (tasksOf ⟨"", none⟩ history) m label
  own : ∀ p l, m.procs p = some l → (progress m p).changed = false →
    ∀ t ∈ callOf p history, t.post.store.keys = t.pre.store.keys

section Steps

variable {x : Crates} {m : System} {a : Action} {p : Nat} {l : Live Reply String} {s : Backend}
  {r : Except String (Reply l.question)} {tasks : Nat → RotateApiKeyRequest}

/-- What the rotations have listed was answered to them. -/
def ListedLogged (m : System) : Prop :=
  ∀ p, ∀ listed ∈ (progress m p).keys, ∃ keys : List ApiKeyRecord,
    (p, ⟨.listActive, .ok keys⟩) ∈ m.log ∧ listed ∈ keys

theorem Orderly.deliver (h : Orderly m.store.keys (progress m))
    (hM : TasksMonitored rotationMonitor (fun _ => Concluded) tasks m) (ha : a.asker = some p)
    (hl : m.procs p = some l) (hr : reply (server x) m.store a l.question = some (s, r))
    (hC : Undisturbed ⟨m, a, m.deliver p l s r⟩) (hlog : ListedLogged m) :
    Orderly s.keys (progress (m.deliver p l s r)) := by
  -- whether the rotation ends or goes on, what it knows is true
  have hphase : ∀ ψ, Orderly s.keys (Function.update (progress m) p ψ) →
      Orderly s.keys (Function.update (progress m) p (phaseOf progressMonitor (l.rest r) ψ)) := by
    intro ψ hψ
    cases l.rest r with
    | ask q k => exact hψ
    | done res =>
        have hleave := hψ.leave (p := p)
        rwa [Function.update_idem] at hleave
  rw [progress_deliver hl]
  refine hphase _ ?_
  rcases effect_of_reply ha hl hr hC with ⟨hq, heffect⟩ | ⟨-, hkeys, hafter⟩
  · refine h.effect heffect (obeys_of_tasksMonitored hM hl).1.2.2 fun h' label' hinsert => ?_
    rw [hinsert] at hq
    refine ⟨fun p' listed hmem => ?_, hC.alone p h' label' ha hq⟩
    obtain ⟨keys, hlogged, hmem⟩ := hlog p' listed hmem
    exact hC.fresh h' label' hq p' keys hlogged listed hmem
  · rw [hafter, hkeys]
    exact h.update_same rfl rfl

theorem Kept.deliver {label : String} (h : Kept tasks m label) (horder : Orderly m.store.keys (progress m))
    (hM : TasksMonitored rotationMonitor (fun _ => Concluded) tasks m) (ha : a.asker = some p)
    (hl : m.procs p = some l) (hr : reply (server x) m.store a l.question = some (s, r))
    (hC : Undisturbed ⟨m, a, m.deliver p l s r⟩) : Kept tasks (m.deliver p l s r) label := by
  obtain ⟨⟨hfailed, hinserted, hallows⟩, hrest⟩ := obeys_of_tasksMonitored hM hl
  unfold Kept
  rw [progress_deliver hl]
  rcases effect_of_reply ha hl hr hC with ⟨-, heffect⟩ | ⟨hunchanged, hkeys, -⟩
  · -- a rotation of the label that has changed something goes on, or inserts its key
    have hunderway : (tasks p).keyLabel = label →
        ((progress m p).after l.question r).changed = true → (∃ h, OpenKey s.keys label h)
          ∨ ∃ p', (tasks p').keyLabel = label ∧ (Function.update (progress m) p
            (phaseOf progressMonitor (l.rest r) ((progress m p).after l.question r)) p').changed = true := by
      rintro rfl hchanged
      rcases heffect.underway hallows hfailed hinserted hchanged with ⟨hfailed', hinserted'⟩ | hopen
      · have hgoes : phaseOf progressMonitor (l.rest r) ((progress m p).after l.question r)
            = (progress m p).after l.question r := goes_on (hrest r) hfailed' hinserted' hchanged
        refine .inr ⟨p, rfl, ?_⟩
        rw [Function.update_self, hgoes]
        exact hchanged
      · exact .inl hopen
    rcases h with ⟨h, hopen⟩ | ⟨p', hlabel, hchanged⟩
    · rcases hopen.effect horder heffect hallows with hopen' | ⟨hlabel, hchanged⟩
      · exact .inl ⟨h, hopen'⟩
      · exact hunderway hlabel.symm hchanged
    · by_cases hpp : p' = p
      · subst hpp
        exact hunderway hlabel (heffect.changed_mono hchanged)
      · exact .inr ⟨p', hlabel, by rwa [Function.update_of_ne hpp]⟩
  · rcases h with ⟨h, hopen⟩ | ⟨p', hlabel, hchanged⟩
    · exact .inl ⟨h, show OpenKey s.keys label h by rwa [hkeys]⟩
    · have hpp : p' ≠ p := by
        rintro rfl
        rw [hunchanged] at hchanged
        cases hchanged
      exact .inr ⟨p', hlabel, by rwa [Function.update_of_ne hpp]⟩

/-- **One step keeps the table in order.** -/
theorem Orderly.step (h : Orderly m.store.keys (progress m))
    (hM : TasksMonitored rotationMonitor (fun _ => Concluded) tasks m)
    (hC : Undisturbed ⟨m, a, m.step x a⟩) (hlog : ListedLogged m) :
    Orderly (m.step x a).store.keys (progress (m.step x a)) := by
  unfold System.step at hC ⊢
  rcases m.step_cases (server x) (body x) outside a with hstep | ⟨p, task, rfl, hp, hstep⟩
    | ⟨p, l, s, r, ha, hl, hr, hstep⟩ | ⟨p, rfl, hstep⟩ | ⟨w, rfl, hstep⟩ <;> rw [hstep] at hC ⊢
  · exact h
  · unfold progress
    rw [phase_launch _ hp]
    exact h
  · exact h.deliver hM ha hl hr hC hlog
  · unfold progress
    rw [phase_halt]
    exact h.leave
  · cases w with
    | tick elapsed => exact h
    | deleteExpired => exact h.evolve (evolves_deleteExpired _ _)

/-- **One step keeps a label.** -/
theorem Kept.step {label : String} (h : Kept tasks m label) (horder : Orderly m.store.keys (progress m))
    (hM : TasksMonitored rotationMonitor (fun _ => Concluded) tasks m)
    (hC : Undisturbed ⟨m, a, m.step x a⟩) : Kept (tasksAfter tasks m a) (m.step x a) label := by
  -- a rotation that has changed something is in flight and keeps its task
  have htasks : Kept (tasksAfter tasks m a) m label := by
    rcases h with hopen | ⟨p, hlabel, hchanged⟩
    · exact .inl hopen
    · obtain ⟨l, hl⟩ := exists_procs_of_changed hchanged
      exact .inr ⟨p, by rw [tasksAfter_eq hl]; exact hlabel, hchanged⟩
  unfold System.step at hC ⊢
  rcases m.step_cases (server x) (body x) outside a with hstep | ⟨p, task, rfl, hp, hstep⟩
    | ⟨p, l, s, r, ha, hl, hr, hstep⟩ | ⟨p, rfl, hstep⟩ | ⟨w, rfl, hstep⟩ <;> rw [hstep] at hC ⊢
  · exact htasks
  · unfold Kept progress at htasks ⊢
    rw [phase_launch _ hp]
    exact htasks
  · rw [tasksAfter_of_asker ha]
    exact h.deliver horder hM ha hl hr hC
  · rcases htasks with hopen | ⟨p', hlabel, hchanged⟩
    · exact .inl hopen
    · have hpp : p' ≠ p := by
        rintro rfl
        rw [hC.early p' rfl] at hchanged
        cases hchanged
      refine .inr ⟨p', hlabel, ?_⟩
      unfold progress at hchanged ⊢
      rw [phase_halt, Function.update_of_ne hpp]
      exact hchanged
  · rcases htasks with ⟨h, hopen⟩ | hunderway
    · cases w with
      | tick elapsed => exact .inl ⟨h, hopen⟩
      | deleteExpired => exact .inl ⟨h, hopen.deleteExpired _⟩
    · exact .inr hunderway

/-- **One step of a rotation that changes nothing.** -/
theorem own_step {history : List (Transition System Action)} {l' : Live Reply String}
    (h : ∀ l, m.procs p = some l → (progress m p).changed = false →
      ∀ t ∈ callOf p history, t.post.store.keys = t.pre.store.keys)
    (hC : Undisturbed ⟨m, a, m.step x a⟩) (hl' : (m.step x a).procs p = some l')
    (hunchanged : (progress (m.step x a) p).changed = false) :
    ∀ t ∈ callAfter p (callOf p history) ⟨m, a, m.step x a⟩, t.post.store.keys = t.pre.store.keys := by
  rw [progress_of_procs hl'] at hunchanged
  unfold System.step at hl' hC ⊢
  rcases procs_step_cases (server x) (body x) outside hl' with ⟨hold, hsame⟩ | ⟨task, q, k, rfl, hp, -, rfl⟩
    | ⟨l, s, r, q, k, ha, hl, hr, hstep, -, rfl⟩
  · have hcall := h l' hold (by rw [progress_of_procs hold]; exact hunchanged)
    unfold callAfter
    split
    · split
      · exact nofun
      · exact hcall
    · split
      · rename_i hasker
        exact forall_mem_concat hcall (by rw [hsame hasker])
      · exact hcall
  · simp [callAfter, hp]
  · rw [phaseAfter_concat] at hunchanged
    rw [hstep] at hC ⊢
    have hphase := progress_of_procs hl
    have heffect : s.keys = m.store.keys ∧ (progress m p).changed = false := by
      rcases effect_of_reply ha hl hr hC with ⟨-, heffect⟩ | ⟨hun, hkeys, -⟩
      · exact heffect.keys_eq (by rw [hphase]; exact hunchanged)
      · exact ⟨hkeys, hun⟩
    rw [callAfter_of_asker ha]
    exact forall_mem_concat (h l hl heffect.2) heffect.1

end Steps

/-! ## §5. Every run. -/

/-- What a rotation has listed is among the answers that it has heard. -/
theorem exists_of_mem_keys {heard : List (Exchange Reply String)} {listed : ApiKeyRecord}
    (h : listed ∈ (phaseAfter progressMonitor heard).keys) :
    ∃ keys : List ApiKeyRecord, ⟨.listActive, .ok keys⟩ ∈ heard ∧ listed ∈ keys := by
  induction heard using List.reverseRecOn with
  | nil => cases h
  | append_singleton heard exchange ih =>
      have hold : listed ∈ (phaseAfter progressMonitor heard).keys →
          ∃ keys : List ApiKeyRecord, ⟨.listActive, .ok keys⟩ ∈ heard ++ [exchange] ∧ listed ∈ keys := by
        intro hmem
        obtain ⟨keys, hheard, hmem⟩ := ih hmem
        exact ⟨keys, List.mem_append_left _ hheard, hmem⟩
      rw [phaseAfter_concat] at h
      obtain ⟨q, r⟩ := exchange
      cases q with
      | newRawKey => cases r <;> exact hold h
      | utcNowPlusDays days => cases r <;> exact hold h
      | setExpires h' e => cases r <;> exact hold h
      | insert h' label => cases r <;> exact hold h
      | listActive =>
          cases r with
          | error e => exact hold h
          | ok keys => exact ⟨keys, List.mem_append_right _ List.mem_cons_self, h⟩

section Runs

variable {x : Crates} {now : Int} {as : List Action}

theorem listedLogged_run (x : Crates) (now : Int) (as : List Action) :
    ListedLogged (run (System.step x) (idle ⟨now, ∅⟩) as) := by
  intro p listed hmem
  cases hl : (run (System.step x) (idle ⟨now, ∅⟩) as).procs p with
  | none =>
      simp only [progress, phase, hl] at hmem
      cases hmem
  | some l =>
      rw [progress_of_procs hl] at hmem
      obtain ⟨keys, hheard, hmem⟩ := exists_of_mem_keys hmem
      exact ⟨keys, heard_logged_run _ as hl _ hheard, hmem⟩

theorem rotations_monitored (x : Crates) (now : Int) (as : List Action) :
    TasksMonitored rotationMonitor (fun _ => Concluded)
      (tasksOf ⟨"", none⟩ (trace (System.step x) (idle ⟨now, ∅⟩) as)) (run (System.step x) (idle ⟨now, ∅⟩) as) :=
  tasksMonitored_run body_obeys _ _ as

theorem established_run (h : ∀ t ∈ trace (System.step x) (idle ⟨now, ∅⟩) as, Undisturbed t) :
    Established (trace (System.step x) (idle ⟨now, ∅⟩) as) (run (System.step x) (idle ⟨now, ∅⟩) as) := by
  refine history_invariant (System.step x) Established Undisturbed ?_ ?_ as h
  · exact {
      orderly := ⟨nofun, nofun, nofun, nofun, nofun⟩
      kept := fun label ⟨t, ht, _⟩ => nomatch ht
      own := nofun }
  · intro as a hJ hC
    have hM := rotations_monitored x now as
    have horder := hJ.orderly.step hM hC (listedLogged_run x now as)
    refine ⟨horder, fun label hhad => ?_, fun p l' hl' hunchanged => ?_⟩
    · rw [tasksOf_concat]
      obtain ⟨t, ht, hopen⟩ := hhad
      rcases List.mem_append.mp ht with ht | ht
      · exact (hJ.kept label ⟨t, ht, hopen⟩).step hJ.orderly hM hC
      · rw [List.mem_singleton.mp ht] at hopen
        exact .inl hopen
    · rw [callOf_concat]
      exact own_step (fun l hl => hJ.own p l hl) hC hl' hunchanged

/-- A call that returns an error leaves the table as it found it: none of its
own steps has changed it. -/
def ErrorsLeaveTable (x : Crates) (now : Int) (as : List Action) : Prop :=
  ∀ bs a, bs ++ [a] <+: as → ∀ p e, Ends (server x) (run (System.step x) (idle ⟨now, ∅⟩) bs) a p (.error e) →
    ∀ t ∈ callOf p (trace (System.step x) (idle ⟨now, ∅⟩) (bs ++ [a])), t.post.store.keys = t.pre.store.keys

/-- In a quiescent state each label that ever had a key without expiry has one. -/
def LabelsKept (x : Crates) (now : Int) (as : List Action) : Prop :=
  (∀ p, (run (System.step x) (idle ⟨now, ∅⟩) as).procs p = none) → ∀ label,
    (∃ bs, bs <+: as ∧ ∃ h, OpenKey (run (System.step x) (idle ⟨now, ∅⟩) bs).store.keys label h) →
    ∃! h, OpenKey (run (System.step x) (idle ⟨now, ∅⟩) as).store.keys label h

/-- The steps of a rotation that ends with an error. -/
theorem Established.own_of_ends {history : List (Transition System Action)} {m : System} {a : Action} {p : Nat}
    {e : String} (hJ : Established history m) {tasks : Nat → RotateApiKeyRequest}
    (hM : TasksMonitored rotationMonitor (fun _ => Concluded) tasks m) (hC : Undisturbed ⟨m, a, m.step x a⟩)
    (hends : Ends (server x) m a p (.error e)) :
    ∀ t ∈ callOf p (history ++ [⟨m, a, m.step x a⟩]), t.post.store.keys = t.pre.store.keys := by
  obtain ⟨l, s, r, ha, hl, hr, hrest⟩ := hends
  have hstep : m.step x a = m.deliver p l s r := step_eq_deliver (server x) (body x) outside ha hl hr
  obtain ⟨⟨hfailed, -, -⟩, hobeys⟩ := obeys_of_tasksMonitored hM hl
  have hconcluded := hobeys r
  rw [hrest] at hconcluded
  rw [hstep] at hC
  rw [callOf_concat, callAfter_of_asker ha, hstep]
  have heffect : s.keys = m.store.keys ∧ (progress m p).changed = false := by
    rcases effect_of_reply ha hl hr hC with ⟨hq, heffect⟩ | ⟨hun, hkeys, -⟩
    · -- it has seen no statement fail, so it has changed nothing
      refine heffect.keys_eq (Bool.not_eq_true _ ▸ fun hchanged => ?_)
      exact absurd ((heffect.failed_eq.trans hfailed).symm.trans (hconcluded hchanged)) nofun
    · exact ⟨hkeys, hun⟩
  exact forall_mem_concat (hJ.own p l hl heffect.2) heffect.1

theorem errorsLeaveTable (h : ∀ t ∈ trace (System.step x) (idle ⟨now, ∅⟩) as, Undisturbed t) :
    ErrorsLeaveTable x now as := by
  intro bs a hpre p e hends
  have htrace := fun t ht => h t (mem_trace_of_isPrefix (System.step x) hpre ht)
  rw [trace_concat] at htrace ⊢
  have hJ := established_run fun t ht => htrace t (List.mem_append_left _ ht)
  have hM := rotations_monitored x now bs
  exact hJ.own_of_ends hM (htrace _ (List.mem_append_right _ List.mem_cons_self)) hends

theorem labelsKept (h : ∀ t ∈ trace (System.step x) (idle ⟨now, ∅⟩) as, Undisturbed t) :
    LabelsKept x now as := by
  rintro hquiet label ⟨bs, hpre, h', hopen⟩
  have hJ := established_run h
  have hkept : Kept (tasksOf ⟨"", none⟩ (trace (System.step x) (idle ⟨now, ∅⟩) as))
      (run (System.step x) (idle ⟨now, ∅⟩) as) label := by
    -- the state with the key is one that some step of the run leads to
    rcases List.eq_nil_or_concat bs with rfl | ⟨cs, a, rfl⟩
    · obtain ⟨key, hkey, -⟩ := hopen
      cases hkey
    · rw [List.concat_eq_append] at hpre hopen
      obtain ⟨ds, rfl⟩ := hpre
      rw [run_concat] at hopen
      have hmem := mem_trace_append_cons (System.step x) (idle ⟨now, ∅⟩) cs a ds
      rw [List.append_cons] at hmem
      exact hJ.kept label ⟨_, hmem, h', hopen⟩
  rcases hkept with ⟨h₀, hopen₀⟩ | ⟨p, -, hchanged⟩
  · exact ⟨h₀, hopen₀, fun h₁ hopen₁ => hJ.orderly.unique label h₁ h₀ hopen₁ hopen₀⟩
  · obtain ⟨l, hl⟩ := exists_procs_of_changed hchanged
    rw [hquiet p] at hl
    cases hl

/-- Rotation never strands a label. -/
def NeverStrands (x : Crates) (now : Int) (as : List Action) : Prop :=
  ErrorsLeaveTable x now as ∧ LabelsKept x now as

/-- **Rotation never strands a label in a run of undisturbed steps.** -/
theorem never_strands (x : Crates) (now : Int) (as : List Action)
    (h : ∀ t ∈ trace (System.step x) (idle ⟨now, ∅⟩) as, Undisturbed t) : NeverStrands x now as :=
  ⟨errorsLeaveTable h, labelsKept h⟩

/-- The test of `Undisturbed`, on one step. -/
def isUndisturbed (t : Transition System Action) : Bool :=
  t.act.failing.all (fun p => !(progress t.pre p).changed)
    && (match t.act with
      | .lose .. => (t.pre.performs t.act).all fun q => !q.changes t.pre.store.keys
      | _ => true)
    && match t.act.asker, t.pre.performs t.act with
      | some p, some (.insert h label) =>
          (t.pre.log.all fun entry =>
            match entry.2 with
            | ⟨.listActive, .ok keys⟩ => List.all (keys : List ApiKeyRecord) fun key => key.keyHash != h
            | _ => true)
          && t.pre.store.keys.entries.all fun e => !(e.2.label == label && e.2.expiresAt.isNone)
            || (progress t.pre p).keys.any fun listed => listed.keyHash == e.1
      | _, _ => true

theorem undisturbed_of_isUndisturbed {t : Transition System Action} (h : isUndisturbed t = true) :
    Undisturbed t := by
  obtain ⟨m, a, m'⟩ := t
  obtain ⟨h, hinsert⟩ := Bool.and_eq_true_iff.mp h
  obtain ⟨hearly, hlose⟩ := Bool.and_eq_true_iff.mp h
  refine ⟨fun p hp => ?_, fun p c e q ha hq => ?_, fun h' label hq p keys hlog key hkey => ?_,
    fun p h' label ha hq h'' hopen => ?_⟩
  · simpa [hp] using hearly
  · obtain rfl : a = .lose p c e := ha
    simpa [hq] using hlose
  · -- what inserts is an answer to some process
    cases hasker : a.asker with
    | none =>
        cases a with
        | start p' task => cases hq
        | answer p' c => cases hasker
        | refuse p' e => cases hasker
        | lose p' c e => cases hasker
        | crash p' => cases hq
        | outside w => cases hq
    | some p' =>
        simp only [hasker, hq, Bool.and_eq_true, List.all_eq_true] at hinsert
        have hnew := List.all_eq_true.mp (hinsert.1 _ hlog) key hkey
        simpa using hnew
  · simp only [ha, hq, Bool.and_eq_true, List.all_eq_true] at hinsert
    obtain ⟨row, hrow, hlabel, hexp⟩ := hopen
    have hlisted := hinsert.2 _ (Store.mem_entries.mpr hrow)
    simpa [hlabel, hexp, List.any_eq_true] using hlisted

/-- Two rotations of one label, one after the other. -/
def sampleInTurn : List Action := sampleRotation 1 sampleKey1 4 ++ sampleRotation 2 sampleKey2 5

theorem never_strands_sample : NeverStrands sampleCrates 1750000000000000 sampleInTurn :=
  never_strands sampleCrates 1750000000000000 sampleInTurn fun t ht =>
    undisturbed_of_isUndisturbed (List.all_eq_true.mp (by decide +kernel :
      (trace (System.step sampleCrates) (idle ⟨1750000000000000, ∅⟩) sampleInTurn).all isUndisturbed = true) t ht)

/-- A rotation whose INSERT fails. -/
def sampleFailed : List Action :=
  sampleRotation 1 sampleKey1 4 ++ sampleRotation 2 sampleKey2 4 ++ [.refuse 2 "insert failed"]

/-- Two rotations of one label that have both listed the keys before either inserts. -/
def sampleCrossed : List Action :=
  sampleRotation 1 sampleKey1 4 ++ sampleRotation 2 sampleKey2 2 ++ sampleRotation 3 sampleKey3 2
    ++ sampleAnswers 2 sampleKey2 3 ++ sampleAnswers 3 sampleKey3 3

/-- Nothing is in flight after these actions when the processes started are over. -/
theorem quiet_of_check (x : Crates) (now : Int) (ps : List Nat) (as : List Action)
    (hstarts : ∀ p task, .start p task ∈ as → p ∈ ps)
    (hover : (ps.all fun p => ((run (System.step x) (idle ⟨now, ∅⟩) as).procs p).isNone) = true) (p : Nat) :
    (run (System.step x) (idle ⟨now, ∅⟩) as).procs p = none := by
  by_cases hp : p ∈ ps
  · exact Option.isNone_iff_eq_none.mp (List.all_eq_true.mp hover p hp)
  · refine procs_run_eq_none (server x) (body x) outside (fun a ha task hstart => ?_) _
    subst hstart
    exact hp (hstarts p task ha)

/-- A failed rotation leaves its label without a lasting key, and two that
cross leave it with two. -/
theorem label_stranded : ¬NeverStrands sampleCrates 1750000000000000 sampleFailed
    ∧ ¬NeverStrands sampleCrates 1750000000000000 sampleCrossed := by
  constructor
  · intro h
    have hquiet := quiet_of_check sampleCrates 1750000000000000 [1, 2] sampleFailed
      (by simp [sampleFailed, sampleRotation, sampleAnswers]; grind) (by decide +kernel)
    obtain ⟨h', ⟨key, hkey, -, hexp⟩, -⟩ := h.2 hquiet "ci"
      ⟨sampleRotation 1 sampleKey1 4, ⟨_, (List.append_assoc ..).symm⟩, sampleHash1,
        ⟨sampleHash1, "ci", 1750000000000000, none, none⟩, by decide +kernel⟩
    -- the one key that is left has an expiry
    have hexpiring : ((run (System.step sampleCrates) (idle ⟨1750000000000000, ∅⟩) sampleFailed).store.keys.entries.all
        fun e => e.2.expiresAt.isSome) = true := by decide +kernel
    have hsome := List.all_eq_true.mp hexpiring _ (Store.mem_entries.mpr hkey)
    simp [hexp] at hsome
  · intro h
    have hquiet := quiet_of_check sampleCrates 1750000000000000 [1, 2, 3] sampleCrossed
      (by simp [sampleCrossed, sampleRotation, sampleAnswers]; grind) (by decide +kernel)
    obtain ⟨h', -, hunique⟩ := h.2 hquiet "ci"
      ⟨sampleCrossed, List.prefix_rfl, sampleHash2, ⟨sampleHash2, "ci", 1750000000000000, none, none⟩, by decide +kernel⟩
    have h₂ := hunique sampleHash2 ⟨⟨sampleHash2, "ci", 1750000000000000, none, none⟩, by decide +kernel⟩
    have h₃ := hunique sampleHash3 ⟨⟨sampleHash3, "ci", 1750000000000000, none, none⟩, by decide +kernel⟩
    exact absurd (h₂.trans h₃.symm) (by decide +kernel)

end Runs

end PredictIQ.ApiKeys
