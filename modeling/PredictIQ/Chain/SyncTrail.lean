/-
  PredictIQ.Chain.SyncTrail: what the sync loop asks, and in what order.

  A `Trail` keeps what the loop has heard: its cursor, the ledgers it has read
  from the cache, the last answer of the RPC, and the pages it has read and
  the keys it has stored since it looked at the ledger seen last.  The monitor
  says what each question of the loop must rest on; `obeys_runSyncLoop` is the
  proof that the loop keeps to it, by one triple for each function.
-/
import PredictIQ.Chain.EventSync

namespace PredictIQ.Chain

open Foundation Cache

/-! ## §1. Keys. -/

/-- Two letters behind `chain:v1:` tell the keys apart. -/
def slot (key : String) : List Char := (key.toList.drop 9).take 2

theorem slot_append {start : String} (h : 11 ≤ start.toList.length) (rest : String) :
    slot (start ++ rest) = slot start := by
  unfold slot
  rw [String.toList_append, List.drop_append_of_le_length (by omega),
    List.take_append_of_le_length (by rw [List.length_drop]; omega)]

theorem ne_of_slot {a b : String} (h : slot a ≠ slot b) : a ≠ b := fun hab => h (congrArg slot hab)

@[simp] theorem slot_chainLastSeenLedger (network : String) : slot (keys.chainLastSeenLedger network) = ['l', 'a'] :=
  (slot_append (by decide +kernel) network).trans (by decide +kernel)

@[simp] theorem slot_chainSyncCursor (network : String) : slot (keys.chainSyncCursor network) = ['s', 'y'] :=
  (slot_append (by decide +kernel) network).trans (by decide +kernel)

@[simp] theorem slot_ledgerCheckpoint (network : String) : slot (keys.ledgerCheckpoint network) = ['l', 'e'] :=
  (slot_append (by decide +kernel) network).trans (by decide +kernel)

@[simp] theorem slot_event (id : String) : slot (keys.event id) = ['e', 'v'] :=
  (slot_append (by decide +kernel) id).trans (by decide +kernel)

@[simp] theorem slot_lockKey (key : String) : slot (lockKey key) = ['l', 'o'] :=
  (slot_append (by decide +kernel) key).trans (by decide +kernel)

/-- The entries that the loop refreshes. -/
inductive IsRefreshKey (cfg : SyncConfig) : String → Prop where
  | market (marketId : Int) : IsRefreshKey cfg (Markets.keys.chainMarket marketId)
  | oracle (marketId : Int) : IsRefreshKey cfg (Markets.keys.chainOracleResult cfg.network marketId)
  | platform : IsRefreshKey cfg (keys.chainPlatformStats cfg.network)

theorem IsRefreshKey.slot_mem {cfg : SyncConfig} {key : String} (h : IsRefreshKey cfg key) :
    slot key ∈ [['m', 'a'], ['o', 'r'], ['p', 'l']] := by
  cases h with
  | market marketId =>
      have hslot : slot (Markets.keys.chainMarket marketId) = ['m', 'a'] :=
        (slot_append (by decide +kernel) _).trans (by decide +kernel)
      simp [hslot]
  | oracle marketId =>
      have hslot : slot (Markets.keys.chainOracleResult cfg.network marketId) = ['o', 'r'] := by
        unfold Markets.keys.chainOracleResult
        rw [String.append_assoc, String.append_assoc]
        exact (slot_append (by decide +kernel) _).trans (by decide +kernel)
      simp [hslot]
  | platform =>
      have hslot : slot (keys.chainPlatformStats cfg.network) = ['p', 'l'] :=
        (slot_append (by decide +kernel) _).trans (by decide +kernel)
      simp [hslot]

/-! ## §2. The trail. -/

/-- A page, with what it was asked for. -/
structure PageRead where
  startLedger : UInt32
  cursor : Option String
  events : List EventValue

/-- The cursor that the next page is asked for with. -/
def PageRead.lastId (pg : PageRead) : Option String := pg.events.getLast?.bind (·.id)

def eventsOf (pages : List PageRead) : List EventValue := pages.flatMap (·.events)

/-- Pages from a cursor up to one that is short, or whose last event has no id. -/
def ReadThrough (startLedger : UInt32) : Option String → List PageRead → Prop
  | _, [] => False
  | cursor, pg :: rest =>
      pg.startLedger = startLedger ∧ pg.cursor = cursor
        ∧ ((pg.events.length < pageSize ∨ pg.lastId = none) ∧ rest = []
          ∨ pageSize ≤ pg.events.length ∧ ∃ id, pg.lastId = some id ∧ ReadThrough startLedger (some id) rest)

/-- What the loop has heard. -/
structure Trail (K : Crates) where
  /-- The value of its variable. -/
  cursor : Option UInt32
  /-- The cursors and checkpoints it has read from the cache. -/
  known : List UInt32
  /-- The last answer to `getLatestLedger`, unless that failed. -/
  latest : Option UInt32
  /-- What `latest` was when the ledger seen last was read, and that ledger, until `latest` is another. -/
  checked : Option UInt32
  previous : UInt32
  /-- The pages and the stored texts since it was read. -/
  pages : List PageRead
  stored : List (String × K.Text)

section Trails

variable {K : Crates} (cfg : SyncConfig)

/-- A ledger as it is read from the cache. -/
def ledgerIn (found : Option K.Text) : Option UInt32 := found.bind fun text => (K.ledger.fromStr text).toOption

namespace Trail

variable (φ : Trail K)

/-- The `latest` of `sync_once`: the answer of the RPC, or the cursor in its place. -/
def basis : UInt32 := φ.latest.getD (φ.cursor.getD 0)

def read (key : String) (found : Option K.Text) : Trail K :=
  if key = keys.chainLastSeenLedger cfg.network then
    { φ with checked := φ.latest, previous := (ledgerIn found).getD 0, pages := [], stored := [] }
  else if key = keys.chainSyncCursor cfg.network ∨ key = keys.ledgerCheckpoint cfg.network then
    { φ with known := φ.known ++ (ledgerIn found).toList }
  else φ

def next : (q : Command K.setting) → Except String (Reply q) → Trail K
  | .get key _, .ok found => φ.read cfg key found
  | .setEx key text _, .ok _ => { φ with stored := (key, text) :: φ.stored }
  | .outside .getLatestLedger, .ok latest => { φ with latest := some latest, previous := 0 }
  | .outside .getLatestLedger, .error _ => { φ with latest := none, previous := 0 }
  | .outside (.getEvents startLedger cursor), .ok events =>
      { φ with pages := φ.pages ++ [⟨startLedger, cursor, events⟩] }
  | .outside (.holdCursor cursor), _ => { φ with cursor := some cursor, previous := 0 }
  | _, _ => φ

/-- The event is stored, under its key. -/
def Kept (event : ContractEvent) : Prop :=
  ∃ text, K.event.toString event = .ok text ∧ (keys.event event.id, text) ∈ φ.stored

/-- The cursor may move here: everything from the old cursor on was read, on
the latest ledger behind which this one is the confirmed tip, and is stored. -/
def Synced (cursor : UInt32) : Prop :=
  ∃ old latest, φ.cursor = some old ∧ φ.checked = some latest
    ∧ cursor = saturatingSub latest cfg.confirmationLedgerLag ∧ old < cursor
    ∧ ReadThrough (old + 1) none φ.pages ∧ ∀ e ∈ eventsOf φ.pages, φ.Kept (.ofValue e)

/-- The ledger has fallen back, as far as the loop can tell. -/
def Purges : Prop :=
  φ.checked = φ.latest ∧ φ.pages = [] ∧ φ.cursor.isSome = true ∧ fallenBack cfg φ.basis φ.previous = true

/-- What may be written under a key. -/
inductive Writes : String → K.Text → Prop where
  | lastSeen {text : K.Text} : φ.checked = φ.latest → φ.cursor.isSome = true → K.ledger.toString φ.basis = .ok text →
      Writes (keys.chainLastSeenLedger cfg.network) text
  | syncCursor {text : K.Text} {cursor : UInt32} : φ.cursor = some cursor → K.ledger.toString cursor = .ok text →
      Writes (keys.chainSyncCursor cfg.network) text
  | checkpoint {text : K.Text} {cursor : UInt32} : φ.cursor = some cursor → K.ledger.toString cursor = .ok text →
      Writes (keys.ledgerCheckpoint cfg.network) text
  | event {text : K.Text} {e : EventValue} : e ∈ eventsOf φ.pages → K.event.toString (.ofValue e) = .ok text →
      Writes (keys.event (ContractEvent.ofValue e).id) text
  | refresh {key : String} {text : K.Text} : IsRefreshKey cfg key → Writes key text

def allows : Command K.setting → Prop
  | .setEx key text _ => φ.Writes cfg key text
  | .setNxEx key _ _ => ∃ key', key = lockKey key'
  | .incrWithTtl .. => False
  | .scan _ start => start = keys.chainPrefix ∧ φ.Purges cfg
  | .delKeys _ => φ.Purges cfg
  | .outside (.getEvents startLedger _) =>
      ∃ cursor latest, φ.cursor = some cursor ∧ φ.latest = some latest ∧ φ.checked = some latest
        ∧ cursor < saturatingSub latest cfg.confirmationLedgerLag ∧ startLedger = cursor + 1
  | .outside (.holdCursor cursor) => φ.cursor = none ∧ (cursor = 0 ∨ cursor ∈ φ.known) ∨ φ.Synced cfg cursor
  | _ => True

end Trail

variable (K) in
def trailMonitor : Monitor (Reply (W := K.setting)) String (Trail K) :=
  ⟨⟨none, [], none, none, 0, [], []⟩, Trail.next cfg, Trail.allows cfg⟩

theorem breaker_quiet (q : Command K.setting) (hq : q.isBreaker = true) : (trailMonitor K cfg).Quiet q := by
  intro φ
  cases q <;> first | exact ⟨trivial, fun r => rfl⟩ | cases hq

/-! ## §3. What the cache operations do to the trail. -/

section Operations

open Monitor

variable {cfg} {α : Type} {φ : Trail K} {c : UInt32} {lat : Option UInt32}

/-- What a text holds, if it can be read. -/
theorem ledgerIn_of_parse {found : Option K.Text} {value : Option UInt32}
    (h : K.setting.parse (.plain .ledger) found = .ok value) : ledgerIn found = value := by
  cases found with
  | none =>
      cases h
      rfl
  | some text =>
      show (K.ledger.fromStr text).toOption = value
      have h : (K.ledger.fromStr text).map some = .ok value := h
      cases hread : K.ledger.fromStr text with
      | error e =>
          rw [hread] at h
          cases h
      | ok n =>
          rw [hread] at h
          cases h
          rfl

/-- What is read of a text is what the text holds. -/
theorem fromStr_of_ledgerIn {found : Option K.Text} (h : ledgerIn found = some c) :
    ∃ text, found = some text ∧ K.ledger.fromStr text = .ok c := by
  obtain ⟨text, htext, hread⟩ := Option.bind_eq_some_iff.mp h
  refine ⟨text, htext, ?_⟩
  cases hparsed : K.ledger.fromStr text with
  | error e =>
      rw [hparsed] at hread
      cases hread
  | ok n =>
      rw [hparsed] at hread
      cases hread
      rfl

/-- Reading a ledger. -/
theorem triple_getLedger {key : String} {A : Trail K → Prop} {B : Trail K → Option UInt32 → Prop}
    (hgood : ∀ φ found, A φ → B (φ.read cfg key found) (ledgerIn found)) (hback : ∀ φ v, B φ v → A φ) :
    (trailMonitor K cfg).Triple A (cfg.cache.getJson (W := K.setting) (.plain .ledger) key) B A := by
  refine triple_exec (breaker_quiet cfg) ?_ hback
  intro φ hφ
  refine obeys_call_bind.mpr ⟨trivial, fun found => ?_, fun e => hφ⟩
  show (trailMonitor K cfg).Obeys _ (φ.read cfg key found) (.done _)
  cases hparse : K.setting.parse (.plain .ledger) found with
  | error e => exact hback _ _ (hgood φ found hφ)
  | ok value => exact ledgerIn_of_parse hparse ▸ hgood φ found hφ

/-- Writing a value. -/
theorem triple_setJson {i : Cached} {key : String} {value : i.Val K} {ttl : Nat} {A B : Trail K → Prop}
    (hwrites : ∀ φ text, A φ → (i.plain K).toString value = .ok text → φ.Writes cfg key text)
    (hgood : ∀ φ text, A φ → (i.plain K).toString value = .ok text →
      B { φ with stored := (key, text) :: φ.stored })
    (hback : ∀ φ, B φ → A φ) :
    (trailMonitor K cfg).Triple A (cfg.cache.setJson (W := K.setting) i key value ttl) (fun φ _ => B φ) A := by
  have hset : ∀ text, (i.plain K).toString value = .ok text → (trailMonitor K cfg).Triple A
      (cfg.cache.exec (ask (W := K.setting) (.setEx key text ttl))) (fun φ _ => B φ) A := by
    intro text htext
    refine triple_exec (breaker_quiet cfg) ?_ fun φ _ hφ => hback φ hφ
    exact triple_call (fun φ hφ => hwrites φ text hφ htext) (fun φ _ hφ => hgood φ text hφ htext) fun φ e hφ => hφ
  unfold RedisCacheConfig.setJson
  cases htext : (i.plain K).toString value with
  | error e => exact triple_fail fun _ h => h
  | ok text => exact hset text htext

/-! ## §4. One call of `sync_once`. -/

/-- The loop stands at cursor `c`, and the RPC has last answered `lat`. -/
def Holds (c : UInt32) (lat : Option UInt32) (φ : Trail K) : Prop := φ.cursor = some c ∧ φ.latest = lat

/-- The ledger seen last has been read, and no page since. -/
def Checked (c : UInt32) (lat : Option UInt32) (φ : Trail K) : Prop :=
  Holds c lat φ ∧ φ.checked = lat ∧ φ.pages = []

theorem basis_of_holds (h : Holds c lat φ) : φ.basis = lat.getD c := by
  unfold Trail.basis
  rw [h.1, h.2]
  rfl

theorem read_chainLastSeenLedger (found : Option K.Text) :
    φ.read cfg (keys.chainLastSeenLedger cfg.network) found
      = { φ with checked := φ.latest, previous := (ledgerIn found).getD 0, pages := [], stored := [] } :=
  if_pos rfl

theorem triple_stall {A : Trail K → Prop} {B : Trail K → α → Prop} :
    (trailMonitor K cfg).Triple A (stall K) B A :=
  triple_bind (triple_call (B := fun φ _ => A φ) (fun _ _ => trivial) (fun _ _ h => h) fun _ _ h => h)
    fun _ => triple_fail fun _ h => h

theorem triple_latestLedgerOr :
    (trailMonitor K cfg).Triple (fun φ => φ.cursor = some c) (latestLedgerOr K c)
      (fun φ latest => ∃ lat, Holds c lat φ ∧ latest = lat.getD c) (fun φ => φ.cursor = some c) := by
  intro φ hφ
  refine obeys_bind.mpr (obeys_attempt.mpr ⟨trivial, fun r => ?_⟩)
  cases r with
  | ok latest => exact ⟨some latest, ⟨hφ, rfl⟩, rfl⟩
  | error e => exact ⟨none, ⟨hφ, rfl⟩, rfl⟩

theorem triple_purgeChain (rounds : Nat) {previous : UInt32} :
    (trailMonitor K cfg).Triple (fun φ => Checked c lat φ ∧ φ.previous = previous ∧ fallenBack cfg (lat.getD c) previous = true)
      (purgeChain K cfg rounds) (fun φ _ => Checked c lat φ) (Checked c lat) := by
  have hpurges : ∀ {φ : Trail K}, Checked c lat φ ∧ φ.previous = previous ∧ fallenBack cfg (lat.getD c) previous = true →
      φ.Purges cfg := by
    rintro φ ⟨⟨hholds, hchecked, hpages⟩, rfl, hback⟩
    refine ⟨hchecked.trans hholds.2.symm, hpages, by rw [hholds.1]; rfl, ?_⟩
    rwa [basis_of_holds hholds]
  have huses : (cfg.cache.delByPattern (W := K.setting) keys.chainPrefix rounds).Uses fun q =>
      q.isBreaker = true ∨ (∃ cursor, q = .scan cursor keys.chainPrefix) ∨ ∃ ks, q = .delKeys ks :=
    uses_delByPattern (fun q hq => .inl hq) (fun cursor => .inr (.inl ⟨cursor, rfl⟩)) fun ks => .inr (.inr ⟨ks, rfl⟩)
  refine triple_bind ((triple_of_keeps huses ?_).conseq (fun _ h => h) (fun _ _ h => h) fun φ h => h.1) fun purged => ?_
  · rintro q φ (hq | ⟨cursor, rfl⟩ | ⟨ks, rfl⟩) hφ
    · refine ⟨(breaker_quiet cfg q hq φ).1, fun r => ?_⟩
      rwa [(breaker_quiet cfg q hq φ).2 r]
    · exact ⟨⟨rfl, hpurges hφ⟩, fun r => hφ⟩
    · exact ⟨hpurges hφ, fun r => hφ⟩
  · cases purged with
    | some n => exact triple_pure fun φ hφ => hφ.1
    | none => exact triple_stall.conseq (fun _ h => h) (fun _ _ h => h) fun φ hφ => hφ.1

theorem triple_handleReorgIfDetected (rounds : Nat) :
    (trailMonitor K cfg).Triple (Holds c lat) (handleReorgIfDetected K cfg rounds (lat.getD c))
      (fun φ _ => Checked c lat φ) (Holds c lat) := by
  have hset : (trailMonitor K cfg).Triple (Checked c lat)
      (cfg.cache.setJson (W := K.setting) .ledger (keys.chainLastSeenLedger cfg.network) (lat.getD c) (24 * 60 * 60))
      (fun φ _ => Checked c lat φ) (Holds c lat) := by
    refine (triple_setJson (B := Checked c lat) (fun φ text hφ htext => ?_) (fun φ text hφ _ => hφ) fun φ h => h).conseq
      (fun _ h => h) (fun _ _ h => h) fun φ h => h.1
    refine .lastSeen (hφ.2.1.trans hφ.1.2.symm) (by rw [hφ.1.1]; rfl) ?_
    rwa [basis_of_holds hφ.1]
  refine triple_bind (triple_getLedger (B := fun φ found => Checked c lat φ ∧ φ.previous = found.getD 0)
    (fun φ found hφ => ?_) fun φ v h => h.1.1) fun previous => ?_
  · rw [read_chainLastSeenLedger]
    exact ⟨⟨hφ, hφ.2, rfl⟩, rfl⟩
  · dsimp only
    split
    · rename_i hback
      refine triple_bind ((triple_purgeChain rounds).conseq (fun φ hφ => ⟨hφ.1, hφ.2, hback⟩) (fun _ _ h => h)
        fun φ h => h.1) fun _ => hset
    · exact hset.strengthen fun φ hφ => hφ.1

theorem eventsOf_append (pages pages' : List PageRead) : eventsOf (pages ++ pages') = eventsOf pages ++ eventsOf pages' :=
  List.flatMap_append

/-- Page after page: what was read, and what comes of it. -/
theorem triple_fetchEventsFrom {l : UInt32} (hbehind : c < saturatingSub l cfg.confirmationLedgerLag) (rounds : Nat)
    (cursor : Option String) (done : List PageRead) :
    (trailMonitor K cfg).Triple (fun φ => Holds c (some l) φ ∧ φ.checked = some l ∧ φ.pages = done)
      (fetchEventsFrom K (c + 1) rounds cursor ((eventsOf done).map .ofValue))
      (fun φ events => Holds c (some l) φ ∧ φ.checked = some l ∧ events = (eventsOf φ.pages).map .ofValue
        ∧ ∃ more, φ.pages = done ++ more ∧ ReadThrough (c + 1) cursor more)
      (fun φ => φ.cursor = some c) := by
  induction rounds generalizing cursor done with
  | zero => exact triple_stall.conseq (fun _ h => h) (fun _ _ h => h) fun φ hφ => hφ.1.1
  | succ rounds ih =>
      refine triple_bind (B := fun φ events => Holds c (some l) φ ∧ φ.checked = some l
          ∧ φ.pages = done ++ [⟨c + 1, cursor, events⟩])
        (triple_call (fun φ hφ => ⟨c, l, hφ.1.1, hφ.1.2, hφ.2.1, hbehind, rfl⟩) (fun φ events hφ => ?_)
          fun φ e hφ => hφ.1.1) fun events => ?_
      · exact ⟨hφ.1, hφ.2.1, congrArg (· ++ _) hφ.2.2⟩
      · have hall : (eventsOf done).map ContractEvent.ofValue ++ events.map .ofValue
            = (eventsOf (done ++ [⟨c + 1, cursor, events⟩])).map .ofValue := by
          rw [eventsOf_append, List.map_append]
          simp [eventsOf]
        have hends : events.length < pageSize ∨ PageRead.lastId ⟨c + 1, cursor, events⟩ = none →
            ReadThrough (c + 1) cursor [⟨c + 1, cursor, events⟩] := fun h => ⟨rfl, rfl, .inl ⟨h, rfl⟩⟩
        dsimp only
        rw [hall]
        split
        · rename_i hshort
          refine triple_pure fun φ hφ => ⟨hφ.1, hφ.2.1, by rw [hφ.2.2], _, hφ.2.2, hends (.inl hshort)⟩
        · rename_i hfull
          cases hlast : events.getLast?.bind (·.id) with
          | none =>
              exact triple_pure fun φ hφ => ⟨hφ.1, hφ.2.1, by rw [hφ.2.2], _, hφ.2.2, hends (.inr hlast)⟩
          | some lastId =>
              refine (ih (some lastId) (done ++ [⟨c + 1, cursor, events⟩])).conseq (fun _ h => h)
                (fun φ all hφ => ?_) fun _ h => h
              obtain ⟨hholds, hchecked, hevents, more, hpages, hmore⟩ := hφ
              refine ⟨hholds, hchecked, hevents, ⟨c + 1, cursor, events⟩ :: more, ?_, ?_⟩
              · rw [hpages, List.append_assoc]
                rfl
              · exact ⟨rfl, rfl, .inr ⟨Nat.le_of_not_lt hfull, lastId, hlast, hmore⟩⟩

/-- Everything was read behind cursor `c` on latest ledger `l`, and some events are stored. -/
def Stored (c l : UInt32) (pages : List PageRead) (done : List ContractEvent) (φ : Trail K) : Prop :=
  φ.cursor = some c ∧ φ.checked = some l ∧ φ.pages = pages ∧ ∀ event ∈ done, φ.Kept event

theorem Stored.setEx {l : UInt32} {pages : List PageRead} {done : List ContractEvent} (h : Stored c l pages done φ)
    (key : String) (text : K.Text) : Stored c l pages done { φ with stored := (key, text) :: φ.stored } := by
  refine ⟨h.1, h.2.1, h.2.2.1, fun event hevent => ?_⟩
  obtain ⟨text', htext', hmem⟩ := h.2.2.2 event hevent
  exact ⟨text', htext', List.mem_cons_of_mem _ hmem⟩

theorem triple_watchTransaction {A : Trail K → Prop} (txHash : Option String) :
    (trailMonitor K cfg).Triple A (watchTransaction K txHash) (fun φ _ => A φ) A := by
  cases txHash with
  | none => exact triple_pure fun _ h => h
  | some hash =>
      exact triple_bind (triple_call (fun _ _ => trivial) (fun _ _ h => h) fun _ _ h => h) fun _ => triple_pure fun _ h => h

theorem triple_storeEvents {l : UInt32} {pages : List PageRead} (done events : List ContractEvent)
    (hevents : ∀ event ∈ events, ∃ e ∈ eventsOf pages, event = .ofValue e) :
    (trailMonitor K cfg).Triple (Stored c l pages done) (storeEvents K cfg events)
      (fun φ _ => Stored c l pages (done ++ events) φ) (fun φ => φ.cursor = some c) := by
  induction events generalizing done with
  | nil => exact triple_pure fun φ hφ => by rwa [List.append_nil]
  | cons event events ih =>
      obtain ⟨e, he, rfl⟩ := hevents event List.mem_cons_self
      have hset : (trailMonitor K cfg).Triple (Stored c l pages done)
          (cfg.cache.setJson (W := K.setting) .event (keys.event (ContractEvent.ofValue e).id) (.ofValue e) (30 * 60))
          (fun φ _ => Stored c l pages (done ++ [.ofValue e]) φ) (fun φ => φ.cursor = some c) := by
        refine (triple_setJson (B := Stored c l pages (done ++ [.ofValue e])) (fun φ text hφ htext => ?_)
          (fun φ text hφ htext => ?_) fun φ hφ => ?_).conseq (fun _ h => h) (fun _ _ h => h) fun φ hφ => hφ.1
        · exact .event (hφ.2.2.1 ▸ he) htext
        · have hkept := hφ.setEx (keys.event (ContractEvent.ofValue e).id) text
          refine ⟨hkept.1, hkept.2.1, hkept.2.2.1, fun event hevent => ?_⟩
          rcases List.mem_append.mp hevent with hold | hnew
          · exact hkept.2.2.2 event hold
          · rw [List.mem_singleton.mp hnew]
            exact ⟨text, htext, List.mem_cons_self⟩
        · exact ⟨hφ.1, hφ.2.1, hφ.2.2.1, fun event hevent => hφ.2.2.2 event (List.mem_append_left _ hevent)⟩
      refine triple_bind hset fun _ => ?_
      refine triple_bind ((triple_watchTransaction _).conseq (fun _ h => h) (fun _ _ h => h) fun φ h => h.1) fun _ => ?_
      refine (ih (done ++ [.ofValue e]) fun event hevent => hevents event (List.mem_cons_of_mem _ hevent)).conseq
        (fun _ h => h) (fun φ _ hφ => ?_) fun _ h => h
      rwa [List.append_assoc] at hφ

/-- What a refresh asks. -/
def Refreshes (cfg : SyncConfig) (q : Command K.setting) : Prop :=
  q.isBreaker = true ∨ (∃ key, IsRefreshKey cfg key ∧ ((∃ f, q = .get key f) ∨ (∃ text n, q = .setEx key text n)
      ∨ (∃ text n, q = .setNxEx (lockKey key) text n) ∨ q = .del (lockKey key)))
    ∨ q = .outside .getLatestLedger ∨ ∃ contractKey, q = .outside (.getContractData contractKey)

theorem uses_refresh {key : String} (hkey : IsRefreshKey cfg key) (ttl : Nat) (contractKey : String) :
    (refresh K cfg key ttl contractKey).Uses (Refreshes cfg) := by
  have hfetch : (fetchData K contractKey).Uses (Refreshes cfg) := by
    refine Prog.Uses.bind (Prog.Uses.bind (Prog.Uses.attempt (Prog.uses_call.mpr (.inr (.inr (.inl rfl))))) fun r => ?_)
      fun latest => ?_
    · cases r <;> exact Prog.uses_pure _
    · exact Prog.Uses.bind (Prog.uses_call.mpr (.inr (.inr (.inr ⟨_, rfl⟩)))) fun _ => Prog.uses_pure _
  refine Prog.Uses.bind (Prog.Uses.attempt (uses_getOrSetJson (fun q hq => .inl hq) (fun f => ?_) (fun text n => ?_)
    (fun text n => ?_) ?_ hfetch)) fun _ => Prog.uses_pure _
  · exact .inr (.inl ⟨key, hkey, .inl ⟨f, rfl⟩⟩)
  · exact .inr (.inl ⟨key, hkey, .inr (.inl ⟨text, n, rfl⟩)⟩)
  · exact .inr (.inl ⟨key, hkey, .inr (.inr (.inl ⟨text, n, rfl⟩))⟩)
  · exact .inr (.inl ⟨key, hkey, .inr (.inr (.inr rfl))⟩)

theorem uses_refreshMarkets (marketIds : List Int) : (refreshMarkets K cfg marketIds).Uses (Refreshes cfg) := by
  induction marketIds with
  | nil => exact Prog.uses_pure _
  | cons marketId marketIds ih =>
      refine Prog.Uses.bind (uses_refresh (.market marketId) _ _) fun _ => ?_
      exact Prog.Uses.bind (uses_refresh (.oracle marketId) _ _) fun _ => ih

/-- Reading a refreshed entry says nothing of the ledgers. -/
theorem read_of_isRefreshKey {key : String} (hkey : IsRefreshKey cfg key) (found : Option K.Text) :
    φ.read cfg key found = φ := by
  have hslot := hkey.slot_mem
  have hne : ∀ {special : String}, slot special ∉ [['m', 'a'], ['o', 'r'], ['p', 'l']] → key ≠ special := by
    rintro special hspecial rfl
    exact hspecial hslot
  unfold Trail.read
  rw [if_neg (hne (by simp)), if_neg]
  rintro (h | h)
  · exact hne (by simp) h
  · exact hne (by simp) h

theorem refreshes_keeps {l : UInt32} {pages : List PageRead} {done : List ContractEvent} (q : Command K.setting)
    (φ : Trail K) (hq : Refreshes cfg q) (hφ : Stored c l pages done φ) :
    φ.allows cfg q ∧ ∀ r, Stored c l pages done (φ.next cfg q r) := by
  rcases hq with hq | ⟨key, hkey, ⟨f, rfl⟩ | ⟨text, n, rfl⟩ | ⟨text, n, rfl⟩ | rfl⟩ | rfl | ⟨contractKey, rfl⟩
  · refine ⟨(breaker_quiet cfg q hq φ).1, fun r => ?_⟩
    have hsame : φ.next cfg q r = φ := (breaker_quiet cfg q hq φ).2 r
    rwa [hsame]
  · refine ⟨trivial, fun r => ?_⟩
    cases r with
    | error e => exact hφ
    | ok found =>
        show Stored c l pages done (φ.read cfg key found)
        rwa [read_of_isRefreshKey hkey]
  · refine ⟨.refresh hkey, fun r => ?_⟩
    cases r with
    | error e => exact hφ
    | ok u => exact hφ.setEx key text
  · exact ⟨⟨key, rfl⟩, fun r => hφ⟩
  · exact ⟨trivial, fun r => hφ⟩
  · refine ⟨trivial, fun r => ?_⟩
    cases r <;> exact hφ
  · exact ⟨trivial, fun r => hφ⟩

/-- **One call** leaves the cursor, or moves it to where it may move. -/
theorem triple_syncOnce (rounds : Nat) :
    (trailMonitor K cfg).Triple (fun φ => φ.cursor = some c) (syncOnce K cfg rounds c)
      (fun φ next => φ.cursor = some c ∧ (c < next → φ.Synced cfg next)) (fun φ => φ.cursor = some c) := by
  refine triple_bind triple_latestLedgerOr fun latest => triple_ex fun lat => ?_
  refine triple_of_fact (fun φ hφ => hφ.2) fun hlatest => ?_
  subst hlatest
  refine triple_bind (((triple_handleReorgIfDetected rounds).strengthen fun φ hφ => hφ.1).conseq (fun _ h => h)
    (fun _ _ h => h) fun φ hφ => hφ.1) fun _ => ?_
  dsimp only
  split
  · exact triple_pure fun φ hφ => ⟨hφ.1.1, fun hlt => absurd hlt (UInt32.lt_irrefl c)⟩
  · rename_i htip
    have htip := UInt32.not_le.mp htip
    cases lat with
    | none =>
        -- the cursor in place of a latest ledger has no tip above itself
        have h := UInt32.lt_iff_toNat_lt.mp htip
        rw [Option.getD_none, toNat_saturatingSub] at h
        omega
    | some l =>
        have hrefreshed : ∀ {p : SyncM K Unit} {pages : List PageRead} {done : List ContractEvent},
            p.Uses (Refreshes cfg) → (trailMonitor K cfg).Triple (Stored c l pages done) p
              (fun φ _ => Stored c l pages done φ) (fun φ => φ.cursor = some c) := fun hp =>
          (triple_of_keeps hp fun q φ hq hφ => refreshes_keeps q φ hq hφ).conseq (fun _ h => h) (fun _ _ h => h)
            fun φ hφ => hφ.1
        refine triple_bind ((triple_fetchEventsFrom htip rounds none []).strengthen fun φ hφ => ⟨hφ.1, hφ.2.1, hφ.2.2⟩)
          fun events => ?_
        -- the pages are those in the trail, and the events are theirs
        refine (triple_ex (P := fun pages φ => Stored c l pages [] φ ∧ events = (eventsOf pages).map .ofValue
          ∧ ReadThrough (c + 1) none pages) fun pages => ?_).strengthen fun φ hφ => ?_
        · refine triple_of_fact (fun φ hφ => hφ.2) fun ⟨hevents, hread⟩ => ?_
          refine triple_bind ((triple_storeEvents [] events ?_).strengthen fun φ hφ => hφ.1) fun _ => ?_
          · intro event hevent
            rw [hevents] at hevent
            obtain ⟨e, he, rfl⟩ := List.mem_map.mp hevent
            exact ⟨e, he, rfl⟩
          · refine triple_bind (hrefreshed (uses_refreshMarkets _)) fun _ => ?_
            refine triple_bind (hrefreshed (uses_refresh .platform _ _)) fun _ => triple_pure fun φ hφ => ⟨hφ.1, fun _ => ?_⟩
            refine ⟨c, l, hφ.1, hφ.2.1, rfl, htip, hφ.2.2.1 ▸ hread, fun e he => hφ.2.2.2 _ ?_⟩
            rw [hφ.2.2.1] at he
            rw [hevents]
            exact List.mem_append_right _ (List.mem_map_of_mem he)
        · obtain ⟨hholds, hchecked, hevents, more, hpages, hmore⟩ := hφ
          refine ⟨φ.pages, ⟨hholds.1, hchecked, rfl, fun event h => by cases h⟩, hevents, ?_⟩
          rwa [hpages]

/-! ## §5. The loop. -/

theorem triple_persistCursor :
    (trailMonitor K cfg).Triple (fun φ => φ.cursor = some c) (persistCursor K cfg c) (fun φ _ => φ.cursor = some c)
      (fun φ => φ.cursor = some c) := by
  have hset : ∀ (key : String) (ttl : Nat),
      (∀ φ : Trail K, ∀ text, φ.cursor = some c → K.ledger.toString c = .ok text → φ.Writes cfg key text) →
      (trailMonitor K cfg).Triple (fun φ => φ.cursor = some c)
        (cfg.cache.setJson (W := K.setting) .ledger key c ttl) (fun φ _ => φ.cursor = some c)
        (fun φ => φ.cursor = some c) := fun key ttl hwrites =>
    triple_setJson (B := fun φ => φ.cursor = some c) hwrites (fun φ text hφ _ => hφ) fun φ h => h
  have hsync := hset (keys.chainSyncCursor cfg.network) (24 * 60 * 60) fun φ text hφ htext => .syncCursor hφ htext
  have hcheckpoint := hset (keys.ledgerCheckpoint cfg.network) (7 * 24 * 60 * 60)
    fun φ text hφ htext => .checkpoint hφ htext
  -- neither result is looked at
  have hrest : (trailMonitor K cfg).Triple (fun φ => φ.cursor = some c) (do
      let _ ← (cfg.cache.setJson (W := K.setting) .ledger (keys.ledgerCheckpoint cfg.network) c
        (7 * 24 * 60 * 60)).attempt
      pure ()) (fun φ _ => φ.cursor = some c) (fun φ => φ.cursor = some c) :=
    triple_attempt_bind hcheckpoint (fun _ => triple_pure fun _ h => h) fun _ => triple_pure fun _ h => h
  exact triple_attempt_bind hsync (fun _ => hrest) fun _ => hrest

theorem triple_iteration (rounds : Nat) :
    (trailMonitor K cfg).Triple (fun φ => φ.cursor = some c) (iteration K cfg rounds c)
      (fun φ next => φ.cursor = some next) (fun _ => True) := by
  refine triple_attempt_bind (triple_syncOnce rounds) (fun next => ?_) fun e => triple_pure fun φ hφ => hφ
  dsimp only
  split
  · exact triple_pure fun φ hφ => hφ.1
  · rename_i hnext
    refine triple_bind (B := fun φ _ => φ.cursor = some next) (triple_call
      (fun φ hφ => .inr (hφ.2 (UInt32.not_le.mp hnext))) (fun _ _ _ => rfl) fun _ _ _ => trivial) fun _ => ?_
    refine triple_bind (triple_persistCursor.conseq (fun _ h => h) (fun _ _ h => h) fun _ _ => trivial) fun _ => ?_
    exact triple_pure fun φ hφ => hφ

theorem triple_iterations (rounds n : Nat) (c : UInt32) :
    (trailMonitor K cfg).Triple (fun φ => φ.cursor = some c) (iterations K cfg rounds n c)
      (fun _ _ => True) (fun _ => True) := by
  induction n generalizing c with
  | zero => exact triple_pure fun _ _ => trivial
  | succ n ih =>
      refine triple_bind (triple_iteration rounds) fun next => ?_
      exact triple_bind (B := fun φ _ => φ.cursor = some next)
        (triple_call (fun _ _ => trivial) (fun _ _ h => h) fun _ _ _ => trivial) fun _ => ih next

/-- The loop has no cursor yet, and knows some ledgers. -/
def Knows (ks : List UInt32) (φ : Trail K) : Prop := φ.cursor = none ∧ ks ⊆ φ.known

/-- A stored ledger is known from then on. -/
theorem triple_storedLedger {key : String} (ks : List UInt32)
    (hkey : key = keys.chainSyncCursor cfg.network ∨ key = keys.ledgerCheckpoint cfg.network) :
    (trailMonitor K cfg).Triple (Knows ks) (storedLedger K cfg key) (fun φ found => Knows (ks ++ found.toList) φ)
      (Knows ks) := by
  have hread : ∀ (φ : Trail K) found,
      φ.read cfg key found = { φ with known := φ.known ++ (ledgerIn found).toList } := by
    intro φ found
    have hne : key ≠ keys.chainLastSeenLedger cfg.network := by
      rcases hkey with rfl | rfl <;> exact ne_of_slot (by simp)
    unfold Trail.read
    rw [if_neg hne, if_pos hkey]
  refine triple_attempt_bind (triple_getLedger (B := fun φ found => Knows (ks ++ found.toList) φ) ?_ ?_)
    (fun found => triple_pure fun φ hφ => hφ) fun e => triple_pure fun φ hφ => ?_
  · intro φ found hφ
    rw [hread]
    exact ⟨hφ.1, List.append_subset.mpr ⟨List.subset_append_of_subset_left _ hφ.2, List.subset_append_right _ _⟩⟩
  · exact fun φ v hφ => ⟨hφ.1, (List.append_subset.mp hφ.2).1⟩
  · rwa [Option.toList_none, List.append_nil]

theorem triple_initialCursor :
    (trailMonitor K cfg).Triple (Knows []) (initialCursor K cfg)
      (fun φ cursor => φ.cursor = none ∧ (cursor = 0 ∨ cursor ∈ φ.known)) (fun _ => True) := by
  refine triple_bind ((triple_storedLedger [] (.inl rfl)).conseq (fun _ h => h) (fun _ _ h => h) fun _ _ => trivial)
    fun found => ?_
  have hfirst : ∀ φ : Trail K, Knows found.toList φ →
      φ.cursor = none ∧ (found.getD 0 = 0 ∨ found.getD 0 ∈ φ.known) := by
    intro φ hφ
    refine ⟨hφ.1, ?_⟩
    cases found with
    | none => exact .inl rfl
    | some cursor => exact .inr (hφ.2 List.mem_cons_self)
  have hback : ∀ {ks} {φ : Trail K}, Knows (found.toList ++ ks) φ → Knows found.toList φ := fun h =>
    ⟨h.1, (List.append_subset.mp h.2).1⟩
  dsimp only
  split
  · exact triple_pure hfirst
  · refine triple_bind ((triple_storedLedger found.toList (.inr rfl)).conseq (fun _ h => h) (fun _ _ h => h)
      fun _ _ => trivial) fun checkpoint => ?_
    cases checkpoint with
    | none => exact triple_pure fun φ hφ => hfirst φ (hback hφ)
    | some checkpoint =>
        refine triple_attempt_bind (B := fun φ _ => Knows (found.toList ++ [checkpoint]) φ)
          (D := Knows (found.toList ++ [checkpoint]))
          (triple_call (fun _ _ => trivial) (fun _ _ h => h) fun _ _ h => h) (fun current => ?_) fun e => ?_
        · dsimp only
          split
          · exact triple_pure fun φ hφ => ⟨hφ.1, .inr (hφ.2 (List.mem_append_right _ List.mem_cons_self))⟩
          · exact triple_pure fun φ hφ => hfirst φ (hback hφ)
        · exact triple_pure fun φ hφ => hfirst φ (hback hφ)

/-- **The loop** asks only what its trail supports. -/
theorem obeys_runSyncLoop (task : Task) :
    (trailMonitor K cfg).Obeys (fun _ _ => True) (trailMonitor K cfg).start (runSyncLoop K cfg task) := by
  refine Triple.obeys (A := Knows []) (B := fun _ _ => True) (E := fun _ => True) ?_ ⟨rfl, List.nil_subset _⟩
  refine triple_bind triple_initialCursor fun cursor => ?_
  exact triple_bind (B := fun φ _ => φ.cursor = some cursor) (triple_call (fun φ hφ => .inl hφ) (fun _ _ _ => rfl)
    fun _ _ _ => trivial) fun _ => triple_iterations task.rounds task.iterations cursor

end Operations

end Trails

/-! ## §6. One step of the machine. -/

/-- What the loop has been answered. -/
abbrev Log (K : Crates) : Type := List (Unit × Exchange (Reply (W := K.setting)) String)

section Steps

variable {K : Crates} {b b' : Backend K.setting} {q : Command K.setting}

/-- What the loop has heard, as its monitor keeps it. -/
def trailOf (cfg : SyncConfig) (m : System K) : Trail K := m.phase (trailMonitor K cfg) ()

/-- What is kept by a restart, an answer and the outside is kept by a step. -/
theorem trail_step {cfg : SyncConfig} {I : Trail K → Backend K.setting → Log K → Prop} {m : System K} {a : Action K}
    (hm : Machine.Monitored (trailMonitor K cfg) m) (h : I (trailOf cfg m) m.store m.log)
    (hrestart : ∀ φ b log, I φ b log → I (trailMonitor K cfg).start b log)
    (hanswer : ∀ (q : Command K.setting) b' r, (m.procs ()).map (·.question) = some q → (trailOf cfg m).allows cfg q →
      Answers m.store b' q r → (∀ v, r = .ok v → m.performs a = some q) →
      I ((trailOf cfg m).next cfg q r) b' (m.log ++ [((), ⟨q, r⟩)]))
    (houtside : ∀ w, a = .outside w → I (trailOf cfg m) (outside w m.store) m.log) :
    I (trailOf cfg (step K cfg m a)) (step K cfg m a).store (step K cfg m a).log := by
  refine Machine.phases_step (I := fun trails => I (trails ())) hm h (fun φ b log p hI => ?_)
    (fun p q b' r hasker hq hallows hr => ?_) houtside
  · rw [Function.update_self]
    exact hrestart _ _ _ hI
  · rw [Function.update_self]
    exact hanswer q b' r hq hallows (answers_of_reply hasker hr) fun v hv => performs_of_reply hasker hq (hv ▸ hr)

end Steps

end PredictIQ.Chain
