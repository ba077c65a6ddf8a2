/-
  PredictIQ.Chain.SyncCoverage: the event sync misses nothing.

  `Covered` says what a cursor stands for: every event up to it, from the
  first cursor on, has been stored by a `set_json` that succeeded.
  `cursor_covered` says that this holds of every value that the loop's
  variable or the cache holds as its cursor, in every run without a reorg.
-/
import PredictIQ.Chain.SyncTrail

namespace PredictIQ.Chain

open Foundation Cache

/-! ## §1. What a cursor stands for. -/

/-- A `set_json` of the event has succeeded. -/
def EventStored {K : Crates} (log : Log K) (event : ContractEvent) : Prop :=
  ∃ text seconds, K.event.toString event = .ok text ∧ ((), ⟨.setEx (keys.event event.id) text seconds, .ok ()⟩) ∈ log

/-- The events behind `start` and up to a cursor are stored. -/
def Covered {K : Crates} (chain : EventChain) (start : Nat) (log : Log K) (c : UInt32) : Prop :=
  ∀ e ∈ chain.events, start < e.sequence → e.sequence ≤ c.toNat → EventStored log (.ofValue e)

def IsCursorKey (cfg : SyncConfig) (key : String) : Prop :=
  key = keys.chainSyncCursor cfg.network ∨ key = keys.ledgerCheckpoint cfg.network

section Covering

variable {K : Crates} {chain : EventChain} {start : Nat} {log log' : Log K} {c l : UInt32}

theorem Covered.mono (h : Covered chain start log c) (hlog : log ⊆ log') : Covered chain start log' c := by
  intro e he hstart hc
  obtain ⟨text, seconds, htext, hmem⟩ := h e he hstart hc
  exact ⟨text, seconds, htext, hlog hmem⟩

theorem covered_of_le (h : c.toNat ≤ start) : Covered chain start log c := by
  intro e he hstart hc
  omega

/-- Pages of the chain, asked for one after another, are a reading to the end. -/
theorem reads_of_readThrough {pages : List PageRead} {startLedger : UInt32} {cursor : Option String}
    (hpages : ∀ pg ∈ pages, ∃ horizon, l ≤ horizon ∧ pg.events = eventsPage pg.startLedger horizon pg.cursor chain)
    (h : ReadThrough startLedger cursor pages) :
    Pages.Reads (·.id) pageSize chain.events (inReach startLedger l) (cursor.map some) (eventsOf pages) := by
  induction pages generalizing cursor with
  | nil => exact h.elim
  | cons pg rest ih =>
      obtain ⟨horizon, hl, hevents⟩ := hpages pg List.mem_cons_self
      obtain ⟨hstart, hcursor, hnext⟩ := h
      have hreach : ∀ e, inReach startLedger l e = true → inReach pg.startLedger horizon e = true := by
        intro e he
        have hl := UInt32.le_iff_toNat_le.mp hl
        simp only [inReach, Bool.and_eq_true, decide_eq_true_eq] at he ⊢
        rw [hstart]
        omega
      rw [hcursor] at hevents
      rw [show eventsOf (pg :: rest) = pg.events ++ eventsOf rest from List.flatMap_cons]
      -- a page that is not short ends with an event, which has an id
      have hfull : pageSize ≤ pg.events.length → ∃ front e, pg.events = front ++ [e]
          ∧ pg.lastId.map some = some e.id := by
        intro hlen
        obtain ⟨front, e, hfront⟩ := List.eq_nil_or_concat pg.events |>.resolve_left fun hnil => by
          rw [hnil] at hlen
          exact absurd hlen (by decide)
        rw [List.concat_eq_append] at hfront
        refine ⟨front, e, hfront, ?_⟩
        have he : e ∈ Pages.page (·.id) pageSize (inReach pg.startLedger horizon) (cursor.map some) chain.events := by
          show e ∈ eventsPage pg.startLedger horizon cursor chain
          rw [← hevents, hfront]
          exact List.mem_append_right _ List.mem_cons_self
        obtain ⟨id, hid⟩ := Option.isSome_iff_exists.mp (chain.identified e (Pages.reach_of_mem_page he).1)
        simp [PageRead.lastId, hfront, hid]
      rcases hnext with ⟨hlast, rfl⟩ | ⟨hlen, id, hid, hrest⟩
      · have hshort : pg.events.length < pageSize := by
          rcases hlast with hshort | hnone
          · exact hshort
          · by_contra hlen
            obtain ⟨front, e, -, hid⟩ := hfull (by omega)
            rw [hnone] at hid
            cases hid
        show Pages.Reads _ _ _ _ _ (pg.events ++ [])
        rw [List.append_nil, hevents]
        rw [hevents] at hshort
        exact .last _ _ hreach hshort
      · obtain ⟨front, e, hfront, hlastId⟩ := hfull hlen
        rw [hfront]
        refine .more _ _ front e _ hreach (hevents.symm.trans hfront) ?_
        have hid : some e.id = (some id).map some := by rw [← hlastId, hid]
        rw [hid]
        exact ih (fun pg' hpg' => hpages pg' (List.mem_cons_of_mem _ hpg')) hrest

/-- **A synced cursor is covered**, if the cursor before it is. -/
theorem covered_of_synced {cfg : SyncConfig} {φ : Trail K}
    (hcursor : ∀ c, φ.cursor = some c → Covered chain start log c)
    (hpages : ∀ l, φ.checked = some l → ∀ pg ∈ φ.pages,
      ∃ horizon, l ≤ horizon ∧ pg.events = eventsPage pg.startLedger horizon pg.cursor chain)
    (hstored : ∀ key text, (key, text) ∈ φ.stored → ∃ seconds, ((), ⟨.setEx key text seconds, .ok ()⟩) ∈ log)
    (h : φ.Synced cfg c) : Covered chain start log c := by
  obtain ⟨old, latest, hold, hchecked, rfl, hlt, hread, hkept⟩ := h
  have hnext := toNat_add_one_of_lt hlt
  intro e he hstart hc
  rw [toNat_saturatingSub] at hc
  by_cases hbefore : e.sequence ≤ old.toNat
  · exact hcursor old hold e he hstart hbefore
  · have hwanted : inReach (old + 1) latest e = true := by
      simp only [inReach, Bool.and_eq_true, decide_eq_true_eq]
      omega
    have hmem := Pages.mem_of_reads chain.distinct (reads_of_readThrough (hpages latest hchecked) hread) e he hwanted
    obtain ⟨text, htext, hkept⟩ := hkept e hmem
    obtain ⟨seconds, hlog⟩ := hstored _ _ hkept
    exact ⟨text, seconds, htext, hlog⟩

end Covering

/-! ## §2. The loop, the cache and the RPC. -/

section Standings

variable {K : Crates} {cfg : SyncConfig} {chain : EventChain} {start : Nat} {log : Log K} {φ : Trail K}
  {b b' : Backend K.setting} {q : Command K.setting}

/-- Where the loop stands. -/
structure Standing (cfg : SyncConfig) (chain : EventChain) (start : Nat) (φ : Trail K) (b : Backend K.setting)
    (log : Log K) : Prop where
  node : b.world.chain = chain
  known : ∀ c ∈ φ.known, Covered chain start log c
  cursor : ∀ c, φ.cursor = some c → Covered chain start log c
  persisted : ∀ key text c, IsCursorKey cfg key → b.get key = some text → K.ledger.fromStr text = .ok c →
    Covered chain start log c
  answered : ∀ l, φ.latest = some l → b.world.lastAnswer = l
  pages : ∀ l, φ.checked = some l → ∀ pg ∈ φ.pages,
    ∃ horizon, l ≤ horizon ∧ pg.events = eventsPage pg.startLedger horizon pg.cursor chain
  stored : ∀ key text, (key, text) ∈ φ.stored → ∃ seconds, ((), ⟨.setEx key text seconds, .ok ()⟩) ∈ log

theorem Standing.grow (h : Standing cfg chain start φ b log) (x : Unit × Exchange (Reply (W := K.setting)) String) :
    Standing cfg chain start φ b (log ++ [x]) := by
  have hlog : log ⊆ log ++ [x] := List.subset_append_left _ _
  refine ⟨h.node, fun c hc => (h.known c hc).mono hlog, fun c hc => (h.cursor c hc).mono hlog,
    fun key text c hkey hget hread => (h.persisted key text c hkey hget hread).mono hlog, h.answered, h.pages,
    fun key text hmem => ?_⟩
  obtain ⟨seconds, hmem⟩ := h.stored key text hmem
  exact ⟨seconds, hlog hmem⟩

/-- A loop that starts knows nothing. -/
theorem standing_start (hnode : b.world.chain = chain)
    (hpersisted : ∀ key text c, IsCursorKey cfg key → b.get key = some text → K.ledger.fromStr text = .ok c →
      Covered chain start log c) : Standing cfg chain start (trailMonitor K cfg).start b log where
  node := hnode
  known _ hc := by cases hc
  cursor _ hc := by cases hc
  persisted := hpersisted
  answered _ hl := by cases hl
  pages _ _ _ hpg := by cases hpg
  stored _ _ hmem := by cases hmem

theorem Standing.restart (h : Standing cfg chain start φ b log) :
    Standing cfg chain start (trailMonitor K cfg).start b log :=
  standing_start h.node h.persisted

/-- What is written under the cursor's keys is the cursor. -/
theorem cursor_of_leaves {key : String} {text : K.Text} (hkey : IsCursorKey cfg key) (hallows : φ.allows cfg q)
    (h : q.Leaves key text) : ∃ c, φ.cursor = some c ∧ K.ledger.toString c = .ok text := by
  have hslot : slot key = ['s', 'y'] ∨ slot key = ['l', 'e'] := by
    rcases hkey with rfl | rfl
    · exact .inl (by simp)
    · exact .inr (by simp)
  cases q with
  | setEx k t seconds =>
      obtain ⟨rfl, rfl⟩ := h
      cases hallows with
      | lastSeen => simp at hslot
      | syncCursor hc ht => exact ⟨_, hc, ht⟩
      | checkpoint hc ht => exact ⟨_, hc, ht⟩
      | event => simp at hslot
      | refresh hrefresh =>
          have hmem := hrefresh.slot_mem
          rcases hslot with hslot | hslot <;> rw [hslot] at hmem <;> simp at hmem
  | setNxEx k t seconds =>
      obtain ⟨rfl, rfl⟩ := h
      obtain ⟨k', rfl⟩ := hallows
      simp at hslot
  | incrWithTtl k seconds => exact hallows.elim
  | _ => exact h.elim

theorem Standing.persisted_of_exec (h : Standing cfg chain start φ b log) (hallows : φ.allows cfg q)
    {o : Cache.Choice K.setting} {v : Reply q} (hexec : exec o b q = some (v, b')) (key : String) (text : K.Text)
    (n : UInt32) (hkey : IsCursorKey cfg key) (hget : b'.get key = some text) (hread : K.ledger.fromStr text = .ok n) :
    Covered chain start log n := by
  rcases get_of_exec hexec hget with hold | hnew
  · exact h.persisted key text n hkey hold hread
  · obtain ⟨c, hc, htext⟩ := cursor_of_leaves hkey hallows hnew
    rw [K.ledger_roundTrip c text htext] at hread
    cases hread
    exact h.cursor _ hc

/-- What a command does to the RPC's node. -/
theorem node_of_exec {o : Cache.Choice K.setting} {v : Reply q} (h : exec o b q = some (v, b')) :
    b'.world.chain = b.world.chain
      ∧ (q ≠ .outside .getLatestLedger → b'.world.lastAnswer = b.world.lastAnswer) := by
  cases q with
  | outside q =>
      obtain ⟨⟨r, w⟩, hw, hb⟩ := Option.map_eq_some_iff.mp h
      cases hb
      cases q with
      | getLatestLedger =>
          cases hw
          exact ⟨rfl, fun hne => absurd rfl hne⟩
      | getEvents startLedger cursor =>
          simp only [answer] at hw
          split at hw
          · cases hw
            exact ⟨rfl, fun _ => rfl⟩
          · cases hw
      | stall => cases hw
      | _ =>
          cases hw
          exact ⟨rfl, fun _ => rfl⟩
  | _ =>
      rw [world_of_exec h nofun]
      exact ⟨rfl, fun _ => rfl⟩

/-- A page is one of the node's chain, up to a horizon of its own. -/
theorem page_of_answers {startLedger : UInt32} {cursor : Option String} {events : List EventValue}
    (h : Answers b b' (.outside (.getEvents startLedger cursor)) (.ok events)) :
    ∃ horizon, b.world.lastAnswer ≤ horizon ∧ events = eventsPage startLedger horizon cursor b.world.chain := by
  rcases h with ⟨o, v, hv, hexec⟩ | ⟨e, he, -⟩
  · cases hv
    obtain ⟨⟨ev, w⟩, hw, hpair⟩ := Option.map_eq_some_iff.mp hexec
    cases hpair
    simp only [Chain.answer] at hw
    split at hw
    · rename_i hhorizon
      cases hw
      exact ⟨o.world.horizon, hhorizon, rfl⟩
    · cases hw
  · cases he

/-- A trail is taken on when all it says holds. -/
theorem Standing.ofTrail {φ' : Trail K} (h : Standing cfg chain start φ b log) (hnode : b'.world.chain = chain)
    (hpersisted : ∀ key text c, IsCursorKey cfg key → b'.get key = some text → K.ledger.fromStr text = .ok c →
      Covered chain start log c)
    (hanswered : ∀ l, φ'.latest = some l → b'.world.lastAnswer = l)
    (hknown : ∀ c ∈ φ'.known, c ∈ φ.known ∨ Covered chain start log c)
    (hcursor : ∀ c, φ'.cursor = some c → φ.cursor = some c ∨ Covered chain start log c)
    (hpages : φ'.checked = φ.checked ∧ φ'.pages = φ.pages ∨ φ'.pages = [] ∨ φ'.checked = φ.checked
      ∧ ∃ pg, φ'.pages = φ.pages ++ [pg] ∧ ∀ l, φ.checked = some l →
        ∃ horizon, l ≤ horizon ∧ pg.events = eventsPage pg.startLedger horizon pg.cursor chain)
    (hstored : ∀ key text, (key, text) ∈ φ'.stored → (key, text) ∈ φ.stored
      ∨ ∃ seconds, ((), ⟨.setEx key text seconds, .ok ()⟩) ∈ log) :
    Standing cfg chain start φ' b' log where
  node := hnode
  known c hc := (hknown c hc).elim (h.known c) id
  cursor c hc := (hcursor c hc).elim (h.cursor c) id
  persisted := hpersisted
  answered := hanswered
  pages l hl pg hpg := by
    rcases hpages with ⟨hchecked, hsame⟩ | hnil | ⟨hchecked, pg', hnew, hpg'⟩
    · exact h.pages l (hchecked ▸ hl) pg (hsame ▸ hpg)
    · rw [hnil] at hpg
      cases hpg
    · rw [hchecked] at hl
      rw [hnew] at hpg
      rcases List.mem_append.mp hpg with hold | hlast
      · exact h.pages l hl pg hold
      · rw [List.mem_singleton.mp hlast]
        exact hpg' l hl
  stored key text hmem := (hstored key text hmem).elim (h.stored key text) id

theorem Standing.answer {r : Except String (Reply q)} (h : Standing cfg chain start φ b log)
    (hallows : φ.allows cfg q) (hr : Answers b b' q r) :
    Standing cfg chain start (φ.next cfg q r) b' (log ++ [((), ⟨q, r⟩)]) := by
  have hlogged : ((), (⟨q, r⟩ : Exchange (Reply (W := K.setting)) String)) ∈ log ++ [((), ⟨q, r⟩)] :=
    List.mem_append_right _ List.mem_cons_self
  have hg := h.grow ((), ⟨q, r⟩)
  generalize log ++ [((), (⟨q, r⟩ : Exchange (Reply (W := K.setting)) String))] = log' at hg hlogged ⊢
  have hb : b' = b ∨ ∃ o v, exec o b q = some (v, b') := by
    rcases hr with ⟨o, v, -, hexec⟩ | ⟨e, -, hb⟩
    · exact .inr ⟨o, v, hexec⟩
    · exact hb
  have hnode : b'.world.chain = chain := by
    rcases hb with rfl | ⟨o, v, hexec⟩
    · exact hg.node
    · exact (node_of_exec hexec).1.trans hg.node
  have hpersisted : ∀ key text c, IsCursorKey cfg key → b'.get key = some text → K.ledger.fromStr text = .ok c →
      Covered chain start log' c := by
    rcases hb with rfl | ⟨o, v, hexec⟩
    · exact hg.persisted
    · exact hg.persisted_of_exec hallows hexec
  have hanswered : q ≠ .outside .getLatestLedger → ∀ l, φ.latest = some l → b'.world.lastAnswer = l := by
    intro hne l hl
    rcases hb with rfl | ⟨o, v, hexec⟩
    · exact hg.answered l hl
    · exact ((node_of_exec hexec).2 hne).trans (hg.answered l hl)
  -- a question that leaves the trail
  have hquiet : q ≠ .outside .getLatestLedger → Standing cfg chain start φ b' log' := fun hne =>
    hg.ofTrail hnode hpersisted (hanswered hne) (fun _ => .inl) (fun _ => .inl) (.inl ⟨rfl, rfl⟩) fun _ _ => .inl
  cases q with
  | get key f =>
      cases r with
      | error e => exact hquiet nofun
      | ok found =>
          have hfound : found = b.get key := by
            rcases hr with ⟨o, v, hv, hexec⟩ | ⟨e, he, -⟩
            · cases hv
              cases hexec
              rfl
            · cases he
          show Standing cfg chain start (φ.read cfg key found) b' log'
          unfold Trail.read
          split
          · exact hg.ofTrail hnode hpersisted (hanswered nofun) (fun _ => .inl) (fun _ => .inl) (.inr (.inl rfl))
              fun _ _ h => by cases h
          · split
            · rename_i hkey
              refine hg.ofTrail hnode hpersisted (hanswered nofun) (fun c hc => ?_) (fun _ => .inl) (.inl ⟨rfl, rfl⟩)
                fun _ _ => .inl
              refine (List.mem_append.mp hc).imp_right fun hc => ?_
              obtain ⟨text, htext, hread⟩ := fromStr_of_ledgerIn (Option.mem_toList.mp hc)
              exact hg.persisted key text c hkey (hfound ▸ htext) hread
            · exact hquiet nofun
  | setEx key text seconds =>
      cases r with
      | error e => exact hquiet nofun
      | ok u =>
          refine hg.ofTrail hnode hpersisted (hanswered nofun) (fun _ => .inl) (fun _ => .inl) (.inl ⟨rfl, rfl⟩) ?_
          intro key' text' hmem
          rcases List.mem_cons.mp hmem with heq | hold
          · cases heq
            exact .inr ⟨seconds, hlogged⟩
          · exact .inl hold
  | outside q =>
      cases q with
      | getLatestLedger =>
          refine hg.ofTrail hnode hpersisted (fun l hl => ?_) (fun c hc => .inl ?_) (fun c hc => .inl ?_) ?_
            fun key text hmem => .inl ?_
          · cases r with
            | error e => cases hl
            | ok latest =>
                obtain rfl := Option.some.inj hl
                rcases hr with ⟨o, v, hv, hexec⟩ | ⟨e, he, -⟩
                · cases hv
                  cases hexec
                  rfl
                · cases he
          · cases r <;> exact hc
          · cases r <;> exact hc
          · cases r <;> exact .inl ⟨rfl, rfl⟩
          · cases r <;> exact hmem
      | getEvents startLedger cursor =>
          cases r with
          | error e => exact hquiet nofun
          | ok events =>
              refine hg.ofTrail hnode hpersisted (hanswered nofun) (fun _ => .inl) (fun _ => .inl) (.inr (.inr ⟨rfl, _, rfl,
                fun l hl => ?_⟩)) fun _ _ => .inl
              obtain ⟨c, l', -, hlatest, hchecked, -⟩ := hallows
              obtain rfl : l = l' := Option.some.inj (hl.symm.trans hchecked)
              obtain ⟨horizon, hhorizon, hevents⟩ := page_of_answers hr
              exact ⟨horizon, hg.answered l hlatest ▸ hhorizon, hg.node ▸ hevents⟩
      | holdCursor cursor =>
          refine hg.ofTrail hnode hpersisted (hanswered nofun) (fun _ => .inl) (fun c hc => .inr ?_) (.inl ⟨rfl, rfl⟩)
            fun _ _ => .inl
          obtain rfl := Option.some.inj hc
          rcases hallows with ⟨-, rfl | hknown⟩ | hsynced
          · exact covered_of_le (Nat.zero_le _)
          · exact hg.known _ hknown
          · exact covered_of_synced hg.cursor hg.pages hg.stored hsynced
      | _ => exact hquiet nofun
  | _ => exact hquiet nofun

/-- Time passes, or other requests move the breaker. -/
theorem Standing.outside (h : Standing cfg chain start φ b log) (w : Outside) (hw : ∀ chain, w ≠ .reorg chain) :
    Standing cfg chain start φ (outside w b) log := by
  cases w with
  | reorg chain => exact absurd rfl (hw chain)
  | breaker failureCount openedAtMs => exact ⟨h.node, h.known, h.cursor, h.persisted, h.answered, h.pages, h.stored⟩
  | tick ms =>
      exact ⟨h.node, h.known, h.cursor, fun key text c hkey hget => h.persisted key text c hkey (get_of_tick hget),
        h.answered, h.pages, h.stored⟩

end Standings

/-! ## §3. Runs. -/

section Runs

variable {K : Crates} (cfg : SyncConfig)

/-- The loop's variable holds a cursor, or is being assigned it. -/
def InMemory (m : System K) (c : UInt32) : Prop :=
  (trailOf cfg m).cursor = some c ∨ (m.procs ()).map (·.question) = some (.outside (.holdCursor c))

/-- The cache holds it, as the cursor or as the checkpoint. -/
def Persisted (m : System K) (c : UInt32) : Prop :=
  ∃ key text, IsCursorKey cfg key ∧ m.store.get key = some text ∧ K.ledger.fromStr text = .ok c

/-- The cursor that a loop may find in the cache at first: the larger of the two. -/
def firstCursor (b : Backend K.setting) : Nat :=
  max ((ledgerIn (b.get (keys.chainSyncCursor cfg.network))).getD 0).toNat
    ((ledgerIn (b.get (keys.ledgerCheckpoint cfg.network))).getD 0).toNat

variable {cfg}

theorem le_firstCursor {b : Backend K.setting} {key : String} {text : K.Text} {c : UInt32} (hkey : IsCursorKey cfg key)
    (hget : b.get key = some text) (hread : K.ledger.fromStr text = .ok c) : c.toNat ≤ firstCursor cfg b := by
  have hin : (ledgerIn (b.get key)).getD 0 = c := by
    unfold ledgerIn
    rw [hget, Option.bind_some, hread]
    rfl
  unfold firstCursor
  rcases hkey with rfl | rfl <;> rw [hin] <;> omega

/-- **One step.** -/
theorem Standing.step {chain : EventChain} {start : Nat} {m : System K} {a : Action K}
    (h : Standing cfg chain start (trailOf cfg m) m.store m.log) (hm : Machine.Monitored (trailMonitor K cfg) m)
    (ha : ∀ chain, a ≠ .outside (.reorg chain)) :
    Standing cfg chain start (trailOf cfg (step K cfg m a)) (step K cfg m a).store (step K cfg m a).log :=
  trail_step hm h (fun _ _ _ h => h.restart) (fun q b' r _ hallows hr _ => h.answer hallows hr) fun w hw =>
    h.outside w fun chain heq => ha chain (by rw [hw, heq])

/-- **Every run** without a reorg. -/
theorem standing_run (cfg : SyncConfig) (b : Backend K.setting) (as : List (Action K))
    (has : ∀ a ∈ as, ∀ chain, a ≠ .outside (.reorg chain)) :
    Standing cfg b.world.chain (firstCursor cfg b) (trailOf cfg (run (step K cfg) (Machine.idle b) as))
      (run (step K cfg) (Machine.idle b) as).store (run (step K cfg) (Machine.idle b) as).log := by
  induction as using List.reverseRecOn with
  | nil =>
      exact standing_start rfl fun key text c hkey hget hread => covered_of_le (le_firstCursor hkey hget hread)
  | append_singleton as a ih =>
      rw [run_concat]
      refine (ih fun a' ha' => has a' (List.mem_append_left _ ha')).step ?_ (has a (List.mem_append_right _ List.mem_cons_self))
      exact Machine.monitored_run (fun _ task => obeys_runSyncLoop task) b as

/-- **The sync misses nothing.**  In a run without a reorg, wherever a cursor
stands, in the loop or in the cache, every event up to it has been stored. -/
theorem cursor_covered (cfg : SyncConfig) (b : Backend K.setting) (as : List (Action K))
    (has : ∀ a ∈ as, ∀ chain, a ≠ .outside (.reorg chain)) (c : UInt32)
    (hc : InMemory cfg (run (step K cfg) (Machine.idle b) as) c ∨ Persisted cfg (run (step K cfg) (Machine.idle b) as) c) :
    ∀ e ∈ b.world.chain.events, firstCursor cfg b < e.sequence → e.sequence ≤ c.toNat →
      EventStored (run (step K cfg) (Machine.idle b) as).log (.ofValue e) := by
  have hs := standing_run cfg b as has
  have hm : Machine.Monitored (trailMonitor K cfg) (run (step K cfg) (Machine.idle b) as) :=
    Machine.monitored_run (fun _ task => obeys_runSyncLoop task) b as
  rcases hc with (hcursor | hassigned) | ⟨key, text, hkey, hget, hread⟩
  · exact hs.cursor c hcursor
  · obtain ⟨l, hl, hq⟩ := Option.map_eq_some_iff.mp hassigned
    have hallows := (hm () l hl).1
    rw [hq] at hallows
    rcases hallows with ⟨-, rfl | hknown⟩ | hsynced
    · exact covered_of_le (Nat.zero_le _)
    · exact hs.known c hknown
    · exact covered_of_synced hs.cursor hs.pages hs.stored hsynced
  · exact hs.persisted key text c hkey hget hread

end Runs

/-! ## §4. A chain with one event. -/

/-- JSON texts of ledgers and events. -/
inductive SyncText where
  | ledger (n : UInt32)
  | event (e : ContractEvent)
  | other
  deriving DecidableEq

def SyncText.ledgers : Serde SyncText UInt32 where
  toString n := .ok (.ledger n)
  fromStr
    | .ledger n => .ok n
    | _ => .error "expected u32"

def SyncText.events : Serde SyncText ContractEvent where
  toString e := .ok (.event e)
  fromStr
    | .event e => .ok e
    | _ => .error "expected event"

@[reducible] def sampleCrates : Crates where
  Text := SyncText
  Data := Unit
  ledger := SyncText.ledgers
  event := SyncText.events
  data := ⟨fun _ => .ok .other, fun _ => .error "not read"⟩
  ledgerEntry := ⟨fun _ => .ok .other, fun _ => .error "not read"⟩
  eventEntry := ⟨fun _ => .ok .other, fun _ => .error "not read"⟩
  dataEntry := ⟨fun _ => .ok .other, fun _ => .error "not read"⟩
  ofInt _ := .other
  toInt _ := none
  ledger_roundTrip n text h := by
    cases h
    rfl
  event_roundTrip e text h := by
    cases h
    rfl

def sampleSyncConfig : SyncConfig where
  cache := sampleConfig
  network := "testnet"
  confirmationLedgerLag := 3
  syncMarketIds := []
  eventPollIntervalMs := 5000
  marketKey marketId := "market:" ++ toString marketId
  oracleResultKey marketId := "oracle_result:" ++ toString marketId
  platformStatsKey := "platform_stats"

def sampleEvent : EventValue := ⟨some "e1", some 50, none, none, "\x7b\x7d"⟩

def sampleChain : EventChain where
  events := [sampleEvent]
  identified := by decide
  distinct := by decide
  ordered := by decide

def sampleNode (chain : EventChain) : Backend sampleCrates.setting where
  nowMs := 1700000000000
  world := ⟨chain, 0⟩

/-- The node has come to a ledger, and knows all events up to it. -/
def atLedger (n : UInt32) : Cache.Choice sampleCrates.setting := ⟨false, ⟨n, n, (), .ok (), 0, []⟩⟩

/-- The loop goes round once, on ledger 100. -/
def sampleSync : List (Action sampleCrates) := .start () ⟨1, 1⟩ :: List.replicate 80 (.answer () (atLedger 100))

theorem sampleSync_covered :
    EventStored (run (step sampleCrates sampleSyncConfig) (Machine.idle (sampleNode sampleChain)) sampleSync).log
      (.ofValue sampleEvent) := by
  refine cursor_covered sampleSyncConfig (sampleNode sampleChain) sampleSync ?_ 97
    (.inr ⟨keys.chainSyncCursor "testnet", .ledger 97, .inl rfl, by decide +kernel, rfl⟩)
    sampleEvent List.mem_cons_self (by decide +kernel) (by decide +kernel)
  intro a ha chain
  rcases List.mem_cons.mp ha with rfl | ha
  · exact nofun
  · rw [List.eq_of_mem_replicate ha]
    exact nofun

end PredictIQ.Chain
