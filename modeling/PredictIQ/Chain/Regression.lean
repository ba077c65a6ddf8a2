/-
  PredictIQ.Chain.Regression: the chain falls back.

  The loop purges the cached chain data when the latest ledger has fallen
  back.  A `getLatestLedger` that fails is replaced by the cursor, which may be
  far behind the ledger seen last: `SoundCheck` is the condition under which
  this does no harm, and `purges_on_regression` says that a purge then follows
  a real regression (`sampleOutage_purges` is one that does not).

  After a purge the loop goes on from its old cursor: `resynced_iff` says that
  when it has caught up, it has stored the events of the new chain between the
  fallen ledger and that cursor only if there are none (`sampleFork_lost`).
-/
import PredictIQ.Chain.SyncCoverage

namespace PredictIQ.Chain

open Foundation Cache

/-! ## §1. Ledgers and answers. -/

section Bounds

variable {K : Crates} {log log' : Log K} {c : UInt32}

/-- `getLatestLedger` has answered a ledger. -/
def Answered (log : Log K) (p : UInt32) : Prop := ((), ⟨.outside .getLatestLedger, .ok p⟩) ∈ log

/-- A ledger is zero, or not above an answer. -/
def Bounded (log : Log K) (c : UInt32) : Prop := c = 0 ∨ ∃ p, Answered log p ∧ c.toNat ≤ p.toNat

theorem Bounded.mono (h : Bounded log c) (hlog : log ⊆ log') : Bounded log' c :=
  h.imp_right fun ⟨p, hp, hle⟩ => ⟨p, hlog hp, hle⟩

theorem bounded_tip (h : Answered log c) (lag : UInt32) : Bounded log (saturatingSub c lag) :=
  .inr ⟨c, h, by rw [toNat_saturatingSub]; omega⟩

/-- The keys that hold a ledger. -/
def IsLedgerKey (cfg : SyncConfig) (key : String) : Prop :=
  key = keys.chainLastSeenLedger cfg.network ∨ IsCursorKey cfg key

/-- A check of the ledger seen last comes out right: where `latest + lag` is
below it, `latest` is an answer of the RPC, and the sum has not wrapped. -/
def SoundCheck (cfg : SyncConfig) (m : System K) (a : Action K) : Prop :=
  ∀ f, m.performs a = some (.get (keys.chainLastSeenLedger cfg.network) f) →
    fallenBack cfg (trailOf cfg m).basis
        ((ledgerIn (m.store.get (keys.chainLastSeenLedger cfg.network))).getD 0) = true →
    ∃ l, (trailOf cfg m).latest = some l ∧ l.toNat + cfg.confirmationLedgerLag.toNat < 2 ^ 32

/-- Nothing is known of the chain. -/
def Blank (cfg : SyncConfig) (b : Backend K.setting) : Prop := ∀ key, IsLedgerKey cfg key → b.get key = none

end Bounds

/-! ## §2. What the loop may purge for. -/

section Grounds

variable {K : Crates} {cfg : SyncConfig} {log : Log K} {φ : Trail K} {b b' : Backend K.setting} {q : Command K.setting}

/-- All ledgers come from answers, and a check that calls for a purge is sound. -/
structure Grounded (cfg : SyncConfig) (φ : Trail K) (b : Backend K.setting) (log : Log K) : Prop where
  known : ∀ c ∈ φ.known, Bounded log c
  cursor : ∀ c, φ.cursor = some c → Bounded log c
  latest : ∀ l, φ.latest = some l → Answered log l
  checked : ∀ l, φ.checked = some l → Answered log l
  previous : Bounded log φ.previous
  persisted : ∀ key text c, IsLedgerKey cfg key → b.get key = some text → K.ledger.fromStr text = .ok c →
    Bounded log c
  sound : fallenBack cfg φ.basis φ.previous = true →
    ∃ l, φ.latest = some l ∧ l.toNat + cfg.confirmationLedgerLag.toNat < 2 ^ 32

theorem not_fallenBack_zero (latest : UInt32) : fallenBack cfg latest 0 ≠ true := by
  simp [fallenBack]

theorem grounded_start (hpersisted : ∀ key text c, IsLedgerKey cfg key → b.get key = some text →
    K.ledger.fromStr text = .ok c → Bounded log c) : Grounded cfg (trailMonitor K cfg).start b log where
  known _ hc := by cases hc
  cursor _ hc := by cases hc
  latest _ hl := by cases hl
  checked _ hl := by cases hl
  previous := .inl rfl
  persisted := hpersisted
  sound h := absurd h (not_fallenBack_zero _)

theorem Grounded.grow (h : Grounded cfg φ b log) (x : Unit × Exchange (Reply (W := K.setting)) String) :
    Grounded cfg φ b (log ++ [x]) := by
  have hlog : log ⊆ log ++ [x] := List.subset_append_left _ _
  exact ⟨fun c hc => (h.known c hc).mono hlog, fun c hc => (h.cursor c hc).mono hlog, fun l hl => hlog (h.latest l hl),
    fun l hl => hlog (h.checked l hl), h.previous.mono hlog,
    fun key text c hkey hget hread => (h.persisted key text c hkey hget hread).mono hlog, h.sound⟩

/-- What stands for the latest ledger is an answer, or the cursor. -/
theorem Grounded.basis (h : Grounded cfg φ b log) : Bounded log φ.basis := by
  unfold Trail.basis
  cases hlatest : φ.latest with
  | some l => exact .inr ⟨l, h.latest l hlatest, le_rfl⟩
  | none =>
      cases hcursor : φ.cursor with
      | some c => exact h.cursor c hcursor
      | none => exact .inl rfl

/-- What is written under a ledger's key is bounded. -/
theorem Grounded.leaves (h : Grounded cfg φ b log) (hallows : φ.allows cfg q) {key : String} {text : K.Text}
    {n : UInt32} (hkey : IsLedgerKey cfg key) (hleaves : q.Leaves key text) (hread : K.ledger.fromStr text = .ok n) :
    Bounded log n := by
  rcases hkey with rfl | hkey
  · cases q with
    | setEx k t seconds =>
        obtain ⟨rfl, rfl⟩ := hleaves
        generalize hk : keys.chainLastSeenLedger cfg.network = k at hallows
        have hslot : slot k = ['l', 'a'] := by rw [← hk]; simp
        cases hallows with
        | lastSeen _ _ htext =>
            rw [K.ledger_roundTrip _ _ htext] at hread
            cases hread
            exact h.basis
        | syncCursor => simp at hslot
        | checkpoint => simp at hslot
        | event => simp at hslot
        | refresh hrefresh =>
            have hmem := hrefresh.slot_mem
            rw [hslot] at hmem
            simp at hmem
    | setNxEx k t seconds =>
        obtain ⟨hk, rfl⟩ := hleaves
        obtain ⟨k', rfl⟩ := hallows
        have hslot := congrArg slot hk
        simp at hslot
    | incrWithTtl k seconds => exact hallows.elim
    | _ => exact hleaves.elim
  · obtain ⟨c, hc, htext⟩ := cursor_of_leaves hkey hallows hleaves
    rw [K.ledger_roundTrip c text htext] at hread
    cases hread
    exact h.cursor _ hc

/-- **One answer.** -/
theorem Grounded.answer {r : Except String (Reply q)} (h : Grounded cfg φ b log) (hallows : φ.allows cfg q)
    (hr : Answers b b' q r)
    (hcheck : ∀ f, q = .get (keys.chainLastSeenLedger cfg.network) f → (∃ v, r = .ok v) →
      fallenBack cfg φ.basis ((ledgerIn (b.get (keys.chainLastSeenLedger cfg.network))).getD 0) = true →
      ∃ l, φ.latest = some l ∧ l.toNat + cfg.confirmationLedgerLag.toNat < 2 ^ 32) :
    Grounded cfg (φ.next cfg q r) b' (log ++ [((), ⟨q, r⟩)]) := by
  have hlogged : ((), (⟨q, r⟩ : Exchange (Reply (W := K.setting)) String)) ∈ log ++ [((), ⟨q, r⟩)] :=
    List.mem_append_right _ List.mem_cons_self
  have hg := h.grow ((), ⟨q, r⟩)
  generalize log ++ [((), (⟨q, r⟩ : Exchange (Reply (W := K.setting)) String))] = log' at hg hlogged ⊢
  have hpersisted : ∀ key text c, IsLedgerKey cfg key → b'.get key = some text → K.ledger.fromStr text = .ok c →
      Bounded log' c := by
    have hexec : ∀ {o v}, exec o b q = some (v, b') → ∀ key text c, IsLedgerKey cfg key → b'.get key = some text →
        K.ledger.fromStr text = .ok c → Bounded log' c := by
      intro o v hexec key text c hkey hget hread
      rcases get_of_exec hexec hget with hold | hnew
      · exact hg.persisted key text c hkey hold hread
      · exact hg.leaves hallows hkey hnew hread
    rcases hr with ⟨o, v, -, h⟩ | ⟨e, -, rfl | ⟨o, v, h⟩⟩
    · exact hexec h
    · exact hg.persisted
    · exact hexec h
  have hquiet : Grounded cfg φ b' log' :=
    ⟨hg.known, hg.cursor, hg.latest, hg.checked, hg.previous, hpersisted, hg.sound⟩
  cases q with
  | get key f =>
      cases r with
      | error e => exact hquiet
      | ok found =>
          have hfound : found = b.get key := by
            rcases hr with ⟨o, v, hv, hexec⟩ | ⟨e, he, -⟩
            · cases hv
              cases hexec
              rfl
            · cases he
          have hin : ∀ c, ledgerIn found = some c → IsLedgerKey cfg key → Bounded log' c := by
            intro c hc hkey
            obtain ⟨text, htext, hread⟩ := fromStr_of_ledgerIn hc
            exact hg.persisted key text c hkey (hfound ▸ htext) hread
          show Grounded cfg (φ.read cfg key found) b' log'
          unfold Trail.read
          split
          · rename_i hkey
            subst hkey
            refine ⟨hg.known, hg.cursor, hg.latest, hg.latest, ?_, hpersisted, fun hback => ?_⟩
            · cases hread : ledgerIn found with
              | none => exact .inl rfl
              | some c => exact hin c hread (.inl rfl)
            · exact hcheck f rfl ⟨found, rfl⟩ (hfound ▸ hback)
          · split
            · rename_i hkey
              refine ⟨fun c hc => ?_, hg.cursor, hg.latest, hg.checked, hg.previous, hpersisted, hg.sound⟩
              rcases List.mem_append.mp hc with hold | hnew
              · exact hg.known c hold
              · exact hin c (Option.mem_toList.mp hnew) (.inr hkey)
            · exact hquiet
  | setEx key text seconds =>
      cases r with
      | error e => exact hquiet
      | ok u => exact ⟨hg.known, hg.cursor, hg.latest, hg.checked, hg.previous, hpersisted, hg.sound⟩
  | outside q =>
      cases q with
      | getLatestLedger =>
          cases r with
          | error e =>
              refine ⟨hg.known, hg.cursor, fun l hl => ?_, hg.checked, .inl rfl, hpersisted,
                fun hback => absurd hback (not_fallenBack_zero _)⟩
              cases hl
          | ok latest =>
              refine ⟨hg.known, hg.cursor, fun l hl => ?_, hg.checked, .inl rfl, hpersisted,
                fun hback => absurd hback (not_fallenBack_zero _)⟩
              obtain rfl := Option.some.inj hl
              exact hlogged
      | getEvents startLedger cursor =>
          cases r with
          | error e => exact hquiet
          | ok events => exact ⟨hg.known, hg.cursor, hg.latest, hg.checked, hg.previous, hpersisted, hg.sound⟩
      | holdCursor cursor =>
          refine ⟨hg.known, fun c hc => ?_, hg.latest, hg.checked, .inl rfl, hpersisted,
            fun hback => absurd hback (not_fallenBack_zero _)⟩
          obtain rfl := Option.some.inj hc
          rcases hallows with ⟨-, rfl | hknown⟩ | ⟨old, latest, -, hchecked, rfl, -⟩
          · exact .inl rfl
          · exact hg.known _ hknown
          · exact bounded_tip (hg.checked latest hchecked) _
      | _ => exact hquiet
  | _ => exact hquiet

/-- Time passes, the breaker is moved, or the chain is reorganised. -/
theorem Grounded.outside (h : Grounded cfg φ b log) (w : Outside) : Grounded cfg φ (outside w b) log := by
  refine ⟨h.known, h.cursor, h.latest, h.checked, h.previous, fun key text c hkey hget => ?_, h.sound⟩
  refine h.persisted key text c hkey ?_
  cases w with
  | breaker failureCount openedAtMs => exact hget
  | reorg chain => exact hget
  | tick ms => exact get_of_tick hget

/-- **One step**, whose check is sound. -/
theorem Grounded.step {m : System K} {a : Action K} (h : Grounded cfg (trailOf cfg m) m.store m.log)
    (hm : Machine.Monitored (trailMonitor K cfg) m) (ha : SoundCheck cfg m a) :
    Grounded cfg (trailOf cfg (step K cfg m a)) (step K cfg m a).store (step K cfg m a).log := by
  refine trail_step hm h (fun _ _ _ h => grounded_start h.persisted) (fun q b' r _ hallows hr hperforms => ?_)
    fun w _ => h.outside w
  refine h.answer hallows hr fun f hq hv => ?_
  obtain ⟨v, hv⟩ := hv
  exact ha f (hq ▸ hperforms v hv)

end Grounds

/-! ## §3. A purge follows a real regression. -/

section Regressions

variable {K : Crates} (cfg : SyncConfig)

/-- The loop is about to look for the keys to purge. -/
def Purging (m : System K) : Prop := ∃ cursor, (m.procs ()).map (·.question) = some (.scan cursor keys.chainPrefix)

/-- The RPC has answered the loop a ledger far behind an earlier answer. -/
def Regressed (m : System K) : Prop :=
  ∃ l p, (trailOf cfg m).latest = some l ∧ Answered m.log p ∧ l.toNat + cfg.confirmationLedgerLag.toNat < p.toNat

/-- Every check of the ledger seen last comes out right. -/
def SoundChecks (b : Backend K.setting) (as : List (Action K)) : Prop :=
  ∀ t ∈ trace (step K cfg) (Machine.idle b) as, SoundCheck cfg t.pre t.act

variable {cfg}

/-- **Every run** whose checks are sound. -/
theorem grounded_run {b : Backend K.setting} (hblank : Blank cfg b) (as : List (Action K)) (has : SoundChecks cfg b as) :
    Grounded cfg (trailOf cfg (run (step K cfg) (Machine.idle b) as)) (run (step K cfg) (Machine.idle b) as).store
      (run (step K cfg) (Machine.idle b) as).log := by
  refine (run_invariant_of (step K cfg) (fun m => Machine.Monitored (trailMonitor K cfg) m
    ∧ Grounded cfg (trailOf cfg m) m.store m.log) (fun t => SoundCheck cfg t.pre t.act)
    ⟨Machine.monitored_idle b, grounded_start fun key text c hkey hget => ?_⟩ (fun m a h ha => ?_) as has).2
  · cases (hblank key hkey).symm.trans hget
  · exact ⟨Machine.Monitored.step (fun _ task => obeys_runSyncLoop task) h.1 a, h.2.step h.1 ha⟩

/-- What a purge rests on. -/
theorem Grounded.regressed {m : System K} (h : Grounded cfg (trailOf cfg m) m.store m.log)
    (hpurges : (trailOf cfg m).Purges cfg) : Regressed cfg m := by
  obtain ⟨-, -, -, hback⟩ := hpurges
  obtain ⟨l, hl, hsum⟩ := h.sound hback
  have hbasis : (trailOf cfg m).basis = l := by
    unfold Trail.basis
    rw [hl]
    rfl
  simp only [fallenBack, hbasis, Bool.and_eq_true, decide_eq_true_eq, UInt32.lt_iff_toNat_lt, UInt32.toNat_add] at hback
  have hzero : (0 : UInt32).toNat = 0 := rfl
  rw [hzero, Nat.mod_eq_of_lt hsum] at hback
  -- the ledger seen last is at most an answer
  obtain ⟨p, hp, hle⟩ := h.previous.resolve_left fun heq => by
    rw [heq] at hback
    exact absurd hback.1 (Nat.lt_irrefl 0)
  exact ⟨l, p, hl, hp, by omega⟩

/-- **Only a real regression purges**, where the checks are sound. -/
theorem purges_on_regression (cfg : SyncConfig) (b : Backend K.setting) (hblank : Blank cfg b) (as : List (Action K))
    (has : SoundChecks cfg b as) (hpurging : Purging (run (step K cfg) (Machine.idle b) as)) :
    Regressed cfg (run (step K cfg) (Machine.idle b) as) := by
  obtain ⟨cursor, hq⟩ := hpurging
  obtain ⟨l, hl, hq⟩ := Option.map_eq_some_iff.mp hq
  have hallows := (Machine.monitored_run (M := trailMonitor K cfg) (fun _ task => obeys_runSyncLoop task) b as () l hl).1
  rw [hq] at hallows
  exact (grounded_run hblank as has).regressed hallows.2

end Regressions

/-! ## §4. What is fetched after a purge. -/

section Refetching

variable {K : Crates} {cfg : SyncConfig} {φ : Trail K} {b b' : Backend K.setting} {q : Command K.setting}
  {log : Log K} {c : UInt32} {n : Nat}

theorem ofValue_injective : Function.Injective ContractEvent.ofValue := fun _ _ h => congrArg ContractEvent.value h

/-- The loop has gone on from cursor `c`, since the log had `n` answers. -/
structure Resuming (c : UInt32) (n : Nat) (φ : Trail K) (log : Log K) : Prop where
  cursor : ∃ c', φ.cursor = some c' ∧ c ≤ c'
  pages : ∀ e ∈ eventsOf φ.pages, c.toNat < e.sequence
  since : n ≤ log.length
  stored : ∀ id text seconds, ((), ⟨.setEx (keys.event id) text seconds, .ok ()⟩) ∈ log.drop n →
    ∃ e : EventValue, c.toNat < e.sequence ∧ K.event.toString (.ofValue e) = .ok text

theorem mem_drop_concat {α : Type} {xs : List α} {n : Nat} (hn : n ≤ xs.length) {x y : α}
    (h : y ∈ (xs ++ [x]).drop n) : y ∈ xs.drop n ∨ y = x := by
  rw [List.drop_append_of_le_length hn] at h
  exact (List.mem_append.mp h).imp_right List.mem_singleton.mp

/-- An event that is written comes from a page. -/
theorem event_of_writes {id : String} {text : K.Text} (h : φ.Writes cfg (keys.event id) text) :
    ∃ e ∈ eventsOf φ.pages, K.event.toString (.ofValue e) = .ok text := by
  generalize hk : keys.event id = key at h
  have hslot : slot key = ['e', 'v'] := by rw [← hk]; simp
  cases h with
  | event he htext => exact ⟨_, he, htext⟩
  | lastSeen => simp at hslot
  | syncCursor => simp at hslot
  | checkpoint => simp at hslot
  | refresh hrefresh =>
      have hmem := hrefresh.slot_mem
      rw [hslot] at hmem
      simp at hmem

/-- **One answer.** -/
theorem Resuming.answer {r : Except String (Reply q)} (h : Resuming c n φ log) (hallows : φ.allows cfg q)
    (hr : Answers b b' q r) : Resuming c n (φ.next cfg q r) (log ++ [((), ⟨q, r⟩)]) := by
  obtain ⟨x, hx⟩ : ∃ x : Unit × Exchange (Reply (W := K.setting)) String, x = ((), ⟨q, r⟩) := ⟨_, rfl⟩
  rw [← hx]
  have hsince : n ≤ (log ++ [x]).length := h.since.trans (List.length_append ▸ Nat.le_add_right _ _)
  have hstored : ∀ id text seconds, ((), ⟨.setEx (keys.event id) text seconds, .ok ()⟩) ∈ (log ++ [x]).drop n →
      ∃ e : EventValue, c.toNat < e.sequence ∧ K.event.toString (.ofValue e) = .ok text := by
    intro id text seconds hmem
    rcases mem_drop_concat h.since hmem with hold | hnew
    · exact h.stored id text seconds hold
    · cases hnew.trans hx
      obtain ⟨e, he, htext⟩ := event_of_writes hallows
      exact ⟨e, h.pages e he, htext⟩
  -- where the cursor and the pages are left
  have hkept : ∀ {φ' : Trail K}, φ'.cursor = φ.cursor → (φ'.pages = φ.pages ∨ φ'.pages = []) →
      Resuming c n φ' (log ++ [x]) := by
    intro φ' hcursor hpages
    refine ⟨hcursor ▸ h.cursor, ?_, hsince, hstored⟩
    rcases hpages with hpages | hpages <;> rw [hpages]
    · exact h.pages
    · exact nofun
  cases q with
  | get key f =>
      cases r with
      | error e => exact hkept rfl (.inl rfl)
      | ok found =>
          show Resuming c n (φ.read cfg key found) _
          unfold Trail.read
          split
          · exact hkept rfl (.inr rfl)
          · split <;> exact hkept rfl (.inl rfl)
  | setEx key text seconds => cases r <;> exact hkept rfl (.inl rfl)
  | outside q =>
      cases q with
      | getLatestLedger => cases r <;> exact hkept rfl (.inl rfl)
      | getEvents startLedger cursor =>
          cases r with
          | error e => exact hkept rfl (.inl rfl)
          | ok events =>
              refine ⟨h.cursor, fun e he => ?_, hsince, hstored⟩
              have he : e ∈ eventsOf (φ.pages ++ [⟨startLedger, cursor, events⟩]) := he
              rw [eventsOf_append] at he
              rcases List.mem_append.mp he with hold | hnew
              · exact h.pages e hold
              · obtain ⟨c', l, hc', -, -, htip, rfl⟩ := hallows
                obtain ⟨c'', hc'', hle⟩ := h.cursor
                obtain rfl : c' = c'' := Option.some.inj (hc'.symm.trans hc'')
                have hle := UInt32.le_iff_toNat_le.mp hle
                have hnext := toNat_add_one_of_lt htip
                obtain ⟨horizon, -, rfl⟩ := page_of_answers hr
                have hreach := (Pages.reach_of_mem_page (show e ∈ eventsPage _ horizon cursor _ by
                  simpa [eventsOf] using hnew)).2
                simp only [inReach, Bool.and_eq_true, decide_eq_true_eq] at hreach
                omega
      | holdCursor cursor =>
          obtain ⟨c', hc', hle⟩ := h.cursor
          refine ⟨⟨cursor, rfl, ?_⟩, h.pages, hsince, hstored⟩
          rcases hallows with ⟨hnone, -⟩ | ⟨old, latest, hold, -, -, hlt, -⟩
          · cases hc'.symm.trans hnone
          · obtain rfl : c' = old := Option.some.inj (hc'.symm.trans hold)
            rw [UInt32.lt_iff_toNat_lt] at hlt
            rw [UInt32.le_iff_toNat_le] at hle ⊢
            omega
      | _ => exact hkept rfl (.inl rfl)
  | _ => exact hkept rfl (.inl rfl)

/-- **One step** of a loop that is not started again. -/
theorem Resuming.step {m : System K} {a : Action K} (h : Resuming c n (trailOf cfg m) m.log)
    (hm : Machine.Monitored (trailMonitor K cfg) m) (ha : ∀ task, a ≠ .start () task) :
    (Chain.step K cfg m a).procs () = none
      ∨ Resuming c n (trailOf cfg (Chain.step K cfg m a)) (Chain.step K cfg m a).log := by
  unfold Chain.step
  rcases m.step_cases (server K.setting) (fun _ task => runSyncLoop K cfg task) Chain.outside a with hstep
    | ⟨p, task, rfl, -, -⟩ | ⟨p, l, b', r, hasker, hl, hr, hstep⟩ | ⟨p, rfl, hstep⟩ | ⟨w, rfl, hstep⟩
  · rw [hstep]
    exact .inr h
  · exact absurd rfl (ha task)
  · rw [hstep]
    have hnext := h.answer (hm p l hl).1 (answers_of_reply hasker hr)
    unfold trailOf
    rw [Machine.phase_deliver (trailMonitor K cfg) hl, Function.update_self]
    cases hrest : l.rest r with
    | done res =>
        refine .inl ?_
        simp [Machine.deliver, hrest, Live.of]
    | ask q k => exact .inr hnext
  · rw [hstep]
    exact .inl (by simp [Machine.halt])
  · rw [hstep]
    exact .inr h

variable (cfg) in
/-- **Every run** of a loop that is not started again. -/
theorem resuming_run {m : System K} (h : Resuming c n (trailOf cfg m) m.log)
    (hm : Machine.Monitored (trailMonitor K cfg) m) (as : List (Action K)) (has : ∀ task, .start () task ∉ as) :
    (run (step K cfg) m as).procs () = none
      ∨ Resuming c n (trailOf cfg (run (step K cfg) m as)) (run (step K cfg) m as).log := by
  refine (run_invariant_of (step K cfg) (fun m => Machine.Monitored (trailMonitor K cfg) m ∧ (m.procs () = none
    ∨ Resuming c n (trailOf cfg m) m.log)) (fun t => ∀ task, t.act ≠ .start () task) ⟨hm, .inr h⟩ ?_ as ?_).2
  · rintro m a ⟨hm, h⟩ ha
    refine ⟨hm.step (fun _ task => obeys_runSyncLoop task) a, ?_⟩
    rcases h with hnone | h
    · exact .inl (Machine.procs_step_eq_none _ _ _ hnone ha)
    · exact h.step hm ha
  · intro t ht task ht'
    exact has task (ht' ▸ act_mem_of_mem_trace _ ht)

variable (cfg) in
/-- The cursor is beyond where it stood. -/
def CaughtUp (m m' : System K) : Prop :=
  ∃ c c', (trailOf cfg m).cursor = some c ∧ (trailOf cfg m').cursor = some c' ∧ c < c'

variable (cfg) in
/-- Behind the latest ledger, and not behind the cursor. -/
def Between (m : System K) (e : EventValue) : Prop :=
  (trailOf cfg m).basis.toNat < e.sequence ∧ ∃ c, (trailOf cfg m).cursor = some c ∧ e.sequence ≤ c.toNat

variable (cfg) in
/-- When the loop has caught up, it has stored the events between again. -/
def Resynced (m m' : System K) : Prop :=
  CaughtUp cfg m m' → ∀ e ∈ m'.store.world.chain.events, Between cfg m e →
    EventStored (m'.log.drop m.log.length) (.ofValue e)

/-- What is stored since is behind the cursor. -/
theorem Resuming.sequence_lt (h : Resuming c n φ log) {e : EventValue} (he : EventStored (log.drop n) (.ofValue e)) :
    c.toNat < e.sequence := by
  obtain ⟨text, seconds, htext, hmem⟩ := he
  obtain ⟨e', hlt, htext'⟩ := h.stored _ text seconds hmem
  have heq := (K.event_roundTrip _ _ htext).symm.trans (K.event_roundTrip _ _ htext')
  rwa [ofValue_injective (Except.ok.inj heq)]

/-- **Nothing is fetched again**, when the loop has caught up. -/
theorem not_stored_between {b : Backend K.setting} {before after : List (Action K)}
    (hpurging : Purging (run (step K cfg) (Machine.idle b) before)) (hafter : ∀ task, .start () task ∉ after)
    (hcaught : CaughtUp cfg (run (step K cfg) (Machine.idle b) before) (run (step K cfg) (Machine.idle b) (before ++ after)))
    {e : EventValue} (hbetween : Between cfg (run (step K cfg) (Machine.idle b) before) e) :
    ¬EventStored ((run (step K cfg) (Machine.idle b) (before ++ after)).log.drop
      (run (step K cfg) (Machine.idle b) before).log.length) (.ofValue e) := by
  intro hstored
  rw [run_append] at hcaught hstored
  have hm : Machine.Monitored (trailMonitor K cfg) (run (step K cfg) (Machine.idle b) before) :=
    Machine.monitored_run (fun _ task => obeys_runSyncLoop task) b before
  generalize run (step K cfg) (Machine.idle b) before = m at *
  obtain ⟨-, c, hc, hle⟩ := hbetween
  have hresuming : Resuming c m.log.length (trailOf cfg m) m.log := by
    obtain ⟨cursor, hq⟩ := hpurging
    obtain ⟨l, hl, hq⟩ := Option.map_eq_some_iff.mp hq
    have hallows := (hm () l hl).1
    rw [hq] at hallows
    obtain ⟨-, -, hpages, -⟩ := hallows
    have hpages : (trailOf cfg m).pages = [] := hpages
    refine ⟨⟨c, hc, UInt32.le_refl c⟩, ?_, le_rfl, ?_⟩
    · rw [hpages]
      exact nofun
    · rw [List.drop_length]
      exact nofun
  rcases resuming_run cfg hresuming hm after hafter with hnone | h'
  · -- a loop that has ended has no cursor
    obtain ⟨-, c', -, hc', -⟩ := hcaught
    have hstart : (trailOf cfg (run (step K cfg) m after)).cursor = none := by
      unfold trailOf Machine.phase
      rw [hnone]
      rfl
    cases hc'.symm.trans hstart
  · have hlt := h'.sequence_lt hstored
    omega

/-- **After a purge** the loop has, when it has caught up, what lies between
only if nothing does. -/
theorem resynced_iff (cfg : SyncConfig) (b : Backend K.setting) (before after : List (Action K))
    (hpurging : Purging (run (step K cfg) (Machine.idle b) before)) (hafter : ∀ task, .start () task ∉ after) :
    Resynced cfg (run (step K cfg) (Machine.idle b) before) (run (step K cfg) (Machine.idle b) (before ++ after))
      ↔ (CaughtUp cfg (run (step K cfg) (Machine.idle b) before) (run (step K cfg) (Machine.idle b) (before ++ after)) →
        ∀ e ∈ (run (step K cfg) (Machine.idle b) (before ++ after)).store.world.chain.events,
          ¬Between cfg (run (step K cfg) (Machine.idle b) before) e) := by
  refine forall_congr' fun hcaught => forall₂_congr fun e _ => ⟨fun h hbetween => ?_, fun h hbetween => absurd hbetween h⟩
  exact not_stored_between hpurging hafter hcaught hbetween (h hbetween)

end Refetching

/-! ## §5. Samples. -/

/-- The RPC fails. -/
def outOf (what : String) : Action sampleCrates := .refuse () what

/-- The events cannot be fetched from ledger 100, and then the node is back on ledger 50. -/
def sampleRegression : List (Action sampleCrates) :=
  .start () ⟨2, 1⟩ :: List.replicate 17 (.answer () (atLedger 100)) ++ outOf "getEvents" :: .answer () (atLedger 100)
    :: List.replicate 9 (.answer () (atLedger 50))

/-- The events cannot be fetched from ledger 200, and then the latest ledger cannot either. -/
def sampleOutage : List (Action sampleCrates) :=
  .start () ⟨2, 1⟩ :: List.replicate 17 (.answer () (atLedger 200)) ++ outOf "getEvents" :: .answer () (atLedger 200)
    :: outOf "getLatestLedger" :: List.replicate 8 (.answer () (atLedger 200))

abbrev sampleAfter (as : List (Action sampleCrates)) : System sampleCrates :=
  run (step sampleCrates sampleSyncConfig) (Machine.idle (sampleNode sampleChain)) as

/-- `Purging`, as a test. -/
def isPurging (m : System sampleCrates) : Bool :=
  (m.procs ()).any fun l => match l.question with
    | .scan _ start => start = keys.chainPrefix
    | _ => false

theorem purging_of_isPurging {m : System sampleCrates} (h : isPurging m = true) : Purging m := by
  unfold isPurging at h
  cases hl : m.procs () with
  | none => simp [hl] at h
  | some l =>
      rw [hl, Option.any_some] at h
      unfold Purging
      rw [hl]
      split at h
      · rename_i cursor start hq
        exact ⟨cursor, by rw [Option.map_some, hq, of_decide_eq_true h]⟩
      · cases h

/-- `SoundCheck`, as a test. -/
def isSoundCheck (m : System sampleCrates) (a : Action sampleCrates) : Bool :=
  match m.performs a with
  | some (.get key _) =>
      let previous := (ledgerIn (K := sampleCrates) (m.store.get key)).getD 0
      !fallenBack sampleSyncConfig (trailOf sampleSyncConfig m).basis previous
        || (trailOf sampleSyncConfig m).latest.any fun l => l.toNat + sampleSyncConfig.confirmationLedgerLag.toNat < 2 ^ 32
  | _ => true

theorem soundCheck_of_isSoundCheck {m : System sampleCrates} {a : Action sampleCrates} (h : isSoundCheck m a = true) :
    SoundCheck sampleSyncConfig m a := by
  intro f hq hback
  unfold isSoundCheck at h
  rw [hq] at h
  simp only [hback, Bool.not_true, Bool.false_or] at h
  cases hl : (trailOf sampleSyncConfig m).latest with
  | none => simp [hl] at h
  | some l => exact ⟨l, rfl, by simpa [hl] using h⟩

theorem sampleRegression_regressed : Regressed sampleSyncConfig (sampleAfter sampleRegression) := by
  have hsound : (trace (step sampleCrates sampleSyncConfig) (Machine.idle (sampleNode sampleChain)) sampleRegression).all
      (fun t => isSoundCheck t.pre t.act) = true := by decide +kernel
  exact purges_on_regression sampleSyncConfig (sampleNode sampleChain) (fun _ _ => rfl) sampleRegression
    (fun t ht => soundCheck_of_isSoundCheck (List.all_eq_true.mp hsound t ht))
    (purging_of_isPurging (by decide +kernel))

/-- **A failing RPC purges**: the latest ledger is not known. -/
theorem sampleOutage_purges :
    Purging (sampleAfter sampleOutage) ∧ ¬Regressed sampleSyncConfig (sampleAfter sampleOutage) := by
  refine ⟨purging_of_isPurging (by decide +kernel), ?_⟩
  rintro ⟨l, p, hl, -, -⟩
  have hnone : (trailOf sampleSyncConfig (sampleAfter sampleOutage)).latest = none := by decide +kernel
  cases hl.symm.trans hnone

/-- An event of the new chain, on ledger 80. -/
def sampleForkEvent : EventValue := ⟨some "e2", some 80, none, none, "\x7b\x7d"⟩

def sampleFork : EventChain where
  events := [sampleForkEvent]
  identified := by decide
  distinct := by decide
  ordered := by decide

/-- The loop has gone round on ledger 100; the chain is another from then on,
and the node on ledger 50: the loop is about to purge. -/
def sampleFall (chain : EventChain) : List (Action sampleCrates) :=
  .start () ⟨3, 1⟩ :: List.replicate 66 (.answer () (atLedger 100)) ++ .outside (.reorg chain)
    :: List.replicate 9 (.answer () (atLedger 50))

/-- What `SCAN` finds. -/
def sampleScan : Cache.Choice sampleCrates.setting :=
  ⟨false, ⟨50, 50, (), .ok (), 0, [keys.chainSyncCursor "testnet", keys.ledgerCheckpoint "testnet",
    keys.chainLastSeenLedger "testnet", keys.event "e1", keys.chainPlatformStats "testnet"]⟩⟩

/-- The purge, the rest of that call, and the next call on ledger 200. -/
def sampleRise : List (Action sampleCrates) :=
  .answer () sampleScan :: List.replicate 9 (.answer () (atLedger 50)) ++ List.replicate 45 (.answer () (atLedger 200))

theorem not_start_sampleRise (task : Task) : (.start () task : Action sampleCrates) ∉ sampleRise := by
  intro h
  rcases List.mem_append.mp h with h | h
  · rcases List.mem_cons.mp h with h | h
    · cases h
    · cases List.eq_of_mem_replicate h
  · cases List.eq_of_mem_replicate h

theorem sampleReturn_resynced :
    Resynced sampleSyncConfig (sampleAfter (sampleFall sampleChain))
      (sampleAfter (sampleFall sampleChain ++ sampleRise)) := by
  have hsequence : ∀ e ∈ (sampleAfter (sampleFall sampleChain ++ sampleRise)).store.world.chain.events,
      e.sequence = 50 := by decide +kernel
  have hbasis : (trailOf sampleSyncConfig (sampleAfter (sampleFall sampleChain))).basis.toNat = 50 := by decide +kernel
  have hnone : ∀ e ∈ (sampleAfter (sampleFall sampleChain ++ sampleRise)).store.world.chain.events,
      ¬Between sampleSyncConfig (sampleAfter (sampleFall sampleChain)) e := by
    rintro e he ⟨hbehind, -⟩
    rw [hbasis, hsequence e he] at hbehind
    exact Nat.lt_irrefl 50 hbehind
  unfold sampleAfter at hnone ⊢
  exact (resynced_iff sampleSyncConfig (sampleNode sampleChain) (sampleFall sampleChain) sampleRise
    (purging_of_isPurging (by decide +kernel)) not_start_sampleRise).mpr fun _ => hnone

/-- **An event is lost.** -/
theorem sampleFork_lost :
    ¬Resynced sampleSyncConfig (sampleAfter (sampleFall sampleFork))
      (sampleAfter (sampleFall sampleFork ++ sampleRise)) := by
  have hcaught : CaughtUp sampleSyncConfig (sampleAfter (sampleFall sampleFork))
      (sampleAfter (sampleFall sampleFork ++ sampleRise)) := ⟨97, 197, by decide +kernel, by decide +kernel, by decide⟩
  have hbetween : Between sampleSyncConfig (sampleAfter (sampleFall sampleFork)) sampleForkEvent :=
    ⟨by decide +kernel, 97, by decide +kernel, by decide +kernel⟩
  have hmem : sampleForkEvent ∈ (sampleAfter (sampleFall sampleFork ++ sampleRise)).store.world.chain.events := by
    decide +kernel
  exact fun h => not_stored_between (purging_of_isPurging (by decide +kernel)) not_start_sampleRise hcaught hbetween
    (h hcaught sampleForkEvent hmem hbetween)

end PredictIQ.Chain
