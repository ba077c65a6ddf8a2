/-
  PredictIQ.Chain.Replay: the replay of missed events of the contract.

  `replayEvents` fetches the events from a ledger on, stores those up to the
  confirmed tip for half an hour, and leaves a marker with their number for an
  hour.  While the marker is there a replay from that ledger returns it and
  does nothing else.

  A replay runs alone, from any cache whatever: what earlier replays, the sync
  loop, purges and expiries have left.  The RPC has all events of the contract,
  in order, up to its latest ledger.
-/
import PredictIQ.Cache.SoloCalls
import PredictIQ.Chain.EventSync

namespace PredictIQ.Replay

open Foundation Cache Prog

open Chain (EventValue ContractEvent EventChain eventsPage inReach pageSize saturatingSub toNat_saturatingSub)

/-! ## §1. What is asked. -/

structure ReplayProgress where
  fromLedger : UInt32
  eventsReplayed : Nat
  completed : Bool
  deriving DecidableEq, Repr

inductive Question where
  | getLatestLedger
  | getEvents (startLedger : UInt32) (cursor : Option String)
  | stall

@[reducible] def Answer : Question → Type
  | .getLatestLedger => UInt32
  | .getEvents .. => List EventValue
  | .stall => Unit

/-- The events of the contract, and the latest ledger. -/
structure Node where
  chain : EventChain
  latest : UInt32

def answer (_ : Unit) (node : Node) : (q : Question) → Option (Answer q × Node)
  | .getLatestLedger => some (node.latest, node)
  | .getEvents startLedger cursor => some (eventsPage startLedger node.latest cursor node.chain, node)
  | .stall => none

inductive Cached where
  | event | progress

@[reducible] def Cached.Val : Cached → Type
  | .event => ContractEvent
  | .progress => ReplayProgress

/-- How serde writes and reads what is cached. -/
structure Crates where
  Text : Type
  plain : ∀ i : Cached, Serde Text i.Val
  entry : ∀ i : Cached, Serde Text (CachedEntry i.Val)
  ofInt : Int → Text
  toInt : Text → Option Int

@[reducible] def Crates.setting (K : Crates) : Setting where
  Text := K.Text
  Code := Cached
  Val := Cached.Val
  plain := K.plain
  entry := K.entry
  ofInt := K.ofInt
  toInt := K.toInt
  Question := Question
  Answer := Answer
  World := Node
  Choice := Unit
  answer := answer
  fallible _ := true

structure Config where
  cache : RedisCacheConfig
  network : String
  confirmationLedgerLag : UInt32

def progressKey (network : String) (fromLedger : UInt32) : String :=
  "chain:v1:replay:" ++ network ++ ":" ++ toString fromLedger.toNat

def eventKey (event : ContractEvent) : String := "chain:v1:event:" ++ event.id

/-! ## §2. The replay. -/

section Replay

variable (K : Crates) (cfg : Config) (rounds : Nat)

abbrev ReplayM (K : Crates) : Type → Type := CacheM K.setting

def rpc (q : Question) : ReplayM K (Answer q) := ask (W := K.setting) (.outside q)

/-- Page after page, `rounds` of them at most; it stands still if that is not enough. -/
def fetchEventsFrom (fromLedger : UInt32) : (rounds : Nat) → (cursor : Option String) →
    (allEvents : List ContractEvent) → ReplayM K (List ContractEvent)
  | 0, _, _ => do
      rpc K .stall
      Prog.fail "unreachable"
  | rounds + 1, cursor, allEvents => do
      let events ← rpc K (.getEvents fromLedger cursor)
      let allEvents := allEvents ++ events.map ContractEvent.ofValue
      -- fewer than a page: there are no more
      if events.length < pageSize then return allEvents
      match events.getLast?.bind (·.id) with
      | some lastId => fetchEventsFrom fromLedger rounds (some lastId) allEvents
      | none => return allEvents

def fetchEventsSince (fromLedger : UInt32) : ReplayM K (List ContractEvent) :=
  fetchEventsFrom K fromLedger rounds none []

def storeEvents (confirmedTip : UInt32) : List ContractEvent → ReplayM K Unit
  | [] => return ()
  | event :: events => do
      if confirmedTip < event.ledger then storeEvents confirmedTip events
      else
        cfg.cache.setJson (W := K.setting) .event (eventKey event) event (30 * 60)
        storeEvents confirmedTip events

def replay (fromLedger : UInt32) : ReplayM K ReplayProgress := do
  let latest ← rpc K .getLatestLedger
  let confirmedTip := saturatingSub latest cfg.confirmationLedgerLag
  let events ← fetchEventsSince K rounds fromLedger
  let eventsReplayed := events.length
  storeEvents K cfg confirmedTip events
  let progress := ⟨fromLedger, eventsReplayed, true⟩
  cfg.cache.setJson (W := K.setting) .progress (progressKey cfg.network fromLedger) progress (60 * 60)
  return progress

def replayEvents (fromLedger : UInt32) : ReplayM K ReplayProgress := do
  match ← cfg.cache.getJson (W := K.setting) (.plain .progress) (progressKey cfg.network fromLedger) with
  | some cached => if cached.completed then return cached else replay K cfg rounds fromLedger
  | none => replay K cfg rounds fromLedger

end Replay

/-! ## §3. What a replay delivers. -/

section Delivery

variable {K : Crates} (cfg : Config) (b b' : Backend K.setting) (fromLedger : UInt32)

/-- The confirmed tip, with the latest ledger as it is. -/
def confirmedTip : UInt32 := saturatingSub b.world.latest cfg.confirmationLedgerLag

/-- The events of the contract from a ledger up to the confirmed tip. -/
def confirmedEvents : List EventValue :=
  b.world.chain.events.filter (inReach fromLedger (confirmedTip cfg b))

/-- **A replay that leaves `b'` of `b` has delivered what it reports.** -/
structure Delivered (progress : ReplayProgress) : Prop where
  present : ∀ e ∈ confirmedEvents cfg b' fromLedger, ∃ text,
    b'.get (eventKey (.ofValue e)) = some text ∧ (K.plain .event).toString (.ofValue e) = .ok text
  unwritten : ∀ e ∈ b'.world.chain.events, (confirmedTip cfg b').toNat < e.sequence →
    b'.keys.lookup (eventKey (.ofValue e)) = b.keys.lookup (eventKey (.ofValue e))
  count : progress.eventsReplayed = (confirmedEvents cfg b' fromLedger).length

/-- A completed marker is cached. -/
def Marked : Prop :=
  ∃ cached, K.setting.parse (.plain .progress) (b.get (progressKey cfg.network fromLedger)) = .ok (some cached)
    ∧ cached.completed = true

/-- A completed marker is cached, and what it reports is cached as well. -/
def MarkerHolds : Prop :=
  ∃ cached, K.setting.parse (.plain .progress) (b.get (progressKey cfg.network fromLedger)) = .ok (some cached)
    ∧ cached.completed = true ∧ cached.eventsReplayed = (confirmedEvents cfg b fromLedger).length
    ∧ ∀ e ∈ confirmedEvents cfg b fromLedger, ∃ text,
      b.get (eventKey (.ofValue e)) = some text ∧ (K.plain .event).toString (.ofValue e) = .ok text

/-- No event is above the confirmed tip. -/
def NoneUnconfirmed : Prop :=
  ∀ e ∈ b.world.chain.events, inReach fromLedger b.world.latest e = true → e.sequence ≤ (confirmedTip cfg b).toNat

end Delivery

/-! ## §4. Events. -/

section Events

variable {chain : EventChain} {e e' : EventValue} {fromLedger latest tip : UInt32}

/-- An event is known by its id. -/
theorem eq_of_eventKey (he : e ∈ chain.events) (he' : e' ∈ chain.events)
    (h : eventKey (.ofValue e) = eventKey (.ofValue e')) : e = e' := by
  have hid : (ContractEvent.ofValue e).id = (ContractEvent.ofValue e').id := (String.append_right_inj _).mp h
  obtain ⟨id, hid₁⟩ := Option.isSome_iff_exists.mp (chain.identified e he)
  obtain ⟨id', hid₂⟩ := Option.isSome_iff_exists.mp (chain.identified e' he')
  unfold ContractEvent.ofValue at hid
  rw [hid₁, hid₂] at hid
  refine List.inj_on_of_nodup_map chain.distinct he he' ?_
  rw [hid₁, hid₂]
  exact congrArg some hid

theorem mem_chain_of_mem_page {horizon : UInt32} {cursor : Option String}
    (h : e ∈ eventsPage fromLedger horizon cursor chain) : e ∈ chain.events :=
  (Pages.reach_of_mem_page h).1

theorem progressKey_ne_eventKey (network : String) (event : ContractEvent) :
    progressKey network fromLedger ≠ eventKey event := by
  intro h
  have hletter := congrArg (fun s : String => s.toList[9]?) h
  unfold progressKey eventKey at hletter
  simp only [String.toList_append, List.append_assoc] at hletter
  rw [List.getElem?_append_left (by decide), List.getElem?_append_left (by decide)] at hletter
  revert hletter
  decide

/-- The ledger of an event that the node knows fits. -/
theorem ledger_ofValue (h : inReach fromLedger latest e = true) :
    (ContractEvent.ofValue e).ledger.toNat = e.sequence := by
  unfold inReach at h
  simp only [Bool.and_eq_true, decide_eq_true_eq] at h
  have hlt := latest.toNat_lt
  show ((e.ledger.getD 0).toUInt32).toNat = (e.ledger.getD 0).toNat
  rw [UInt64.toNat_toUInt32]
  exact Nat.mod_eq_of_lt (Nat.lt_of_le_of_lt h.2 hlt)

/-- What is confirmed is known. -/
theorem inReach_tip_iff (htip : tip ≤ latest) :
    inReach fromLedger tip e = true ↔ inReach fromLedger latest e = true ∧ e.sequence ≤ tip.toNat := by
  have hle := UInt32.le_iff_toNat_le.mp htip
  unfold inReach
  simp only [Bool.and_eq_true, decide_eq_true_eq]
  omega

theorem saturatingSub_le (lag : UInt32) : saturatingSub latest lag ≤ latest := by
  rw [UInt32.le_iff_toNat_le, toNat_saturatingSub]
  omega

end Events

/-! ## §5. The steps of a replay. -/

section Steps

variable {K : Crates} {cfg : Config} {b b' : Backend K.setting} {fromLedger : UInt32}

theorem returns_rpc {q : Question} {v : Answer q} (h : (rpc K q).Returns (server K.setting) b v b') :
    answer () b.world q = some (v, b.world) ∧ b' = b := by
  obtain ⟨c, hexec⟩ := returns_call.mp h
  obtain ⟨⟨v', node⟩, hanswer, hv⟩ := Option.map_eq_some_iff.mp hexec
  cases hv
  cases q with
  | getLatestLedger =>
      cases hanswer
      exact ⟨rfl, rfl⟩
  | getEvents startLedger cursor =>
      cases hanswer
      exact ⟨rfl, rfl⟩
  | stall => cases hanswer

/-- **The fetch** brings what comes behind the cursor, in order. -/
theorem returns_fetchEventsFrom {rounds : Nat} {cursor : Option String} {allEvents events : List ContractEvent}
    (h : (fetchEventsFrom K fromLedger rounds cursor allEvents).Returns (server K.setting) b events b') :
    b' = b ∧ events = allEvents ++ ((Pages.after (·.id) (cursor.map some) b.world.chain.events).filter
      (inReach fromLedger b.world.latest)).map .ofValue := by
  induction rounds generalizing cursor allEvents b with
  | zero =>
      obtain ⟨_, _, -, h⟩ := returns_bind.mp h
      exact absurd h id
  | succ rounds ih =>
      obtain ⟨page, b₁, hpage, h⟩ := returns_bind.mp h
      obtain ⟨hpage, rfl⟩ := returns_rpc hpage
      obtain rfl : eventsPage fromLedger b₁.world.latest cursor b₁.world.chain = page := by
        cases hpage
        rfl
      split at h
      · -- a short page is the last one
        rename_i hshort
        obtain ⟨rfl, rfl⟩ := returns_pure.mp h
        refine ⟨rfl, ?_⟩
        unfold eventsPage at hshort ⊢
        rw [Pages.page_eq_of_short hshort]
      · rename_i hfull
        -- a full page has a last event, whose id is the next cursor
        have hne : eventsPage fromLedger b₁.world.latest cursor b₁.world.chain ≠ [] := by
          intro hnil
          rw [hnil] at hfull
          exact hfull (by decide)
        obtain ⟨front, last, hsplit⟩ : ∃ front last,
            eventsPage fromLedger b₁.world.latest cursor b₁.world.chain = front ++ [last] :=
          ⟨_, _, (List.dropLast_append_getLast hne).symm⟩
        have hlast : last ∈ b₁.world.chain.events := by
          have hmem : last ∈ eventsPage fromLedger b₁.world.latest cursor b₁.world.chain := by
            rw [hsplit]
            exact List.mem_append_right _ List.mem_cons_self
          exact mem_chain_of_mem_page hmem
        obtain ⟨lastId, hid⟩ := Option.isSome_iff_exists.mp (b₁.world.chain.identified last hlast)
        have hfilter := Pages.filter_after_eq b₁.world.chain.distinct hsplit
        rw [hsplit, List.getLast?_concat, Option.bind_some, hid] at h
        obtain ⟨rfl, hevents⟩ := ih h
        refine ⟨rfl, ?_⟩
        rw [hfilter, hevents, hid, Option.map_some]
        simp only [List.map_append, List.append_assoc]

/-- **The store** has every event up to the tip, and has touched nothing else. -/
theorem returns_storeEvents {tip : UInt32} {events : List ContractEvent} (hids : (events.map (·.id)).Nodup)
    (h : (storeEvents K cfg tip events).Returns (server K.setting) b () b') :
    Frame (fun k => ∃ event ∈ events, event.ledger ≤ tip ∧ k = eventKey event) b b'
      ∧ ∀ event ∈ events, event.ledger ≤ tip → ∃ text, (K.plain .event).toString event = .ok text
        ∧ b'.keys.lookup (eventKey event) = some ⟨text, b.nowMs + 1800000⟩ := by
  induction events generalizing b with
  | nil =>
      obtain ⟨-, rfl⟩ := returns_pure.mp h
      exact ⟨Frame.refl _, fun _ hmem => by cases hmem⟩
  | cons event events ih =>
      obtain ⟨hnew, hids⟩ := List.nodup_cons.mp hids
      unfold storeEvents at h
      split at h
      · -- an event above the tip is passed over
        rename_i habove
        obtain ⟨hframe, hstored⟩ := ih hids h
        refine ⟨hframe.mono ?_, fun event' hmem htip => ?_⟩
        · rintro k ⟨event', hmem, htip, rfl⟩
          exact ⟨event', List.mem_cons_of_mem _ hmem, htip, rfl⟩
        · rcases List.mem_cons.mp hmem with rfl | hmem
          · exact absurd htip (UInt32.not_le.mpr habove)
          · exact hstored event' hmem htip
      · -- a confirmed event is written first, and the rest of the events after it
        rename_i htip
        obtain ⟨_, b₁, hset, h⟩ := returns_bind.mp h
        obtain ⟨hset, text, htext, hlookup⟩ := returns_setJson hset
        obtain ⟨hframe, hstored⟩ := ih hids h
        refine ⟨?_, fun event' hmem htip' => ?_⟩
        · refine (hset.mono ?_).trans (hframe.mono ?_)
          · rintro k rfl
            exact ⟨event, List.mem_cons_self, UInt32.not_lt.mp htip, rfl⟩
          · rintro k ⟨event', hmem, htip', rfl⟩
            exact ⟨event', List.mem_cons_of_mem _ hmem, htip', rfl⟩
        · rcases List.mem_cons.mp hmem with rfl | hmem
          · -- the events that follow have other keys
            refine ⟨text, htext, ?_⟩
            rw [hframe.keys, hlookup]
            rintro ⟨event'', hmem, -, hkey⟩
            have hid : event'.id = event''.id := (String.append_right_inj _).mp hkey
            refine hnew (List.mem_map.mpr ⟨event'', hmem, hid.symm⟩)
          · obtain ⟨text', htext', hlookup'⟩ := hstored event' hmem htip'
            exact ⟨text', htext', hset.now ▸ hlookup'⟩

/-- What was written for half an hour is there now. -/
theorem get_of_lookup {k : String} {text : K.Text} {ms : Nat} (h : b'.keys.lookup k = some ⟨text, b'.nowMs + ms⟩)
    (hms : 0 < ms) : b'.get k = some text :=
  get_eq_some_iff.mpr ⟨_, h, by dsimp only; omega, rfl⟩

/-- **A replay that goes ahead** stores what is confirmed, and counts what it has fetched. -/
theorem returns_replay {rounds : Nat} {progress : ReplayProgress}
    (h : (replay K cfg rounds fromLedger).Returns (server K.setting) b progress b') :
    Frame (fun k => k = progressKey cfg.network fromLedger ∨ ∃ e ∈ confirmedEvents cfg b fromLedger, k = eventKey (.ofValue e)) b b'
      ∧ (∀ e ∈ confirmedEvents cfg b fromLedger, ∃ text, (K.plain .event).toString (.ofValue e) = .ok text
        ∧ b'.get (eventKey (.ofValue e)) = some text)
      ∧ progress.eventsReplayed = (b.world.chain.events.filter (inReach fromLedger b.world.latest)).length := by
  obtain ⟨latest, b₁, hlatest, h⟩ := returns_bind.mp h
  obtain ⟨hanswer, rfl⟩ := returns_rpc hlatest
  obtain rfl : b₁.world.latest = latest := by
    cases hanswer
    rfl
  obtain ⟨events, b₂, hfetch, h⟩ := returns_bind.mp h
  obtain ⟨rfl, hevents⟩ := returns_fetchEventsFrom hfetch
  have hevents : events = (b₂.world.chain.events.filter (inReach fromLedger b₂.world.latest)).map .ofValue := hevents
  have htip : confirmedTip cfg b₂ ≤ b₂.world.latest := saturatingSub_le _
  -- the events that are stored are the confirmed ones
  have hconfirmed : ∀ e ∈ b₂.world.chain.events.filter (inReach fromLedger b₂.world.latest),
      (ContractEvent.ofValue e).ledger ≤ confirmedTip cfg b₂ ↔ e ∈ confirmedEvents cfg b₂ fromLedger := by
    intro e he
    obtain ⟨he, hreach⟩ := List.mem_filter.mp he
    unfold confirmedEvents
    rw [List.mem_filter, inReach_tip_iff htip, UInt32.le_iff_toNat_le, ledger_ofValue hreach]
    exact ⟨fun h => ⟨he, hreach, h⟩, fun h => h.2.2⟩
  have hids : (events.map (·.id)).Nodup := by
    rw [hevents, List.map_map]
    have hnodup := (List.filter_sublist (p := inReach fromLedger b₂.world.latest)).map (·.id) |>.nodup b₂.world.chain.distinct
    refine List.Nodup.map_on (fun e he e' he' heq => ?_) (List.Nodup.of_map _ hnodup)
    exact eq_of_eventKey (List.mem_filter.mp he).1 (List.mem_filter.mp he').1 ((String.append_right_inj _).mpr heq)
  obtain ⟨_, b₃, hstore, h⟩ := returns_bind.mp h
  obtain ⟨hframe, hstored⟩ := returns_storeEvents hids hstore
  obtain ⟨_, b₄, hmark, h⟩ := returns_bind.mp h
  obtain ⟨rfl, rfl⟩ := returns_pure.mp h
  obtain ⟨hmark, -⟩ := returns_setJson hmark
  refine ⟨?_, fun e he => ?_, ?_⟩
  · refine (hframe.mono ?_).trans (hmark.mono fun k hk => .inl hk)
    rintro k ⟨event, hmem, htip, rfl⟩
    rw [hevents] at hmem
    obtain ⟨e, he, rfl⟩ := List.mem_map.mp hmem
    exact .inr ⟨e, (hconfirmed e he).mp htip, rfl⟩
  · have hknown : e ∈ b₂.world.chain.events.filter (inReach fromLedger b₂.world.latest) := by
      obtain ⟨hmem, hreach⟩ := List.mem_filter.mp he
      exact List.mem_filter.mpr ⟨hmem, ((inReach_tip_iff htip).mp hreach).1⟩
    obtain ⟨text, htext, hlookup⟩ := hstored (.ofValue e) (hevents ▸ List.mem_map_of_mem hknown) ((hconfirmed e hknown).mpr he)
    refine ⟨text, htext, ?_⟩
    rw [hmark.get (progressKey_ne_eventKey cfg.network _).symm]
    exact get_of_lookup (hframe.now ▸ hlookup) (by decide)
  · show events.length = _
    rw [hevents, List.length_map]

end Steps

/-! ## §6. A replay from any cache. -/

section Replays

variable {K : Crates} {cfg : Config} {b b' : Backend K.setting} {fromLedger : UInt32}

/-- **A replay that finds a completed marker** returns it, and does nothing else. -/
theorem replay_of_marked {rounds : Nat} {progress : ReplayProgress}
    (h : (replayEvents K cfg rounds fromLedger).Returns (server K.setting) b progress b')
    (hmarked : Marked cfg b fromLedger) :
    K.setting.parse (.plain .progress) (b.get (progressKey cfg.network fromLedger)) = .ok (some progress)
      ∧ Frame (fun _ => False) b b' := by
  obtain ⟨found, b₁, hget, h⟩ := returns_bind.mp h
  obtain ⟨hparse, hread⟩ := returns_getJson hget
  obtain ⟨cached, hcached, hcompleted⟩ := hmarked
  obtain rfl : some cached = found := Except.ok.inj (hcached.symm.trans hparse)
  have h : (if cached.completed = true then pure cached else replay K cfg rounds fromLedger).Returns
    (server K.setting) b₁ progress b' := h
  rw [if_pos hcompleted] at h
  obtain ⟨rfl, rfl⟩ := returns_pure.mp h
  exact ⟨hparse, hread⟩

/-- **A replay that finds no completed marker** delivers what it reports exactly
when none of the events is above the confirmed tip. -/
theorem replay_of_not_marked {rounds : Nat} {progress : ReplayProgress}
    (h : (replayEvents K cfg rounds fromLedger).Returns (server K.setting) b progress b')
    (hmarked : ¬Marked cfg b fromLedger) : Delivered cfg b b' fromLedger progress ↔ NoneUnconfirmed cfg b fromLedger := by
  obtain ⟨found, b₁, hget, h⟩ := returns_bind.mp h
  obtain ⟨hparse, hread⟩ := returns_getJson hget
  have hgo : (replay K cfg rounds fromLedger).Returns (server K.setting) b₁ progress b' := by
    cases found with
    | none => exact h
    | some cached =>
        have hnot : ¬cached.completed = true := fun hcompleted => hmarked ⟨cached, hparse, hcompleted⟩
        have h : (if cached.completed = true then pure cached else replay K cfg rounds fromLedger).Returns
          (server K.setting) b₁ progress b' := h
        rwa [if_neg hnot] at h
  obtain ⟨hframe, hstored, hcount⟩ := returns_replay hgo
  have hworld : b'.world = b.world := hframe.world.trans hread.world
  have htip : confirmedTip cfg b ≤ b.world.latest := saturatingSub_le _
  have htip' : confirmedTip cfg b' = confirmedTip cfg b := by
    unfold confirmedTip
    rw [hworld]
  have hevents : confirmedEvents cfg b' fromLedger = confirmedEvents cfg b fromLedger := by
    unfold confirmedEvents
    rw [htip', hworld]
  have hevents₁ : confirmedEvents cfg b₁ fromLedger = confirmedEvents cfg b fromLedger := by
    unfold confirmedEvents confirmedTip
    rw [hread.world]
  -- the count is right when nothing fetched is above the tip
  have hconfirmed : confirmedEvents cfg b fromLedger = (b.world.chain.events.filter (inReach fromLedger b.world.latest)).filter
      fun e => e.sequence ≤ (confirmedTip cfg b).toNat := by
    unfold confirmedEvents
    rw [List.filter_filter]
    refine List.filter_congr fun e _ => ?_
    rw [Bool.eq_iff_iff, inReach_tip_iff htip, Bool.and_eq_true, decide_eq_true_eq]
    exact and_comm
  rw [hread.world] at hcount
  have hcount_iff : progress.eventsReplayed = (confirmedEvents cfg b fromLedger).length ↔ NoneUnconfirmed cfg b fromLedger := by
    rw [hcount, hconfirmed, eq_comm, List.length_filter_eq_length_iff]
    unfold NoneUnconfirmed
    simp only [List.mem_filter, decide_eq_true_eq, and_imp]
  constructor
  · exact fun hdelivered => hcount_iff.mp (hevents ▸ hdelivered.count)
  · intro hnone
    refine ⟨fun e he => ?_, fun e he habove => ?_, hevents ▸ hcount_iff.mpr hnone⟩
    · obtain ⟨text, htext, hget⟩ := hstored e (by rwa [hevents₁, ← hevents])
      exact ⟨text, hget, htext⟩
    · rw [hframe.keys, hread.keys _ id]
      rintro (hkey | ⟨e', he', hkey⟩)
      · exact progressKey_ne_eventKey _ _ hkey.symm
      · rw [hworld] at he
        rw [hevents₁] at he'
        obtain ⟨hmem', hreach'⟩ := List.mem_filter.mp he'
        obtain rfl := eq_of_eventKey he hmem' hkey
        rw [htip'] at habove
        exact absurd ((inReach_tip_iff htip).mp hreach').2 (Nat.not_le.mpr habove)

/-- **A replay from any cache** delivers what it reports exactly when no marker
keeps it from its work and none of the events is above the confirmed tip, or
the marker that does reports what is cached. -/
theorem replay_delivers_iff {rounds : Nat} {progress : ReplayProgress}
    (h : (replayEvents K cfg rounds fromLedger).Returns (server K.setting) b progress b') :
    Delivered cfg b b' fromLedger progress
      ↔ ¬Marked cfg b fromLedger ∧ NoneUnconfirmed cfg b fromLedger ∨ MarkerHolds cfg b fromLedger := by
  by_cases hmarked : Marked cfg b fromLedger
  · -- the marker answers: nothing is written, so that its number and the cache decide
    obtain ⟨hparse, hframe⟩ := replay_of_marked h hmarked
    obtain ⟨cached, hcached, hcompleted⟩ := hmarked
    obtain rfl : cached = progress := Option.some.inj (Except.ok.inj (hcached.symm.trans hparse))
    have hevents : confirmedEvents cfg b' fromLedger = confirmedEvents cfg b fromLedger := by
      unfold confirmedEvents confirmedTip
      rw [hframe.world]
    constructor
    · intro hdelivered
      refine .inr ⟨cached, hparse, hcompleted, hevents ▸ hdelivered.count, fun e he => ?_⟩
      rw [← hframe.get id]
      exact hdelivered.present e (hevents ▸ he)
    · rintro (⟨hmarked, -⟩ | ⟨cached', hparse', -, hcount, hpresent⟩)
      · exact absurd ⟨cached, hparse, hcompleted⟩ hmarked
      · obtain rfl : cached = cached' := Option.some.inj (Except.ok.inj (hparse.symm.trans hparse'))
        refine ⟨fun e he => ?_, fun e _ _ => hframe.keys _ id, hevents.symm ▸ hcount⟩
        rw [hframe.get id]
        exact hpresent e (hevents ▸ he)
  · rw [replay_of_not_marked h hmarked]
    constructor
    · exact fun hnone => .inl ⟨hmarked, hnone⟩
    · rintro (⟨-, hnone⟩ | ⟨cached, hparse, hcompleted, -⟩)
      · exact hnone
      · exact absurd ⟨cached, hparse, hcompleted⟩ hmarked

end Replays

/-! ## §7. Two events. -/

section Samples

/-- Texts as serde writes them. -/
inductive SampleText where
  | number (n : Int)
  | plain (i : Cached) (value : i.Val)
  | entry (i : Cached) (e : CachedEntry i.Val)

namespace SampleText

def readPlain : (i : Cached) → SampleText → Except String i.Val
  | .event, .plain .event value => .ok value
  | .progress, .plain .progress value => .ok value
  | _, _ => .error "invalid type"

def readEntry : (i : Cached) → SampleText → Except String (CachedEntry i.Val)
  | .event, .entry .event e => .ok e
  | .progress, .entry .progress e => .ok e
  | _, _ => .error "invalid type"

def toInt : SampleText → Option Int
  | .number n => some n
  | _ => none

end SampleText

@[reducible] def sampleCrates : Crates where
  Text := SampleText
  plain i := ⟨fun value => .ok (.plain i value), SampleText.readPlain i⟩
  entry i := ⟨fun e => .ok (.entry i e), SampleText.readEntry i⟩
  ofInt := .number
  toInt := SampleText.toInt

def sampleConfig : Config := ⟨Cache.sampleConfig, "testnet", 1⟩

def sampleChain : EventChain where
  events := [⟨some "1-0", some 1, none, none, ""⟩, ⟨some "2-0", some 2, none, none, ""⟩]
  identified := by decide
  distinct := by decide
  ordered := by decide

/-- Nothing is cached. -/
def sampleStart (latest : UInt32) : Backend sampleCrates.setting where
  nowMs := 1000
  world := ⟨sampleChain, latest⟩

def sampleReplay (b : Backend sampleCrates.setting) :
    Option (Except String ReplayProgress × Backend sampleCrates.setting) :=
  (replayEvents sampleCrates sampleConfig 3 1).eval (server sampleCrates.setting) ⟨false, ()⟩ b

/-- What a replay has returned, and which events are cached then. -/
def sampleOutcome (b : Backend sampleCrates.setting) : Option (Option ReplayProgress × List Bool) :=
  (sampleReplay b).map fun x => (x.1.toOption, sampleChain.events.map fun e => (x.2.get (eventKey (.ofValue e))).isSome)

/-- Half an hour and a minute after a replay. -/
def sampleLater : Backend sampleCrates.setting :=
  ((sampleReplay (sampleStart 3)).map fun x => { x.2 with nowMs := x.2.nowMs + 31 * 60 * 1000 }).getD (sampleStart 3)

theorem returns_of_sampleOutcome {b : Backend sampleCrates.setting} {progress : ReplayProgress} {cached : List Bool}
    (h : sampleOutcome b = some (some progress, cached)) :
    ∃ b', (replayEvents sampleCrates sampleConfig 3 1).Returns (server sampleCrates.setting) b progress b'
      ∧ cached = sampleChain.events.map fun e => (b'.get (eventKey (.ofValue e))).isSome := by
  obtain ⟨⟨r, b'⟩, heval, houtcome⟩ := Option.map_eq_some_iff.mp h
  cases r with
  | error e => cases houtcome
  | ok p =>
      cases houtcome
      exact ⟨b', returns_iff_ends.mpr (ends_of_eval heval), rfl⟩

/-- With the tip above both events, a replay delivers them. -/
theorem sampleStart_delivered : ∃ progress b',
    (replayEvents sampleCrates sampleConfig 3 1).Returns (server sampleCrates.setting) (sampleStart 3) progress b'
      ∧ Delivered sampleConfig (sampleStart 3) b' 1 progress := by
  have houtcome : sampleOutcome (sampleStart 3) = some (some ⟨1, 2, true⟩, [true, true]) := by decide +kernel
  obtain ⟨b', hreturns, -⟩ := returns_of_sampleOutcome houtcome
  refine ⟨_, b', hreturns, (replay_delivers_iff hreturns).mpr (.inl ⟨?_, ?_⟩)⟩
  · rintro ⟨cached, hparse, -⟩
    cases hparse
  · show ∀ e ∈ sampleChain.events, inReach 1 3 e = true → e.sequence ≤ (saturatingSub 3 1).toNat
    decide

/-- With the second event above the tip it is counted all the same; and once the
events have expired, the marker still reports them. -/
theorem replay_misreports :
    (¬∀ b' progress, (replayEvents sampleCrates sampleConfig 3 1).Returns (server sampleCrates.setting) (sampleStart 2)
        progress b' → Delivered sampleConfig (sampleStart 2) b' 1 progress)
      ∧ ¬∀ b' progress, (replayEvents sampleCrates sampleConfig 3 1).Returns (server sampleCrates.setting) sampleLater
        progress b' → Delivered sampleConfig sampleLater b' 1 progress := by
  constructor
  · intro h
    have houtcome : sampleOutcome (sampleStart 2) = some (some ⟨1, 2, true⟩, [true, false]) := by decide +kernel
    obtain ⟨b', hreturns, -⟩ := returns_of_sampleOutcome houtcome
    -- no marker yet: the law would have every event confirmed, and the second is not
    have hnone := (replay_of_not_marked hreturns ?_).mp (h b' _ hreturns)
    · revert hnone
      show ¬∀ e ∈ sampleChain.events, inReach 1 2 e = true → e.sequence ≤ (saturatingSub 2 1).toNat
      decide
    · rintro ⟨cached, hparse, -⟩
      cases hparse
  · intro h
    have houtcome : sampleOutcome sampleLater = some (some ⟨1, 2, true⟩, [false, false]) := by decide +kernel
    obtain ⟨b', hreturns, hcached⟩ := returns_of_sampleOutcome houtcome
    have hmarked : Marked sampleConfig sampleLater 1 := ⟨⟨1, 2, true⟩, by decide +kernel, rfl⟩
    have hworld := (replay_of_marked hreturns hmarked).2.world
    have hfirst : ⟨some "1-0", some 1, none, none, ""⟩ ∈ confirmedEvents sampleConfig b' 1 := by
      unfold confirmedEvents confirmedTip
      rw [hworld]
      decide +kernel
    -- the first event is confirmed, and has gone from the cache before the marker
    obtain ⟨text, hget, -⟩ := (h b' _ hreturns).present _ hfirst
    have hgone : false = (b'.get (eventKey (.ofValue ⟨some "1-0", some 1, none, none, ""⟩))).isSome :=
      (List.cons.inj hcached).1
    rw [hget] at hgone
    cases hgone

end Samples

end PredictIQ.Replay
