/-
  PredictIQ.Safety.Paging: reading everything page by page.

  A client that asks for the pages at 0, l, 2l, … gets the positions one after
  the other, holes left by pruned markets included.  Offsets are `u32`, and ids
  and counters `u64`: the pages end where the offsets do, which is short of the
  last of `manyMarkets`.  `get_guardians_paginated` adds an offset and a limit
  in `u32`, where the other two queries widen to `u64` first.
-/
import PredictIQ.Contract.Queries

namespace PredictIQ.Contract

open Foundation Tx

variable {X : Externs}

/-! ## §1. The property. -/

/-- The multiples of `l` that a `u32` offset can hold. -/
def pageOffsets (l : Nat) : List Nat := (List.range ((2 ^ 32 - 1) / l + 1)).map (· * l)

/-- The positions that pages at these offsets cover. -/
def pageReach (l : Nat) : Nat := ((2 ^ 32 - 1) / l + 1) * l

/-- The id a step had `archive_market` record. -/
def archivedId (X : Externs) (t : Transition World Action) : Option Nat :=
  match t.act with
  | .call _ (.pruneMarket id) => if callOk X t = true then some id else none
  | _ => none

/-- The ids `archive_market` recorded, oldest first. -/
def recordedIds (X : Externs) (history : List (Transition World Action)) : List Nat :=
  history.filterMap (archivedId X)

/-- `ms` lists the stored markets in increasing id order. -/
structure ListsMarkets (s : MarketStore) (ms : List Market) : Prop where
  members : ∀ m, m ∈ ms ↔ s.market.lookup m.id = some m
  increasing : ms.Pairwise fun m m' => m.id < m'.id

/-- The pages of the three queries, put together, are what is stored. -/
structure PagesExact (X : Externs) (history : List (Transition World Action)) (w : World)
    (limit : Nat) : Prop where
  markets : readAll (fun offset => some (w.markets.getMarkets offset limit))
    (pageOffsets (min limit maxPageLimit)) = some w.markets.listed
  archived : readAll (fun offset => some (w.archive.getArchivedMarketIds offset limit))
    (pageOffsets (min limit maxPageLimit)) = some (recordedIds X history)
  guardians : readAll (fun offset => getGuardiansPaginated w.governance.getGuardians offset limit)
    (pageOffsets (min limit maxPageLimit)) = some w.governance.getGuardians

/-- Everything stored is in reach of a page of `l` items, and no page's end
overflows. -/
structure PagesInReach (w : World) (l : Nat) : Prop where
  markets : ∀ id m, w.markets.market.lookup id = some m → id ≤ pageReach l
  archived : w.archive.getArchivedCount ≤ pageReach l
  guardians : w.governance.getGuardians.length + l < 2 ^ 32

/-! ## §2. Listings. -/

section Listings

variable {α : Type} {read : Nat → Option α}

/-- A listing without holes. -/
theorem listing_eq_take {xs : List α} (h : ∀ i, read (i + 1) = xs[i]?) (n : Nat) :
    listing n read = xs.take n := by
  have hshift : List.range' 1 n = (List.range' 0 n).map (1 + ·) :=
    (List.map_add_range' 0 n 1).symm
  have hread : (fun i => read (1 + i)) = fun i => xs[i]? := by
    funext i
    rw [Nat.add_comm]
    exact h i
  unfold listing
  rw [hshift, List.filterMap_map]
  show (List.range' 0 n).filterMap (fun i => read (1 + i)) = _
  rw [hread, filterMap_getElem?_range']
  rfl

/-- The first `n` positions list everything exactly when nothing lies behind them. -/
theorem listing_min_eq_iff {n count : Nat} :
    listing (min n count) read = listing count read
      ↔ ∀ i, n < i → i ≤ count → read i = none := by
  rcases Nat.le_total count n with hle | hle
  · rw [min_eq_right hle]
    exact ⟨fun _ i hlo hhi => by omega, fun _ => rfl⟩
  · rw [min_eq_left hle]
    have hsplit : listing count read
        = listing n read ++ (List.range' (1 + n) (count - n)).filterMap read := by
      unfold listing
      rw [← List.filterMap_append, List.range'_append_1, Nat.add_sub_cancel' hle]
    rw [hsplit, List.self_eq_append_right, List.filterMap_eq_nil_iff]
    constructor
    · intro h i hlo hhi
      exact h i (List.mem_range'_1.mpr ⟨by omega, by omega⟩)
    · intro h i hi
      obtain ⟨hlo, hhi⟩ := List.mem_range'_1.mp hi
      exact h i (by omega) (by omega)

/-- The pages of a query over 1-based keys. -/
theorem readAll_pages (count l : Nat) (read : Nat → Option α) :
    readAll (fun offset => some ((pagePositions count offset l).filterMap read)) (pageOffsets l)
      = some (listing (min (pageReach l) count) read) := by
  unfold pageOffsets pageReach
  rw [readAll_some, List.map_map, ← flatten_pages]
  rfl

end Listings

/-- The stored markets, in the order of their ids. -/
theorem Registered.listsMarkets {w : World} (h : Registered w) :
    ListsMarkets w.markets w.markets.listed := by
  have hmem : ∀ n m, m ∈ listing n w.markets.market.lookup ↔
      ∃ i, (1 ≤ i ∧ i < 1 + n) ∧ w.markets.market.lookup i = some m := by
    intro n m
    unfold listing
    rw [List.mem_filterMap]
    exact exists_congr fun i => and_congr_left fun _ => List.mem_range'_1
  constructor
  · intro m
    unfold MarketStore.listed
    rw [hmem]
    constructor
    · intro hex
      obtain ⟨i, _, hm⟩ := hex
      rw [h.keyed i m hm]
      exact hm
    · intro hm
      obtain ⟨hlo, hhi⟩ := h.drawn m.id m hm
      exact ⟨m.id, ⟨hlo, by omega⟩, hm⟩
  · unfold MarketStore.listed listing
    rw [List.pairwise_filterMap]
    refine (List.pairwise_lt_range' 1).imp ?_
    intro i j hij m hm m' hm'
    rw [h.keyed i m hm, h.keyed j m' hm']
    exact hij

/-! ## §3. What the archive holds. -/

/-- Only pruning writes the archive. -/
theorem Effect.archive_kept {env : Env} {w w' : World} {c : Call} (h : Effect X env w c w')
    (hc : ∀ id, c ≠ .pruneMarket id) : w'.archive = w.archive := by
  cases h with
  | pruned id => exact absurd rfl (hc id)
  | created _ p id _ _ h =>
      obtain ⟨_, _, _, hw⟩ := h.frame
      rw [hw]
  | bet b m fee _ h =>
      obtain ⟨_, hw⟩ := h.frame
      rw [hw]
      rfl
  | voted voter id outcome weight m ledger br evs _ lookup disputed snapshot frame =>
      obtain ⟨_, _, _, _, rfl⟩ := frame
      rfl
  | _ => rfl

/-- A successful pruning takes the market out and records its id. -/
theorem Succeeds.archives {env : Env} {w w' : World} {id : Nat}
    (h : Succeeds X env (.pruneMarket id) w w') :
    w'.archive = w.archive.record id ∧ (∃ m, w.markets.market.lookup id = some m)
      ∧ w'.markets = w.markets.removeMarket id := by
  obtain ⟨r, hr⟩ := h
  obtain ⟨hr, _⟩ := done_eq_ok.mp hr
  have harchive := pruneMarket_archive hr
  obtain ⟨m, _, ar, hm, _, _, _, hw'⟩ := pruneMarket_ok hr
  refine ⟨harchive, ⟨m, hm⟩, ?_⟩
  rw [hw']

/-- The archive holds `ids`, numbered from 1 on. -/
structure ArchiveStore.Holds (s : ArchiveStore) (ids : List Nat) : Prop where
  count : s.getArchivedCount = ids.length
  read : ∀ i, s.archivedMarket.lookup (i + 1) = ids[i]?

/-- Recording an id appends it. -/
theorem ArchiveStore.Holds.record {s : ArchiveStore} {ids : List Nat} (h : s.Holds ids) (id : Nat) :
    (s.record id).Holds (ids ++ [id]) := by
  have hcount : s.archivedMarketCount.getD 0 = ids.length := h.count
  constructor
  · show s.archivedMarketCount.getD 0 + 1 = _
    rw [hcount, List.length_append, List.length_singleton]
  · intro i
    show (s.archivedMarket.insert (s.archivedMarketCount.getD 0 + 1) id).lookup (i + 1) = _
    rw [Store.lookup_insert_eq, hcount, List.getElem?_append, h.read i]
    -- the new number is the next one
    rcases Nat.lt_trichotomy i ids.length with hlt | rfl | hgt
    · rw [if_neg (by omega), if_pos hlt]
    · rw [if_pos rfl, if_neg (by omega), Nat.sub_self]
      rfl
    · rw [if_neg (by omega), if_neg (by omega), List.getElem?_eq_none (by omega),
        List.getElem?_eq_none (by rw [List.length_singleton]; omega)]

/-- The archive against the history: every recorded id once, none of them
stored any more. -/
structure Archived (X : Externs) (history : List (Transition World Action)) (w : World) :
    Prop where
  registered : Registered w
  holds : w.archive.Holds (recordedIds X history)
  gone : ∀ id ∈ recordedIds X history, id ≤ w.markets.lastId ∧ w.markets.market.lookup id = none
  once : (recordedIds X history).Nodup

theorem recordedIds_concat_of_none {history : List (Transition World Action)}
    {x : Transition World Action} (h : archivedId X x = none) :
    recordedIds X (history ++ [x]) = recordedIds X history := by
  unfold recordedIds
  rw [List.filterMap_append, List.filterMap_cons_none h, List.filterMap_nil, List.append_nil]

theorem recordedIds_concat_of_some {history : List (Transition World Action)}
    {x : Transition World Action} {id : Nat} (h : archivedId X x = some id) :
    recordedIds X (history ++ [x]) = recordedIds X history ++ [id] := by
  unfold recordedIds
  rw [List.filterMap_append, List.filterMap_cons_some h, List.filterMap_nil]

/-- An id that was given out and is gone stays gone. -/
theorem Effect.stays_gone {env : Env} {w w' : World} {c : Call} {id : Nat} (hreg : Registered w)
    (h : Effect X env w c w') (hid : id ≤ w.markets.lastId)
    (hgone : w.markets.market.lookup id = none) : w'.markets.market.lookup id = none := by
  have hchange := h.marketChange hreg id
  rw [hgone] at hchange
  generalize w'.markets.market.lookup id = o at hchange
  cases hchange with
  | same => rfl
  | created _ p hc next => omega

theorem Archived.call {history : List (Transition World Action)} {env : Env} {w w' : World}
    {c : Call} (h : Archived X history w) (hsucc : Succeeds X env c w w') :
    Archived X (history ++ [⟨w, .call env c, w'⟩]) w' := by
  have heff := hsucc.effect
  have hgone : ∀ id ∈ recordedIds X history,
      id ≤ w'.markets.lastId ∧ w'.markets.market.lookup id = none := by
    intro id hid
    obtain ⟨hle, hnone⟩ := h.gone id hid
    exact ⟨hle.trans heff.lastId_le, heff.stays_gone h.registered hle hnone⟩
  by_cases hprune : ∃ id, c = .pruneMarket id
  · obtain ⟨id, rfl⟩ := hprune
    obtain ⟨harchive, ⟨m, hm⟩, hmarkets⟩ := hsucc.archives
    have hid : archivedId X ⟨w, .call env (.pruneMarket id), w'⟩ = some id :=
      if_pos (callOk_of_succeeds hsucc)
    -- a recorded id is not stored, and this one is
    have hfresh : id ∉ recordedIds X history := by
      intro hmem
      rw [(h.gone id hmem).2] at hm
      cases hm
    have hremoved : w'.markets.market.lookup id = none := by
      rw [hmarkets, MarketStore.lookup_removeMarket, if_pos rfl]
    refine ⟨heff.registered h.registered, ?_, ?_, ?_⟩
    · rw [recordedIds_concat_of_some hid, harchive]
      exact h.holds.record id
    · rw [recordedIds_concat_of_some hid]
      exact forall_mem_concat hgone ⟨(h.registered.drawn id m hm).2.trans heff.lastId_le, hremoved⟩
    · rw [recordedIds_concat_of_some hid, List.nodup_append]
      refine ⟨h.once, List.nodup_singleton id, ?_⟩
      intro a ha b hb hab
      rw [List.mem_singleton.mp hb] at hab
      exact hfresh (hab ▸ ha)
  · have hc : ∀ id, c ≠ .pruneMarket id := fun id hid => hprune ⟨id, hid⟩
    have hid : archivedId X ⟨w, .call env c, w'⟩ = none := by
      unfold archivedId
      split
      · rename_i _ id hact
        cases hact
        exact absurd rfl (hc id)
      · rfl
    refine ⟨heff.registered h.registered, ?_, ?_, ?_⟩
    · rw [recordedIds_concat_of_none hid, heff.archive_kept hc]
      exact h.holds
    · rw [recordedIds_concat_of_none hid]
      exact hgone
    · rw [recordedIds_concat_of_none hid]
      exact h.once

theorem Archived.idle {history : List (Transition World Action)} {w w' : World} {a : Action}
    (h : Archived X history w) (hidle : IdleStep w a w') (hok : callOk X ⟨w, a, w'⟩ = false) :
    Archived X (history ++ [⟨w, a, w'⟩]) w' := by
  have hid : archivedId X ⟨w, a, w'⟩ = none := by
    unfold archivedId
    split
    · rw [hok]
      rfl
    · rfl
  obtain ⟨b, t, sq, rfl⟩ := hidle.frame
  refine ⟨h.registered.of_markets rfl, ?_, ?_, ?_⟩
  · rw [recordedIds_concat_of_none hid]
    exact h.holds
  · rw [recordedIds_concat_of_none hid]
    exact h.gone
  · rw [recordedIds_concat_of_none hid]
    exact h.once

/-- Every run keeps its archive. -/
theorem archived_run (X : Externs) (b : Address → Address → Nat) (t s : Nat) (as : List Action) :
    Archived X (trace (step X) (genesis b t s) as) (run (step X) (genesis b t s) as) := by
  refine history_ok_invariant (Archived X) ?_ Archived.call Archived.idle as
  refine ⟨.genesis b t s, ⟨rfl, fun i => rfl⟩, ?_, List.nodup_nil⟩
  intro id hid
  cases hid

/-! ## §4. The three queries. -/

/-- Offsets and one page more cover all of `u32`. -/
theorem le_pageReach {l : Nat} (hl : 1 ≤ l) : 2 ^ 32 ≤ pageReach l := by
  have hdiv := Nat.div_add_mod (2 ^ 32 - 1) l
  have hmod := Nat.mod_lt (2 ^ 32 - 1) hl
  have hreach : pageReach l = l * ((2 ^ 32 - 1) / l) + l := by
    unfold pageReach
    rw [Nat.succ_mul, Nat.mul_comm]
  omega

theorem markets_pages_iff {w : World} (hreg : Registered w) (limit : Nat) :
    readAll (fun offset => some (w.markets.getMarkets offset limit))
        (pageOffsets (min limit maxPageLimit)) = some w.markets.listed
      ↔ ∀ id m, w.markets.market.lookup id = some m →
          id ≤ pageReach (min limit maxPageLimit) := by
  unfold MarketStore.getMarkets MarketStore.listed
  rw [readAll_pages, Option.some.injEq, listing_min_eq_iff]
  constructor
  · intro h id m hm
    by_contra hlt
    rw [h id (by omega) (hreg.drawn id m hm).2] at hm
    cases hm
  · intro h i hlo _
    by_contra hsome
    obtain ⟨m, hm⟩ := Option.ne_none_iff_exists'.mp hsome
    have hle := h i m hm
    omega

theorem archived_pages_iff {w : World} {ids : List Nat} (h : w.archive.Holds ids) (limit : Nat) :
    readAll (fun offset => some (w.archive.getArchivedMarketIds offset limit))
        (pageOffsets (min limit maxPageLimit)) = some ids
      ↔ w.archive.getArchivedCount ≤ pageReach (min limit maxPageLimit) := by
  unfold ArchiveStore.getArchivedMarketIds
  rw [readAll_pages, Option.some.injEq, listing_eq_take h.read, List.take_eq_self_iff, h.count]
  omega

theorem guardians_pages_iff (gs : List Guardian) {limit : Nat} (hlimit : 1 ≤ limit) :
    readAll (fun offset => getGuardiansPaginated gs offset limit)
        (pageOffsets (min limit maxPageLimit)) = some gs
      ↔ gs.length + min limit maxPageLimit < 2 ^ 32 := by
  have hl : 1 ≤ min limit maxPageLimit := by
    unfold maxPageLimit
    omega
  simp only [getGuardiansPaginated_eq]
  generalize min limit maxPageLimit = l at hl ⊢
  by_cases hfits : gs.length + l < 2 ^ 32
  · refine ⟨fun _ => hfits, fun _ => ?_⟩
    -- no end overflows, and the pages reach the last guardian
    have hpages : ∀ o ∈ pageOffsets l,
        (if min o gs.length + l < 2 ^ 32 then some (slice o l gs) else none)
          = some (slice o l gs) := by
      intro o _
      exact if_pos (by omega)
    have hreach := le_pageReach hl
    rw [readAll_congr hpages, readAll_some]
    unfold pageOffsets
    rw [List.map_map]
    refine congrArg some ((flatten_slices l _ gs).trans ?_)
    exact List.take_of_length_le (le_trans (by omega) hreach)
  · refine ⟨fun h => ?_, fun h => absurd h hfits⟩
    -- the last offset asks for an end that `u32` does not hold
    have hlast : (2 ^ 32 - 1) / l * l ∈ pageOffsets l :=
      List.mem_map.mpr ⟨_, List.mem_range.mpr (Nat.lt_succ_self _), rfl⟩
    have hreach := le_pageReach hl
    unfold pageReach at hreach
    rw [Nat.succ_mul] at hreach
    rw [readAll_eq_none hlast (if_neg (by omega))] at h
    cases h

/-! ## §5. Paging. -/

theorem Archived.pagesExact_iff {history : List (Transition World Action)} {w : World}
    (h : Archived X history w) {limit : Nat} (hlimit : 1 ≤ limit) :
    PagesExact X history w limit ↔ PagesInReach w (min limit maxPageLimit) := by
  constructor
  · intro hp
    exact ⟨(markets_pages_iff h.registered limit).mp hp.markets,
      (archived_pages_iff h.holds limit).mp hp.archived,
      (guardians_pages_iff _ hlimit).mp hp.guardians⟩
  · intro hr
    exact ⟨(markets_pages_iff h.registered limit).mpr hr.markets,
      (archived_pages_iff h.holds limit).mpr hr.archived,
      (guardians_pages_iff _ hlimit).mpr hr.guardians⟩

/-- **Paging loses and repeats nothing** exactly while everything stored is in
reach of a `u32` offset and no guardian page ends beyond `u32`. -/
theorem paging_exact_iff (X : Externs) (b : Address → Address → Nat) (t s : Nat)
    (as : List Action) (limit : Nat) (hlimit : 1 ≤ limit) :
    ListsMarkets (run (step X) (genesis b t s) as).markets
        (run (step X) (genesis b t s) as).markets.listed
      ∧ (recordedIds X (trace (step X) (genesis b t s) as)).Nodup
      ∧ (PagesExact X (trace (step X) (genesis b t s) as) (run (step X) (genesis b t s) as) limit
        ↔ PagesInReach (run (step X) (genesis b t s) as) (min limit maxPageLimit)) := by
  have h := archived_run X b t s as
  exact ⟨h.registered.listsMarkets, h.once, h.pagesExact_iff hlimit⟩

/-! ## §6. More markets than offsets. -/

/-- The market that account 2 opens as number `id`. -/
def numberedMarket (id : Nat) : Market := (sampleMarket ⟨2⟩ ⟨10⟩).newMarket id 0

/-- The world with one market more. -/
def World.withNumbered (w : World) (id : Nat) : World :=
  { w with
    markets := w.markets.addMarket (numberedMarket id) (requestedWindow w none)
    events := w.events ++ [.mktCreat id ⟨2⟩ "sample" 2 100000] }

/-- Creating a market is free and open, and `n` have been created. -/
structure FreeCreation (w : World) (n : Nat) : Prop where
  not_paused : w.breaker.getState ≠ .paused
  config : w.marketConfig = {}
  windows : w.windows = {}
  clock : w.timestamp = 0
  count : w.markets.lastId = n

theorem FreeCreation.withNumbered {w : World} {n : Nat} (h : FreeCreation w n) (id : Nat) :
    FreeCreation (w.withNumbered id) id :=
  ⟨h.not_paused, h.config, h.windows, h.clock, rfl⟩

/-- Another market gets the next id. -/
theorem FreeCreation.succeeds {w : World} {n : Nat} (h : FreeCreation w n) (hn : n + 1 < 2 ^ 64) :
    Succeeds sampleExterns everybody (.createMarket (sampleMarket ⟨2⟩ ⟨10⟩)) w
      (w.withNumbered (n + 1)) := by
  have hauth : requireAuth (sampleMarket ⟨2⟩ ⟨10⟩).creator everybody w = (.ok (), w) :=
    requireAuth_of_authorized (by decide)
  have hopen : requireNotPausedForHighRisk everybody w = (.ok (), w) :=
    requireNotPausedForHighRisk_ok.mpr ⟨h.not_paused, rfl⟩
  have hcheck : checkNewMarket (sampleMarket ⟨2⟩ ⟨10⟩) everybody w = (.ok (), w) :=
    bind_eq_ok.mpr ⟨0, w, reads_eq_ok.mpr ⟨h.clock, rfl⟩, rfl⟩
  have hcreator : checkCreator (sampleMarket ⟨2⟩ ⟨10⟩) everybody w = (.ok (true, 0, 0), w) := by
    simp only [checkCreator, bind_eq_ok, reads_eq_ok, failIf_ok, tokenBalance_ok, orTrap_ok,
      pure_eq_ok, Prod.mk.injEq, and_assoc, exists_and_left, exists_eq_left', exists_const,
      h.config]
    exact ⟨by decide, 0, rfl, fun hpos => absurd hpos.1 (lt_irrefl 0), rfl, rfl, rfl, trivial⟩
  have hstore : storeMarket (sampleMarket ⟨2⟩ ⟨10⟩) 0 none everybody w
      = (.ok (n + 1), w.withNumbered (n + 1)) := by
    have hcount : w.markets.marketCount.getD 0 = n := h.count
    simp only [storeMarket, bind_eq_ok, reads_eq_ok, orTrap_ok, resolveMarketDisputeWindow_ok,
      update_eq_ok, publish_ok, pure_eq_ok, addU64_eq_some, and_assoc, exists_and_left,
      exists_eq_left', exists_eq_left, exists_const, hcount, h.windows]
    refine ⟨hn, by decide, by decide, trivial, ?_⟩
    unfold World.withNumbered requestedWindow
    rw [h.windows]
    rfl
  refine ⟨.marketId (n + 1), returning_eq_ok.mpr ⟨n + 1, ?_, rfl⟩⟩
  -- neither a fee nor a deposit is charged
  exact bind_eq_ok.mpr ⟨(), w, hauth, bind_eq_ok.mpr ⟨(), w, hopen, bind_eq_ok.mpr ⟨(), w, hcheck,
    bind_eq_ok.mpr ⟨_, w, hcreator, bind_eq_ok.mpr ⟨(), w, rfl,
      bind_eq_ok.mpr ⟨(), w, rfl, hstore⟩⟩⟩⟩⟩⟩

/-- Account 1 deploys, and account 2 opens `n` markets. -/
def manyMarkets (n : Nat) : List Action :=
  .call everybody (.initializeContract ⟨1⟩ 0)
    :: List.replicate n (.call everybody (.createMarket (sampleMarket ⟨2⟩ ⟨10⟩)))

theorem freeCreation_manyMarkets {n : Nat} (hn : n < 2 ^ 64) :
    FreeCreation (sampleRun (manyMarkets n)) n := by
  induction n with
  | zero => exact ⟨by decide, rfl, rfl, rfl, rfl⟩
  | succ n ih =>
      have hfree := ih (by omega)
      unfold sampleRun manyMarkets at hfree ⊢
      rw [List.replicate_succ', ← List.cons_append, run_concat,
        step_of_succeeds (hfree.succeeds hn)]
      exact hfree.withNumbered (n + 1)

/-- The last of the markets is stored under its number. -/
theorem manyMarkets_lookup {n : Nat} (hpos : 0 < n) (hn : n < 2 ^ 64) :
    (sampleRun (manyMarkets n)).markets.market.lookup n = some (numberedMarket n) := by
  obtain ⟨k, rfl⟩ := Nat.exists_eq_add_of_lt hpos
  rw [Nat.zero_add] at hn ⊢
  have hfree := freeCreation_manyMarkets (n := k) (by omega)
  unfold sampleRun manyMarkets at hfree ⊢
  rw [List.replicate_succ', ← List.cons_append, run_concat, step_of_succeeds (hfree.succeeds hn)]
  exact (Store.lookup_insert_eq _ _ _ _).trans (if_pos rfl)

theorem manyMarkets_unpaged {n limit : Nat} (hn : n < 2 ^ 64)
    (hreach : pageReach (min limit maxPageLimit) < n) :
    ¬PagesExact sampleExterns (trace (step sampleExterns) sampleGenesis (manyMarkets n))
      (sampleRun (manyMarkets n)) limit := by
  intro h
  have hpages := (markets_pages_iff (sampleRun_reachable _).registered limit).mp h.markets
  exact absurd (hpages n _ (manyMarkets_lookup (by omega) hn)) (Nat.not_le.mpr hreach)

/-- Market 2³² + 5 is on none of the pages of a hundred. -/
theorem markets_past_offsets_unpaged :
    ¬PagesExact sampleExterns (trace (step sampleExterns) sampleGenesis (manyMarkets (2 ^ 32 + 5)))
      (sampleRun (manyMarkets (2 ^ 32 + 5))) 100 :=
  manyMarkets_unpaged (by decide) (by decide)

/-- The sample deployment, read in pages of two. -/
theorem paging_exact_sample :
    PagesExact sampleExterns (trace (step sampleExterns) sampleGenesis (sampleOpening 0 1000))
      (sampleRun (sampleOpening 0 1000)) 2 := by
  refine (paging_exact_iff sampleExterns sampleBalances 0 0 (sampleOpening 0 1000) 2
    (by decide)).2.2.mpr ⟨?_, ?_, ?_⟩
  · intro id m hm
    have hid := ((sampleRun_reachable (sampleOpening 0 1000)).registered.drawn id m hm).2
    have hlast : (sampleRun (sampleOpening 0 1000)).markets.lastId = 1 := by decide +kernel
    have hreach := le_pageReach (l := min 2 maxPageLimit) (by decide)
    omega
  · have hcount : (sampleRun (sampleOpening 0 1000)).archive.getArchivedCount = 0 := by
      decide +kernel
    exact hcount.le.trans (Nat.zero_le _)
  · have hnone : (sampleRun (sampleOpening 0 1000)).governance.getGuardians = [] := by
      decide +kernel
    show (sampleRun (sampleOpening 0 1000)).governance.getGuardians.length + _ < _
    rw [hnone]
    decide

end PredictIQ.Contract
