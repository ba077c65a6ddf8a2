/-
  PredictIQ.Contract.Queries: the paged reads (`queries.rs`, and
  `get_archived_market_ids` of `event_archive.rs`).

  A query leaves the world as it is, so it is a function of the store it
  reads.  Offsets and limits are `u32`, ids and counters `u64`: the sum of an
  offset and a limit fits where it is taken in `u64`, and is checked where it
  is taken in `u32`.
-/
import PredictIQ.Contract.Lifecycle
import PredictIQ.Foundation.Slices

namespace PredictIQ.Contract

open Foundation

/-! ## §1. The queries. -/

/-- `MAX_PAGE_LIMIT`. -/
def maxPageLimit : Nat := 100

/-- The positions `start + 1 ..= end` of a page over 1-based keys, both ends
clamped to the counter. -/
def pagePositions (count offset limit : Nat) : List Nat :=
  let start := min offset count
  let stop := min (start + limit) count
  List.range' (start + 1) (stop - start)

def MarketStore.getMarkets (s : MarketStore) (offset limit : Nat) : List Market :=
  let limit := min limit maxPageLimit
  (pagePositions s.lastId offset limit).filterMap s.market.lookup

def ArchiveStore.getArchivedCount (s : ArchiveStore) : Nat := s.archivedMarketCount.getD 0

def ArchiveStore.getArchivedMarketIds (s : ArchiveStore) (offset limit : Nat) : List Nat :=
  let limit := min limit maxPageLimit
  (pagePositions s.getArchivedCount offset limit).filterMap s.archivedMarket.lookup

def MarketStore.hasStatusIndex (s : MarketStore) (marketId : Nat) (status : MarketStatus) : Bool :=
  (s.statusIndex.lookup (marketId, status)).isSome

/-- The loop of `get_markets_by_status` over the ids from `i` down to 1. -/
def MarketStore.scanStatus (s : MarketStore) (status : MarketStatus) (offset limit : Nat) :
    Nat → Nat → Nat → List Market → List Market
  | 0, _, _, markets => markets
  | i + 1, found, skipped, markets =>
      if s.hasStatusIndex (i + 1) status = true then
        if skipped < offset then s.scanStatus status offset limit i found (skipped + 1) markets
        else
          match s.market.lookup (i + 1) with
          | some market =>
              -- the limit is looked at after the market went in
              if limit ≤ found + 1 then markets ++ [market]
              else s.scanStatus status offset limit i (found + 1) skipped (markets ++ [market])
          | none => s.scanStatus status offset limit i found skipped markets
      else s.scanStatus status offset limit i found skipped markets

def MarketStore.getMarketsByStatus (s : MarketStore) (status : MarketStatus)
    (offset limit : Nat) : List Market :=
  let limit := min limit maxPageLimit
  s.scanStatus status offset limit s.lastId 0 0 []

/-- `get_guardians_paginated`; `none` is the trap of `start + limit` in `u32`. -/
def getGuardiansPaginated (allGuardians : List Guardian) (offset limit : Nat) :
    Option (List Guardian) := do
  let limit := min limit maxPageLimit
  let start := min offset allGuardians.length
  let stop ← addU32 start limit
  let stop := min stop allGuardians.length
  some ((List.range' start (stop - start)).filterMap fun i => allGuardians[i]?)

/-! ## §2. Pages as slices. -/

/-- The positions of a page are a slice of all positions. -/
theorem pagePositions_eq_slice (count offset limit : Nat) :
    pagePositions count offset limit = slice offset limit (List.range' 1 count) := by
  show List.range' (min offset count + 1) (min (min offset count + limit) count - min offset count)
    = ((List.range' 1 count).drop offset).take limit
  rw [List.drop_range', Nat.mul_one, Nat.add_comm 1 offset]
  rcases Nat.le_total count offset with hpast | hin
  · -- a page past the end holds nothing
    rw [min_eq_right hpast, min_eq_right (Nat.le_add_right _ _), Nat.sub_self,
      Nat.sub_eq_zero_of_le hpast, List.range'_zero, List.range'_zero, List.take_nil]
  · rw [min_eq_left hin]
    rcases Nat.le_total limit (count - offset) with hfull | hshort
    · rw [List.take_range'_of_length_ge hfull, min_eq_left (by omega), Nat.add_sub_cancel_left]
    · rw [List.take_range'_of_length_le hshort, min_eq_right (by omega)]

/-- What is kept under the positions `1 ..= count`, in order. -/
def listing {α : Type} (count : Nat) (read : Nat → Option α) : List α :=
  (List.range' 1 count).filterMap read

/-- The stored markets in increasing id order. -/
def MarketStore.listed (s : MarketStore) : List Market := listing s.lastId s.market.lookup

/-- The archived ids, oldest first. -/
def ArchiveStore.listed (s : ArchiveStore) : List Nat :=
  listing s.getArchivedCount s.archivedMarket.lookup

/-- Consecutive pages of a listing show what its first positions hold. -/
theorem flatten_pages {α : Type} (count l k : Nat) (read : Nat → Option α) :
    ((List.range k).map fun i => (pagePositions count (i * l) l).filterMap read).flatten
      = listing (min (k * l) count) read := by
  have hpages : ((List.range k).map fun i => (pagePositions count (i * l) l).filterMap read)
      = ((List.range k).map fun i => slice (i * l) l (List.range' 1 count)).map
          (List.filterMap read) := by
    rw [List.map_map]
    refine List.map_congr_left fun i _ => ?_
    rw [pagePositions_eq_slice]
    rfl
  rw [hpages, ← List.filterMap_flatten, flatten_slices]
  unfold listing
  rcases Nat.le_total (k * l) count with hle | hle
  · rw [List.take_range'_of_length_ge hle, min_eq_left hle]
  · rw [List.take_range'_of_length_le hle, min_eq_right hle]

/-- A guardian page is a slice of the list, unless its end overflows. -/
theorem getGuardiansPaginated_eq (gs : List Guardian) (offset limit : Nat) :
    getGuardiansPaginated gs offset limit =
      if min offset gs.length + min limit maxPageLimit < 2 ^ 32 then
        some (slice offset (min limit maxPageLimit) gs)
      else none := by
  unfold getGuardiansPaginated
  by_cases hfits : min offset gs.length + min limit maxPageLimit < 2 ^ 32
  · rw [if_pos hfits]
    simp only [addU32, if_pos hfits, Option.bind_eq_bind, Option.bind_some]
    congr 1
    rw [filterMap_getElem?_range', slice_clamp]
  · rw [if_neg hfits]
    simp only [addU32, if_neg hfits]
    rfl

end PredictIQ.Contract
