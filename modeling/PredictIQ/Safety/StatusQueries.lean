/-
  PredictIQ.Safety.StatusQueries: `get_markets_by_status` against a plain scan.

  The query walks the status index instead of the records.  The index is exact
  in every reachable state, so the walk meets the markets a scan of all the
  records would; what it returns differs where the limit is 0, because the
  loop looks at the limit after it has taken a market.
-/
import PredictIQ.Contract.Queries
import PredictIQ.Safety.StatusIndex

namespace PredictIQ.Contract

open Foundation

variable {X : Externs}

/-! ## §1. The plain scan. -/

/-- The stored markets with this status among the ids `i, …, 1`, latest first. -/
def MarketStore.reverseScan (s : MarketStore) (status : MarketStatus) : Nat → List Market
  | 0 => []
  | i + 1 =>
      match s.market.lookup (i + 1) with
      | some m =>
          if m.status = status then m :: s.reverseScan status i else s.reverseScan status i
      | none => s.reverseScan status i

/-- All stored markets with this status, latest first. -/
def MarketStore.withStatus (s : MarketStore) (status : MarketStatus) : List Market :=
  s.reverseScan status s.lastId

/-- `ms` lists the stored markets with this status in decreasing id order. -/
structure ListsStatus (s : MarketStore) (status : MarketStatus) (ms : List Market) : Prop where
  members : ∀ m, m ∈ ms ↔ s.market.lookup m.id = some m ∧ m.status = status
  decreasing : ms.Pairwise fun m m' => m'.id < m.id

section Scan

variable {s : MarketStore} {status : MarketStatus}

theorem reverseScan_of_some {i : Nat} {m : Market} (hm : s.market.lookup (i + 1) = some m)
    (hs : m.status = status) :
    s.reverseScan status (i + 1) = m :: s.reverseScan status i := by
  simp only [MarketStore.reverseScan, hm, if_pos hs]

theorem reverseScan_of_not {i : Nat}
    (h : ∀ m, s.market.lookup (i + 1) = some m → m.status ≠ status) :
    s.reverseScan status (i + 1) = s.reverseScan status i := by
  cases hm : s.market.lookup (i + 1) with
  | none => simp only [MarketStore.reverseScan, hm]
  | some m => simp only [MarketStore.reverseScan, hm, if_neg (h m hm)]

theorem mem_reverseScan {m : Market} {n : Nat} :
    m ∈ s.reverseScan status n ↔
      ∃ i, 1 ≤ i ∧ i ≤ n ∧ s.market.lookup i = some m ∧ m.status = status := by
  induction n with
  | zero =>
      constructor
      · intro h
        cases h
      · intro h
        obtain ⟨i, hlo, hhi, _⟩ := h
        omega
  | succ n ih =>
      by_cases hex : ∃ m', s.market.lookup (n + 1) = some m' ∧ m'.status = status
      · obtain ⟨m', hm', hs'⟩ := hex
        rw [reverseScan_of_some hm' hs', List.mem_cons, ih]
        constructor
        · intro h
          rcases h with rfl | ⟨i, hlo, hhi, hm, hs⟩
          · exact ⟨n + 1, by omega, le_refl _, hm', hs'⟩
          · exact ⟨i, hlo, by omega, hm, hs⟩
        · intro h
          obtain ⟨i, hlo, hhi, hm, hs⟩ := h
          by_cases hi : i = n + 1
          · rw [hi, hm'] at hm
            exact Or.inl (Option.some.inj hm).symm
          · exact Or.inr ⟨i, hlo, by omega, hm, hs⟩
      · rw [reverseScan_of_not fun m' hm' hs' => hex ⟨m', hm', hs'⟩, ih]
        constructor
        · intro h
          obtain ⟨i, hlo, hhi, hm, hs⟩ := h
          exact ⟨i, hlo, by omega, hm, hs⟩
        · intro h
          obtain ⟨i, hlo, hhi, hm, hs⟩ := h
          have hi : i ≠ n + 1 := by
            rintro rfl
            exact hex ⟨m, hm, hs⟩
          exact ⟨i, hlo, by omega, hm, hs⟩

/-- Where records sit under their own id, later ones come first. -/
theorem reverseScan_decreasing (hkeyed : ∀ k m, s.market.lookup k = some m → m.id = k) (n : Nat) :
    (s.reverseScan status n).Pairwise fun m m' => m'.id < m.id := by
  induction n with
  | zero => exact List.Pairwise.nil
  | succ n ih =>
      by_cases hex : ∃ m', s.market.lookup (n + 1) = some m' ∧ m'.status = status
      · obtain ⟨m', hm', hs'⟩ := hex
        rw [reverseScan_of_some hm' hs']
        refine List.Pairwise.cons ?_ ih
        intro m hm
        obtain ⟨i, _, hi, hmi, _⟩ := mem_reverseScan.mp hm
        rw [hkeyed i m hmi, hkeyed (n + 1) m' hm']
        omega
      · rw [reverseScan_of_not fun m' hm' hs' => hex ⟨m', hm', hs'⟩]
        exact ih

/-- The plain scan sees every stored market with the status. -/
theorem Registered.listsStatus {w : World} (h : Registered w) (status : MarketStatus) :
    ListsStatus w.markets status (w.markets.withStatus status) := by
  refine ⟨?_, reverseScan_decreasing h.keyed _⟩
  intro m
  unfold MarketStore.withStatus
  rw [mem_reverseScan]
  constructor
  · intro hex
    obtain ⟨i, _, _, hm, hs⟩ := hex
    rw [h.keyed i m hm]
    exact ⟨hm, hs⟩
  · intro hm
    obtain ⟨hlo, hhi⟩ := h.drawn m.id m hm.1
    exact ⟨m.id, hlo, hhi, hm⟩

/-! ## §2. The walk over the index. -/

theorem hasStatusIndex_iff (hidx : s.Indexed) {i : Nat} :
    s.hasStatusIndex i status = true ↔ ∃ m, s.market.lookup i = some m ∧ m.status = status := by
  rw [← hidx i status]
  unfold MarketStore.hasStatusIndex
  rw [Option.isSome_iff_ne_none]

/-- The loop passes over what is left to skip and keeps what is left to keep,
but never less than one market. -/
theorem scanStatus_eq_slice (hidx : s.Indexed) {offset limit i found skipped : Nat}
    {markets : List Market} (hfound : found < max limit 1) (hskipped : skipped ≤ offset) :
    s.scanStatus status offset limit i found skipped markets
      = markets ++ slice (offset - skipped) (max limit 1 - found) (s.reverseScan status i) := by
  induction i generalizing found skipped markets with
  | zero =>
      show markets = markets ++ slice _ _ []
      rw [slice_of_length_le (Nat.zero_le _), List.append_nil]
  | succ i ih =>
      by_cases hindex : s.hasStatusIndex (i + 1) status = true
      · obtain ⟨m, hm, hs⟩ := (hasStatusIndex_iff hidx).mp hindex
        rw [reverseScan_of_some hm hs]
        simp only [MarketStore.scanStatus, if_pos hindex, hm]
        split
        · rename_i hskip
          rw [ih hfound (by omega), show offset - skipped = offset - (skipped + 1) + 1 by omega]
          rfl
        · rw [show offset - skipped = 0 by omega]
          split
          · -- the market that fills the page, or the one taken with limit 0
            rw [show max limit 1 - found = 1 by omega]
            rfl
          · rw [ih (by omega) hskipped, show offset - skipped = 0 by omega,
              show max limit 1 - found = max limit 1 - (found + 1) + 1 by omega, List.append_assoc]
            rfl
      · have hnot : ∀ m, s.market.lookup (i + 1) = some m → m.status ≠ status := by
          intro m hm hs
          exact hindex ((hasStatusIndex_iff hidx).mpr ⟨m, hm, hs⟩)
        rw [reverseScan_of_not hnot]
        simp only [MarketStore.scanStatus, if_neg hindex]
        exact ih hfound hskipped

/-- The query returns the page of the plain scan, with a limit of at least 1. -/
theorem getMarketsByStatus_eq (hidx : s.Indexed) (offset limit : Nat) :
    s.getMarketsByStatus status offset limit
      = slice offset (max (min limit maxPageLimit) 1) (s.withStatus status) :=
  scanStatus_eq_slice hidx (by omega) (Nat.zero_le _)

end Scan

/-! ## §3. The query against the scan. -/

/-- **Status queries match the plain scan** unless the limit is 0 and there is
a market behind the offset. -/
theorem status_query_exact_iff {w : World} (hw : Reachable X w) (status : MarketStatus)
    (offset limit : Nat) :
    ListsStatus w.markets status (w.markets.withStatus status) ∧
      (w.markets.getMarketsByStatus status offset limit
          = slice offset (min limit maxPageLimit) (w.markets.withStatus status)
        ↔ limit ≠ 0 ∨ (w.markets.withStatus status).length ≤ offset) := by
  refine ⟨hw.registered.listsStatus status, ?_⟩
  rw [getMarketsByStatus_eq hw.indexed]
  by_cases hlimit : limit = 0
  · subst hlimit
    constructor
    · intro h
      refine Or.inr ?_
      -- one market against none
      have hlen := congrArg List.length h
      simp only [slice, Nat.zero_min, List.take_zero, List.length_nil, List.length_take,
        List.length_drop] at hlen
      omega
    · intro h
      have hle := h.resolve_left (not_not.mpr rfl)
      rw [slice_of_length_le hle, slice_of_length_le hle]
  · have hmax : max (min limit maxPageLimit) 1 = min limit maxPageLimit := by
      unfold maxPageLimit
      omega
    rw [hmax]
    exact ⟨fun _ => Or.inl hlimit, fun _ => rfl⟩

/-- The sample market, asked for with a limit of 1. -/
theorem status_query_exact_sample :
    (sampleRun (sampleOpening 0 1000)).markets.getMarketsByStatus .active 0 1
      = slice 0 1 ((sampleRun (sampleOpening 0 1000)).markets.withStatus .active) :=
  (status_query_exact_iff (sampleRun_reachable (sampleOpening 0 1000)) .active 0 1).2.mpr
    (Or.inl (by decide))

/-- With a limit of 0 the query still returns the sample market. -/
theorem limit_zero_returns_one :
    ¬∀ w, Reachable sampleExterns w → ∀ status offset limit,
      w.markets.getMarketsByStatus status offset limit
        = slice offset (min limit maxPageLimit) (w.markets.withStatus status) := by
  intro h
  have hpage := h _ (sampleRun_reachable (sampleOpening 0 1000)) .active 0 0
  have hlen : ((sampleRun (sampleOpening 0 1000)).markets.getMarketsByStatus .active 0 0).length
      = 1 := by decide +kernel
  rw [hpage] at hlen
  cases hlen

end PredictIQ.Contract
