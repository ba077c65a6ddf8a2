/-
  PredictIQ.Safety.StatusIndex: the status index and the id space.

  `StatusIndex(id, status)` is kept by hand: written with a new record, moved
  by `update_market` after it has re-read the old one, and removed by
  `prune_market` from the bucket of resolved markets.  In every reachable state
  it names exactly the stored markets, each under its own status.  Ids come
  from a counter that only grows, so a pruned id is not given out again.
-/
import PredictIQ.Contract.Lifecycle

namespace PredictIQ.Contract

open Foundation Tx

variable {X : Externs}

/-! ## §1. The index. -/

/-- The index names exactly the stored markets, each under its status. -/
def MarketStore.Indexed (s : MarketStore) : Prop :=
  ∀ i st, s.statusIndex.lookup (i, st) ≠ none ↔ ∃ m, s.market.lookup i = some m ∧ m.status = st

/-- After one update the index holds the new entry, has lost the old one, and
is otherwise as it was. -/
theorem lookup_updateStatusIndex (index : Store (Nat × MarketStatus) Bool) (id i : Nat)
    (old new st : MarketStatus) :
    (updateStatusIndex index id old new).lookup (i, st) ≠ none ↔
      (i = id ∧ st = new) ∨ (¬(i = id ∧ st = old) ∧ index.lookup (i, st) ≠ none) := by
  unfold updateStatusIndex
  rw [Store.mem_insert_iff, Prod.mk.injEq]
  by_cases hnew : i = id ∧ st = new
  · exact ⟨fun _ => Or.inl hnew, fun _ => Or.inl hnew⟩
  · rw [or_iff_right hnew, or_iff_right hnew]
    -- the old entry goes only where the status changes
    split
    · rw [Store.mem_erase_iff, ne_eq, Prod.mk.injEq]
    · rename_i hsame
      rw [← not_not.mp hsame] at hnew
      exact (and_iff_right hnew).symm

/-- Rewriting a stored record keeps the index. -/
theorem MarketStore.Indexed.update {s : MarketStore} {m : Market} (old : Market) (h : s.Indexed)
    (hold : s.market.lookup m.id = some old) : (s.updateMarket m).Indexed := by
  intro i st
  have hindex : (s.updateMarket m).statusIndex
      = updateStatusIndex s.statusIndex m.id old.status m.status := by
    simp only [MarketStore.updateMarket, hold]
  rw [hindex, lookup_updateStatusIndex, MarketStore.lookup_updateMarket, h i st]
  by_cases hi : i = m.id
  · subst hi
    -- at this id the old record had one entry, and it is gone
    rw [if_pos rfl, hold]
    constructor
    · intro h
      rcases h with ⟨_, rfl⟩ | ⟨hne, m', hm', rfl⟩
      · exact ⟨m, rfl, rfl⟩
      · obtain rfl := Option.some.inj hm'
        exact absurd ⟨rfl, rfl⟩ hne
    · intro h
      obtain ⟨m', hm', rfl⟩ := h
      obtain rfl := Option.some.inj hm'
      exact Or.inl ⟨rfl, rfl⟩
  · rw [if_neg hi]
    simp [hi]

/-- A new record under an unused id comes with its entry. -/
theorem MarketStore.Indexed.add {s : MarketStore} {m : Market} {window : Nat} (h : s.Indexed)
    (hnew : s.market.lookup m.id = none) (hactive : m.status = .active) :
    (s.addMarket m window).Indexed := by
  intro i st
  show (s.statusIndex.insert (m.id, .active) true).lookup (i, st) ≠ none ↔ _
  rw [Store.mem_insert_iff, Prod.mk.injEq, h i st, MarketStore.lookup_addMarket]
  by_cases hi : i = m.id
  · subst hi
    -- no bucket held the id before
    simp [hnew, hactive, eq_comm]
  · simp [hi]

/-- Pruning a resolved market takes its only entry. -/
theorem MarketStore.Indexed.remove {s : MarketStore} {id : Nat} {m : Market} (h : s.Indexed)
    (hm : s.market.lookup id = some m) (hs : m.status = .resolved) :
    (s.removeMarket id).Indexed := by
  intro i st
  show (s.statusIndex.erase (id, .resolved)).lookup (i, st) ≠ none ↔ _
  rw [Store.mem_erase_iff, ne_eq, Prod.mk.injEq, h i st, MarketStore.lookup_removeMarket]
  by_cases hi : i = id
  · subst hi
    -- the bucket of resolved markets was the only one with this id
    simp [hm, hs, eq_comm]
  · simp [hi]

/-- **Every call keeps the index.** -/
theorem Effect.indexed {env : Env} {w w' : World} {c : Call} (hreg : Registered w)
    (hidx : w.markets.Indexed) (h : Effect X env w c w') : w'.markets.Indexed := by
  cases h with
  | created _ p id _ hc h =>
      obtain ⟨window, hw⟩ := h.markets
      have hnone := hreg.next_unused
      rw [MarketStore.lastId, ← h.id_eq] at hnone
      rw [hw]
      exact hidx.add hnone rfl
  | bet b m fee _ h =>
      obtain ⟨counts, hw⟩ := h.markets
      have hid := hreg.keyed _ m h.lookup
      rw [hw]
      exact hidx.update m (by rw [← h.lookup, ← hid]; rfl)
  | moved _ id f m m' br evs hc lookup move =>
      have hid := move.id_eq.trans (hreg.keyed id m lookup)
      exact hidx.update m (by rw [hid, lookup])
  | released id token m lookup auth resolved deposit funded =>
      have hid := hreg.keyed id m lookup
      exact hidx.update m (by rw [← lookup, ← hid])
  | pruned id m t ar evs lookup resolved since elapsed => exact hidx.remove lookup resolved
  | voted voter id outcome weight m ledger br evs _ lookup disputed snapshot frame =>
      obtain ⟨_, _, _, _, rfl⟩ := frame
      exact hidx
  | _ => exact hidx

/-- **In every reachable state the index is exact.** -/
theorem Reachable.indexed {w : World} (h : Reachable X w) : w.markets.Indexed := by
  obtain ⟨b, t, s, as, rfl⟩ := h
  refine registered_run_invariant (X := X) (fun v => v.markets.Indexed) (fun _ => True)
    (.genesis b t s) ?_ ?_ (fun _ _ _ h => h) (fun _ _ h => h) as fun _ _ => trivial
  · intro i st
    -- nothing is stored and nothing is indexed yet
    constructor
    · intro h
      exact absurd rfl h
    · intro h
      obtain ⟨m, hm, _⟩ := h
      cases hm
  · intro v env c v' hreg hidx _ hsucc
    exact hsucc.effect.indexed hreg hidx

/-! ## §2. The id space. -/

/-- The step is a call that returned the new market id `id`. -/
def GivesOut (X : Externs) (t : Transition World Action) (id : Nat) : Prop :=
  ∃ env c, t.act = .call env c ∧ exec X c env t.pre = (.ok (.marketId id), t.post)

/-- Only creations return a market id. -/
theorem exec_marketId {env : Env} {c : Call} {w w' : World} {id : Nat}
    (h : exec X c env w = (.ok (.marketId id), w')) :
    ∃ p, CreateMarketEffect env w p id w' := by
  cases c with
  | createMarket p =>
      obtain ⟨id', h, hid⟩ := returning_eq_ok.mp h
      obtain rfl := Ret.marketId.inj hid
      exact ⟨p, createMarketWithDisputeWindow_ok h⟩
  | createMarketWithDisputeWindow p dw =>
      obtain ⟨id', h, hid⟩ := returning_eq_ok.mp h
      obtain rfl := Ret.marketId.inj hid
      exact ⟨p, createMarketWithDisputeWindow_ok h⟩
  | withdrawProtocolFees token recipient =>
      obtain ⟨_, _, hr⟩ := returning_eq_ok.mp h
      cases hr
  | claimReferralRewards address token =>
      obtain ⟨_, _, hr⟩ := returning_eq_ok.mp h
      cases hr
  | voteForUpgrade voter voteFor =>
      obtain ⟨_, _, hr⟩ := returning_eq_ok.mp h
      cases hr
  | executeUpgrade =>
      obtain ⟨_, _, hr⟩ := returning_eq_ok.mp h
      cases hr
  | _ =>
      -- every other entrypoint returns `()`
      obtain ⟨_, hr⟩ := done_eq_ok.mp h
      cases hr

/-- A new id is the next one of the counter. -/
theorem GivesOut.next {t : Transition World Action} {id : Nat} (h : GivesOut X t id) :
    id = t.pre.markets.lastId + 1 ∧ t.post.markets.lastId = id := by
  obtain ⟨env, c, _, hexec⟩ := h
  obtain ⟨p, heff⟩ := exec_marketId hexec
  obtain ⟨window, hw⟩ := heff.markets
  refine ⟨heff.id_eq, ?_⟩
  rw [hw]
  rfl

/-- `MarketCount` never decreases. -/
theorem lastId_run (X : Externs) (w : World) (as : List Action) :
    w.markets.lastId ≤ (run (step X) w as).markets.lastId := by
  refine run_call_invariant (fun v => w.markets.lastId ≤ v.markets.lastId) (fun _ => True)
    (le_refl _) ?_ (fun _ _ h => h) (fun _ h => h) as fun _ _ => trivial
  intro v env c v' hle _ hsucc
  exact hle.trans hsucc.effect.lastId_le

/-! ## §3. The registry of a run. -/

/-- The index and the ids of a state are in order. -/
structure RegistryExact (w : World) : Prop where
  index : w.markets.Indexed
  ids : ∀ i m, w.markets.market.lookup i = some m → m.id = i ∧ 1 ≤ i ∧ i ≤ w.markets.lastId

/-- The counter of a history only grows, and later markets get larger ids. -/
structure IdsGivenOnce (X : Externs) (history : List (Transition World Action)) : Prop where
  grows : ∀ t ∈ history, t.pre.markets.lastId ≤ t.post.markets.lastId
  once : ∀ before t mid t' after i j, history = before ++ t :: (mid ++ t' :: after) →
    GivesOut X t i → GivesOut X t' j → i < j

/-- **Status index and id space**: after every run the status index names exactly
the stored markets under their status, records sit under their own id within
the counter, the counter only grew and no id was given out twice. -/
theorem status_index_exact (X : Externs) (b : Address → Address → Nat) (t s : Nat)
    (as : List Action) :
    RegistryExact (run (step X) (genesis b t s) as)
      ∧ IdsGivenOnce X (trace (step X) (genesis b t s) as) := by
  have hw : Reachable X (run (step X) (genesis b t s) as) := ⟨b, t, s, as, rfl⟩
  refine ⟨⟨hw.indexed, ?_⟩, ?_, ?_⟩
  · intro i m hm
    exact ⟨hw.registered.keyed i m hm, hw.registered.drawn i m hm⟩
  · intro tr htr
    obtain ⟨_, _, _, _, hpost⟩ := mem_trace (step X) htr
    rw [hpost]
    exact lastId_run X tr.pre [tr.act]
  · intro before tr mid tr' after i j htrace hi hj
    -- cut the run at the first creation, and what follows at the second
    obtain ⟨_, cs, _, _, _, _, hrest⟩ := trace_eq_append_cons (step X) htrace
    obtain ⟨ds, _, _, _, hpre, _, _⟩ := trace_eq_append_cons (step X) hrest.symm
    have hle := lastId_run X tr.post ds
    have hi' := hi.next.2
    have hj' := hj.next.1
    rw [← hpre] at hle
    omega

end PredictIQ.Contract
