/-
  PredictIQ.Safety.StatusMachine: market status is a one-way state machine.

  Three facts about every reachable state: a call moves a market along one of
  eight edges or not at all; a settled market keeps its result and its pool
  for as long as its record exists, over runs of any length; and bets are
  recorded only on active markets before both deadlines.
-/
import PredictIQ.Contract.Lifecycle

namespace PredictIQ.Contract

open Foundation

variable {X : Externs}

/-! ## §1. The edges. -/

/-- The transitions a market's status may make. -/
inductive StatusEdge : MarketStatus → MarketStatus → Prop
  | activePending : StatusEdge .active .pendingResolution
  | activeResolved : StatusEdge .active .resolved
  | activeCancelled : StatusEdge .active .cancelled
  | pendingDisputed : StatusEdge .pendingResolution .disputed
  | pendingResolved : StatusEdge .pendingResolution .resolved
  | pendingCancelled : StatusEdge .pendingResolution .cancelled
  | disputedResolved : StatusEdge .disputed .resolved
  | disputedCancelled : StatusEdge .disputed .cancelled

/-- A running market may be resolved. -/
theorem StatusEdge.to_resolved {s : MarketStatus} (h : s ≠ .resolved ∧ s ≠ .cancelled) :
    StatusEdge s .resolved := by
  cases s with
  | active => exact .activeResolved
  | pendingResolution => exact .pendingResolved
  | disputed => exact .disputedResolved
  | resolved => exact absurd rfl h.1
  | cancelled => exact absurd rfl h.2

/-- A running market may be cancelled. -/
theorem StatusEdge.to_cancelled {s : MarketStatus} (h : s ≠ .resolved ∧ s ≠ .cancelled) :
    StatusEdge s .cancelled := by
  cases s with
  | active => exact .activeCancelled
  | pendingResolution => exact .pendingCancelled
  | disputed => exact .disputedCancelled
  | resolved => exact absurd rfl h.1
  | cancelled => exact absurd rfl h.2

theorem LifecycleMove.edge {w : World} {id : Nat} {f : LifecycleCall} {m m' : Market}
    (h : LifecycleMove X w id m f m') : StatusEdge m.status m'.status := by
  cases h with
  | answer outcome active =>
      rw [active]
      exact .activePending
  | confirm t outcome pending =>
      rw [pending]
      exact .pendingResolved
  | decide t outcome disputed =>
      rw [disputed]
      exact .disputedResolved
  | dispute t pending =>
      rw [pending]
      exact .pendingDisputed
  | resolve outcome running => exact .to_resolved running
  | cancel running => exact .to_cancelled running
  | voteDown disputed =>
      rw [disputed]
      exact .disputedCancelled

/-- One call moves a market along an edge, or leaves its status. -/
theorem MarketChange.edge {w : World} {k : Nat} {c : Call} {m m' : Market}
    (h : MarketChange X w k c (some m) (some m')) :
    m'.status = m.status ∨ StatusEdge m.status m'.status := by
  cases h with
  | same => exact Or.inl rfl
  | bet b _ fee counts => exact Or.inl rfl
  | moved _ _ _ _ hc move => exact Or.inr move.edge
  | released token => exact Or.inl rfl

/-! ## §2. Settled markets. -/

/-- Resolved or cancelled. -/
def Market.Settled (m : Market) : Prop := m.status = .resolved ∨ m.status = .cancelled

theorem LifecycleMove.not_settled {w : World} {id : Nat} {f : LifecycleCall} {m m' : Market}
    (h : LifecycleMove X w id m f m') : ¬m.Settled := by
  intro hs
  -- no edge leaves a settled status
  have hedge := h.edge
  unfold Market.Settled at hs
  generalize m.status = s at hs hedge
  rcases hs with rfl | rfl <;> cases hedge

/-- What may be left of a settled market: the record, possibly with its
deposit returned, or nothing. -/
def LeftOf (m : Market) (o : Option Market) : Prop :=
  o = none ∨ o = some m ∨ o = some { m with creationDeposit := 0 }

/-- One call can return the deposit of a settled market or prune it. -/
theorem MarketChange.of_settled {w : World} {k : Nat} {c : Call} {m : Market} {o : Option Market}
    (hs : m.Settled) (h : MarketChange X w k c (some m) o) : LeftOf m o := by
  cases h with
  | same => exact Or.inr (Or.inl rfl)
  | bet b _ fee counts here accepts =>
      -- bets need an active market
      have hactive := accepts.active
      unfold Market.Settled at hs
      rw [hactive] at hs
      rcases hs with h | h <;> cases h
  | moved _ _ _ _ hc move => exact absurd hs move.not_settled
  | released token => exact Or.inr (Or.inr rfl)
  | pruned => exact Or.inl rfl

/-- What is left of a settled market after one call, after several. -/
theorem MarketChange.leftOf {w : World} {k : Nat} {c : Call} {m : Market} {o o' : Option Market}
    (hs : m.Settled) (hdrawn : k ≤ w.markets.lastId) (ho : LeftOf m o)
    (h : MarketChange X w k c o o') : LeftOf m o' := by
  -- gone, as it was, or without its deposit
  rcases ho with rfl | rfl | rfl
  · cases h with
    | same => exact Or.inl rfl
    | created _ p hc next =>
        -- ids are never given out twice
        omega
  · exact h.of_settled hs
  · rcases h.of_settled (m := { m with creationDeposit := 0 }) hs with h | h | h
    · exact Or.inl h
    · exact Or.inr (Or.inr h)
    · exact Or.inr (Or.inr h)

/-- Over a run, a settled market stays as it is until it is pruned, and never
comes back. -/
theorem settled_forever {w : World} {k : Nat} {m : Market} (hreg : Registered w)
    (hm : w.markets.market.lookup k = some m) (hs : m.Settled) (as : List Action) :
    LeftOf m ((run (step X) w as).markets.market.lookup k) := by
  -- the id stays given out, so that a pruned record is not replaced
  let I : World → Prop := fun v => k ≤ v.markets.lastId ∧ LeftOf m (v.markets.market.lookup k)
  have h0 : I w := ⟨(hreg.drawn k m hm).2, Or.inr (Or.inl hm)⟩
  refine (registered_run_invariant I (fun _ => True) hreg h0 ?_ (fun _ _ _ hI => hI)
    (fun _ _ hI => hI) as fun _ _ => trivial).2
  intro v env c v' hv h _ hsucc
  obtain ⟨hdrawn, hleft⟩ := h
  have heff := hsucc.effect
  exact ⟨hdrawn.trans heff.lastId_le, (heff.marketChange hv k).leftOf hs hdrawn hleft⟩

/-! ## §3. Bets. -/

/-- A bet record changes only by a bet the market accepts. -/
theorem Effect.bet_of_changed {env : Env} {w w' : World} {c : Call} {key : Nat × Address × Nat}
    (h : Effect X env w c w') (hne : w'.bets.bet.lookup key ≠ w.bets.bet.lookup key) :
    ∃ b m fee, c = .placeBet b ∧ b.key = key ∧ PlaceBetEffect env w b m fee w' := by
  rcases h.bets with ⟨b, m, fee, rfl, hbet⟩ | ⟨_, hbets⟩
  · refine ⟨b, m, fee, rfl, ?_, hbet⟩
    -- a bet under another key leaves this record alone
    by_contra hkey
    rw [hbet.bet, Store.lookup_insert_eq, if_neg (fun h => hkey h.symm)] at hne
    exact hne rfl
  · rw [hbets] at hne
    exact absurd rfl hne

/-! ## §4. The state machine. -/

/-- **Market status is a one-way state machine**: one call moves a status
along an edge, a settled market keeps its result and pool over every run, and
a bet record changes only while its market is active and before both
deadlines. -/
theorem status_one_way (X : Externs) (w : World) (hw : Reachable X w) :
    (∀ env c k m m', w.markets.market.lookup k = some m →
        (step X w (.call env c)).markets.market.lookup k = some m' →
        m'.status = m.status ∨ StatusEdge m.status m'.status) ∧
      (∀ as k m m', w.markets.market.lookup k = some m → m.Settled →
        (run (step X) w as).markets.market.lookup k = some m' →
        m' = m ∨ m' = { m with creationDeposit := 0 }) ∧
      (∀ env c key,
        (step X w (.call env c)).bets.bet.lookup key ≠ w.bets.bet.lookup key →
        ∃ b m, c = .placeBet b ∧ b.key = key ∧ w.markets.market.lookup b.marketId = some m
          ∧ m.status = .active ∧ w.timestamp < m.deadline
          ∧ w.timestamp < m.resolutionDeadline) := by
  have hreg := hw.registered
  refine ⟨?_, ?_, ?_⟩
  · intro env c k m m' hm hm'
    rcases step_call_effect X env c w with h | h
    · rw [h, hm] at hm'
      cases hm'
      exact Or.inl rfl
    · have hchange := h.marketChange hreg k
      rw [hm, hm'] at hchange
      exact hchange.edge
  · intro as k m m' hm hs hm'
    rcases settled_forever hreg hm hs as with h | h | h
    · rw [h] at hm'
      cases hm'
    · exact Or.inl (Option.some.inj (hm'.symm.trans h))
    · exact Or.inr (Option.some.inj (hm'.symm.trans h))
  · intro env c key hne
    rcases step_call_effect X env c w with h | h
    · rw [h] at hne
      exact absurd rfl hne
    · obtain ⟨b, m, fee, hc, hkey, heff⟩ := h.bet_of_changed hne
      exact ⟨b, m, hc, hkey, heff.lookup, heff.accepts.active, heff.accepts.before_deadline,
        heff.accepts.before_resolution⟩

/-- The three parts at work: a market with a bet on it is resolved, resists a
second resolution, and its bets were recorded while it was active. -/
theorem status_one_way_sample :
    (∃ m m', (sampleRun (sampleOpening 100 1000)).markets.market.lookup 1 = some m
        ∧ (sampleRun (sampleOpening 100 1000 ++ [.call everybody (.resolveMarket 1 0)])
            ).markets.market.lookup 1 = some m'
        ∧ (m'.status = m.status ∨ StatusEdge m.status m'.status)) ∧
      (∃ m m', (sampleRun (sampleOpening 100 1000 ++ [.call everybody (.resolveMarket 1 0)])
            ).markets.market.lookup 1 = some m
        ∧ (sampleRun (sampleOpening 100 1000 ++ [.call everybody (.resolveMarket 1 0)]
            ++ [.call everybody (.resolveMarket 1 1)])).markets.market.lookup 1 = some m'
        ∧ (m' = m ∨ m' = { m with creationDeposit := 0 })) ∧
      ∃ (b : BetParams) (m : Market), b.key = (1, ⟨3⟩, 1)
        ∧ (sampleRun (sampleOpening 100 1000)).markets.market.lookup b.marketId = some m
        ∧ m.status = .active := by
  refine ⟨⟨_, _, rfl, rfl, ?_⟩, ⟨_, _, rfl, rfl, ?_⟩, ?_⟩
  · exact (status_one_way sampleExterns _
      (sampleRun_reachable (sampleOpening 100 1000))).1 everybody
      (.resolveMarket 1 0) 1 _ _ rfl rfl
  · exact (status_one_way sampleExterns _ (sampleRun_reachable
      (sampleOpening 100 1000 ++ [.call everybody (.resolveMarket 1 0)]))).2.1
      [.call everybody (.resolveMarket 1 1)] 1 _ _ rfl (Or.inl rfl) rfl
  · obtain ⟨b, m, _, hkey, hm, hs, _⟩ :=
      (status_one_way sampleExterns _ (sampleRun_reachable (sampleOpening 100 1000))).2.2 everybody
        (.placeBet (sampleBet ⟨3⟩ ⟨10⟩ 1 1 500)) (1, ⟨3⟩, 1) (by decide)
    exact ⟨b, m, hkey, hm, hs⟩

end PredictIQ.Contract
