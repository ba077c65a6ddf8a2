/-
  PredictIQ.Contract.Lifecycle: one market record under a successful call.

  `Registered` says that records sit under their own id and that ids are
  drawn from the counter.  From it, `Effect.marketChange` projects a call's
  effect to the record under a single id: created, bet on, moved, released,
  pruned, or left as it was.  Properties of one market are case analyses over
  `MarketChange`.
-/
import PredictIQ.Contract.Effects

namespace PredictIQ.Contract

open Foundation

variable {X : Externs}

/-! ## §1. Invariants of reachable states. -/

/-- Steps that are no successful call. -/
inductive IdleStep (w : World) : Action → World → Prop
  | failed (env : Env) (c : Call) : IdleStep w (.call env c) w
  | advanced (seconds ledgers : Nat) : IdleStep w (.advance seconds ledgers)
      { w with timestamp := w.timestamp + seconds, sequence := w.sequence + ledgers }
  | moved (balances : Address → Address → Nat) : IdleStep w (.external balances)
      { w with balances := balances }

/-- An idle step changes the clock and the balances at most. -/
theorem IdleStep.frame {w w' : World} {a : Action} (h : IdleStep w a w') :
    ∃ b t s, w' = { w with balances := b, timestamp := t, sequence := s } := by
  cases h <;> exact ⟨_, _, _, rfl⟩

/-- The transfers made in a step. -/
def newTransfers (t : Transition World Action) : List Transfer :=
  t.post.transfers.drop t.pre.transfers.length

theorem newTransfers_of_same {t : Transition World Action} (h : t.post = t.pre) :
    newTransfers t = [] := by
  unfold newTransfers
  rw [h]
  exact List.drop_length

/-- A bet makes one transfer, the payment of its amount. -/
theorem PlaceBetEffect.newTransfers_eq {env : Env} {w w' : World} {b : BetParams} {m : Market}
    {fee : Int} (h : PlaceBetEffect env w b m fee w') (a : Action) :
    newTransfers ⟨w, a, w'⟩ = [b.payment] := by
  obtain ⟨evs, hw⟩ := h.frame
  show w'.transfers.drop w.transfers.length = _
  rw [hw]
  exact List.drop_left

/-- What holds before a call, and after it if it succeeds, holds after the step. -/
theorem step_call_keeps (I : World → Prop) {w : World} {env : Env} {c : Call} (hI : I w)
    (hsucc : Succeeds X env c w (step X w (.call env c)) → I (step X w (.call env c))) :
    I (step X w (.call env c)) := by
  rcases step_call_cases X env c w with hsame | h
  · rw [hsame]
    exact hI
  · exact hsucc h

/-- A property kept by every successful call that meets the side condition `C`,
by time and by outside transfers holds after every run whose steps meet `C`. -/
theorem run_call_invariant (I : World → Prop) (C : Transition World Action → Prop) {w : World}
    (h0 : I w)
    (hcall : ∀ {v env c v'}, I v → C ⟨v, .call env c, v'⟩ → Succeeds X env c v v' → I v')
    (hadvance : ∀ {v} seconds ledgers, I v →
      I { v with timestamp := v.timestamp + seconds, sequence := v.sequence + ledgers })
    (hexternal : ∀ {v} balances, I v → I { v with balances := balances })
    (as : List Action) (hC : ∀ t ∈ trace (step X) w as, C t) : I (run (step X) w as) := by
  refine run_invariant_of (step X) I C h0 ?_ as hC
  intro v a hI hc
  cases a with
  | call env c => exact step_call_keeps I hI fun hsucc => hcall hI hc hsucc
  | advance seconds ledgers => exact hadvance seconds ledgers hI
  | external balances => exact hexternal balances hI

/-- The same for a property of the state and its history; a step that is no
successful call is one that keeps everything but the clock and the balances. -/
theorem history_ok_invariant (J : List (Transition World Action) → World → Prop) {w : World}
    (h0 : J [] w)
    (hok : ∀ {history v env c v'}, J history v → Succeeds X env c v v' →
      J (history ++ [⟨v, .call env c, v'⟩]) v')
    (hidle : ∀ {history v a v'}, J history v → IdleStep v a v' → callOk X ⟨v, a, v'⟩ = false →
      J (history ++ [⟨v, a, v'⟩]) v')
    (as : List Action) : J (trace (step X) w as) (run (step X) w as) := by
  refine history_invariant (step X) J (fun _ => True) h0 ?_ as fun _ _ => trivial
  intro as a hJ _
  cases a with
  | call env c =>
      by_cases hsucc : callOk X ⟨run (step X) w as, .call env c, run (step X) w as⟩ = true
      · exact hok hJ (callOk_iff.mp hsucc)
      · rw [step_of_not_callOk hsucc]
        exact hidle hJ (.failed env c) (Bool.eq_false_iff.mpr hsucc)
  | advance seconds ledgers => exact hidle hJ (.advanced seconds ledgers) rfl
  | external balances => exact hidle hJ (.moved balances) rfl

/-- The same, where it does not count that an idle step returned no `Ok`. -/
theorem history_call_invariant (J : List (Transition World Action) → World → Prop) {w : World}
    (h0 : J [] w)
    (hcall : ∀ {history v env c v'}, J history v → Succeeds X env c v v' →
      J (history ++ [⟨v, .call env c, v'⟩]) v')
    (hidle : ∀ {history v a v'}, J history v → IdleStep v a v' →
      J (history ++ [⟨v, a, v'⟩]) v')
    (as : List Action) : J (trace (step X) w as) (run (step X) w as) :=
  history_ok_invariant J h0 hcall (fun hJ hidling _ => hidle hJ hidling) as

/-- **Induction over reachable states**: a property that holds after deployment
and is kept by every effect, by time and by outside transfers. -/
theorem Reachable.invariant (I : World → Prop) (h0 : ∀ b t s, I (genesis b t s))
    (hcall : ∀ {w env c w'}, I w → Effect X env w c w' → I w')
    (hadvance : ∀ {w} seconds ledgers, I w →
      I { w with timestamp := w.timestamp + seconds, sequence := w.sequence + ledgers })
    (hexternal : ∀ {w} balances, I w → I { w with balances := balances })
    {w : World} (h : Reachable X w) : I w := by
  obtain ⟨b, t, s, as, rfl⟩ := h
  exact run_call_invariant I (fun _ => True) (h0 b t s)
    (fun hI _ hsucc => hcall hI hsucc.effect) hadvance hexternal as fun _ _ => trivial

/-! ## §2. The registry. -/

/-- The id the last market was given; 0 before the first. -/
def MarketStore.lastId (s : MarketStore) : Nat := s.marketCount.getD 0

/-- Records sit under their own id, which the counter has given out. -/
structure Registered (w : World) : Prop where
  keyed : ∀ k m, w.markets.market.lookup k = some m → m.id = k
  drawn : ∀ k m, w.markets.market.lookup k = some m → 1 ≤ k ∧ k ≤ w.markets.lastId

/-- The next id is not in use. -/
theorem Registered.next_unused {w : World} (h : Registered w) :
    w.markets.market.lookup (w.markets.lastId + 1) = none := by
  by_contra hsome
  obtain ⟨m, hm⟩ := Option.ne_none_iff_exists'.mp hsome
  have hdrawn := (h.drawn _ m hm).2
  omega

/-- The fields a lifecycle move may change. -/
theorem LifecycleMove.frame {w : World} {id : Nat} {f : LifecycleCall} {m m' : Market}
    (h : LifecycleMove X w id m f m') :
    ∃ st rd wo ra pt dt, m' = { m with
      status := st, resolutionDeadline := rd, winningOutcome := wo, resolvedAt := ra,
      pendingResolutionTimestamp := pt, disputeTimestamp := dt } := by
  cases h <;> exact ⟨_, _, _, _, _, _, rfl⟩

theorem LifecycleMove.id_eq {w : World} {id : Nat} {f : LifecycleCall} {m m' : Market}
    (h : LifecycleMove X w id m f m') : m'.id = m.id := by
  obtain ⟨_, _, _, _, _, _, rfl⟩ := h.frame
  rfl

@[simp] theorem MarketStore.lookup_updateMarket (s : MarketStore) (m : Market) (k : Nat) :
    (s.updateMarket m).market.lookup k = if k = m.id then some m else s.market.lookup k :=
  Store.lookup_insert_eq s.market m.id k m

@[simp] theorem MarketStore.lookup_addMarket (s : MarketStore) (m : Market) (n k : Nat) :
    (s.addMarket m n).market.lookup k = if k = m.id then some m else s.market.lookup k :=
  Store.lookup_insert_eq s.market m.id k m

@[simp] theorem MarketStore.lookup_removeMarket (s : MarketStore) (id k : Nat) :
    (s.removeMarket id).market.lookup k = if k = id then none else s.market.lookup k :=
  Store.lookup_erase_eq s.market id k

/-! ## §3. One record under one call. -/

/-- How a successful call may change the record under id `k`. -/
inductive MarketChange (X : Externs) (w : World) (k : Nat) :
    Call → Option Market → Option Market → Prop
  | same (c : Call) (o : Option Market) : MarketChange X w k c o o
  | created (c : Call) (p : MarketParams) (hc : c.kind = .creates p)
      (next : k = w.markets.lastId + 1) :
      MarketChange X w k c none (some (p.newMarket k (depositFor w p.creator)))
  | bet (b : BetParams) (m : Market) (fee : Int) (counts : Store Nat Nat)
      (here : b.marketId = k) (accepts : AcceptsBet w m b) :
      MarketChange X w k (.placeBet b) (some m)
        (some (m.staked b.outcome (b.amount - fee) counts))
  | moved (c : Call) (f : LifecycleCall) (m m' : Market) (hc : c.kind = .moves k f)
      (move : LifecycleMove X w k m f m') :
      MarketChange X w k c (some m) (some m')
  | released (token : Address) (m : Market) (resolved : m.status = .resolved)
      (deposit : 0 < m.creationDeposit) :
      MarketChange X w k (.releaseCreationDeposit k token) (some m)
        (some { m with creationDeposit := 0 })
  | pruned (m : Market) (resolved : m.status = .resolved) :
      MarketChange X w k (.pruneMarket k) (some m) none

/-- A record rewritten under its own id is changed there and nowhere else. -/
private theorem MarketChange.of_update {w : World} {c : Call} {k id : Nat} {m m' : Market}
    (hreg : Registered w) (hm : w.markets.market.lookup id = some m) (hid : m'.id = m.id)
    (h : k = id → MarketChange X w k c (some m) (some m')) :
    MarketChange X w k c (w.markets.market.lookup k)
      ((w.markets.updateMarket m').market.lookup k) := by
  rw [MarketStore.lookup_updateMarket, hid, hreg.keyed id m hm]
  split
  · rename_i hk
    rw [hk] at h ⊢
    rw [hm]
    exact h rfl
  · exact .same c _

/-- **A call's effect on one record.** -/
theorem Effect.marketChange {env : Env} {w w' : World} {c : Call} (hreg : Registered w)
    (h : Effect X env w c w') (k : Nat) :
    MarketChange X w k c (w.markets.market.lookup k) (w'.markets.market.lookup k) := by
  cases h with
  | created _ p id _ hc h =>
      obtain ⟨window, hw⟩ := h.markets
      rw [hw, MarketStore.lookup_addMarket]
      split
      · rename_i hk
        change k = id at hk
        subst hk
        -- nothing was stored under the id the counter gives out next
        have hnext : k = w.markets.lastId + 1 := h.id_eq
        have hnone := hreg.next_unused
        rw [← hnext] at hnone
        rw [hnone]
        exact .created c p hc hnext
      · exact .same c _
  | bet b m fee _ h =>
      obtain ⟨counts, hw⟩ := h.markets
      rw [hw]
      exact .of_update hreg h.lookup rfl fun hk => .bet b m fee counts hk.symm h.accepts
  | moved _ id f m m' br evs hc lookup move =>
      refine .of_update hreg lookup move.id_eq ?_
      intro hk
      subst hk
      exact .moved c f m m' hc move
  | released id token m lookup auth resolved deposit funded =>
      refine .of_update hreg lookup rfl ?_
      intro hk
      subst hk
      exact .released token m resolved deposit
  | pruned id m t ar evs lookup resolved since elapsed =>
      show MarketChange X w k _ _ ((w.markets.removeMarket id).market.lookup k)
      rw [MarketStore.lookup_removeMarket]
      split
      · rename_i hk
        rw [hk, lookup]
        exact .pruned m resolved
      · exact .same _ _
  | voted voter id outcome weight m ledger br evs _ lookup disputed snapshot frame =>
      obtain ⟨_, _, _, _, rfl⟩ := frame
      exact .same _ _
  | releasedNothing => exact .same _ _
  | paidFees => exact .same _ _
  | configured => exact .same _ _
  | initialized => exact .same _ _
  | appointed => exact .same _ _
  | governed => exact .same _ _

/-- The counter never goes back. -/
theorem Effect.lastId_le {env : Env} {w w' : World} {c : Call} (h : Effect X env w c w') :
    w.markets.lastId ≤ w'.markets.lastId := by
  cases h with
  | created _ p id _ hc h =>
      obtain ⟨window, hw⟩ := h.markets
      have hid := h.id_eq
      rw [hw]
      show w.markets.marketCount.getD 0 ≤ id
      omega
  | bet b m fee _ h =>
      obtain ⟨counts, hw⟩ := h.markets
      rw [hw]
      exact le_refl _
  | voted voter id outcome weight m ledger br evs _ lookup disputed snapshot frame =>
      obtain ⟨_, _, _, _, rfl⟩ := frame
      exact le_refl _
  | _ => exact le_refl _

/-- A call that is there to create a market does. -/
theorem Effect.creates {env : Env} {w w' : World} {c : Call} {p : MarketParams}
    (hc : c.kind = .creates p) (h : Effect X env w c w') :
    ∃ id, CreateMarketEffect env w p id w' := by
  cases h with
  | created _ q id _ hc' h =>
      rw [hc] at hc'
      cases hc'
      exact ⟨id, h⟩
  | moved _ id f m m' br evs hc' =>
      rw [hc] at hc'
      cases hc'
  | paidFees _ x f evs hc' =>
      rw [hc] at hc'
      cases hc'
  | configured _ f mc wi o br evs hc' =>
      rw [hc] at hc'
      cases hc'
  | appointed _ a h => cases h <;> cases hc
  | governed _ g br wasm evs h => cases h <;> cases hc
  | _ => cases hc

/-- Creation advances the counter by one. -/
theorem Effect.lastId_of_creates {env : Env} {w w' : World} {c : Call} {p : MarketParams}
    (hc : c.kind = .creates p) (h : Effect X env w c w') :
    w'.markets.lastId = w.markets.lastId + 1 := by
  obtain ⟨id, h⟩ := h.creates hc
  obtain ⟨window, hw⟩ := h.markets
  rw [hw]
  exact h.id_eq

theorem Effect.registered {env : Env} {w w' : World} {c : Call} (hreg : Registered w)
    (h : Effect X env w c w') : Registered w' := by
  constructor
  · intro k m' hm'
    -- the record now under `k` against the one before
    have hchange := h.marketChange hreg k
    rw [hm'] at hchange
    generalize hpre : w.markets.market.lookup k = o at hchange
    cases hchange with
    | same => exact hreg.keyed k m' hpre
    | created => rfl
    | bet b m fee counts => exact hreg.keyed k m hpre
    | moved _ _ m _ hc move => exact move.id_eq.trans (hreg.keyed k m hpre)
    | released token m => exact hreg.keyed k m hpre
  · intro k m' hm'
    have hle := h.lastId_le
    have hchange := h.marketChange hreg k
    rw [hm'] at hchange
    generalize hpre : w.markets.market.lookup k = o at hchange
    cases hchange with
    | same =>
        obtain ⟨h1, hk⟩ := hreg.drawn k m' hpre
        exact ⟨h1, hk.trans hle⟩
    | created _ p hc next =>
        have hlast := h.lastId_of_creates hc
        omega
    | bet b m fee counts =>
        obtain ⟨h1, hk⟩ := hreg.drawn k m hpre
        exact ⟨h1, hk.trans hle⟩
    | moved _ _ m =>
        obtain ⟨h1, hk⟩ := hreg.drawn k m hpre
        exact ⟨h1, hk.trans hle⟩
    | released token m =>
        obtain ⟨h1, hk⟩ := hreg.drawn k m hpre
        exact ⟨h1, hk.trans hle⟩

theorem Registered.genesis (b : Address → Address → Nat) (t s : Nat) :
    Registered (genesis b t s) := by
  constructor <;> intro k m hm <;> cases hm

/-- The registry is a matter of the market store alone. -/
theorem Registered.of_markets {w w' : World} (hreg : Registered w)
    (h : w'.markets = w.markets) : Registered w' := by
  constructor
  · rw [h]
    exact hreg.keyed
  · rw [h]
    exact hreg.drawn

/-- A property of registered worlds along a run: each call may use that the
records it meets are in order. -/
theorem registered_run_invariant (I : World → Prop) (C : Transition World Action → Prop) {w : World}
    (hreg : Registered w) (h0 : I w)
    (hcall : ∀ v env c v', Registered v → I v → C ⟨v, .call env c, v'⟩ → Succeeds X env c v v' → I v')
    (hadvance : ∀ v seconds ledgers, I v →
      I { v with timestamp := v.timestamp + seconds, sequence := v.sequence + ledgers })
    (hexternal : ∀ v balances, I v → I { v with balances := balances })
    (as : List Action) (hC : ∀ t ∈ trace (step X) w as, C t) : I (run (step X) w as) := by
  refine (run_call_invariant (fun v => Registered v ∧ I v) C ⟨hreg, h0⟩ ?_ ?_ ?_ as hC).2
  · intro v env c v' h hc hsucc
    obtain ⟨hv, hI⟩ := h
    exact ⟨hsucc.effect.registered hv, hcall v env c v' hv hI hc hsucc⟩
  · intro v seconds ledgers h
    obtain ⟨hv, hI⟩ := h
    exact ⟨hv.of_markets rfl, hadvance v seconds ledgers hI⟩
  · intro v balances h
    obtain ⟨hv, hI⟩ := h
    exact ⟨hv.of_markets rfl, hexternal v balances hI⟩

/-- **Every reachable registry is in order.** -/
theorem Reachable.registered {w : World} (h : Reachable X w) : Registered w :=
  h.invariant Registered Registered.genesis (fun hreg heff => heff.registered hreg)
    (fun _ _ hreg => hreg.of_markets rfl) (fun _ hreg => hreg.of_markets rfl)

/-- A successful `place_bet` places a bet. -/
theorem Effect.places {env : Env} {w w' : World} {b : BetParams}
    (h : Effect X env w (.placeBet b) w') : ∃ m fee, PlaceBetEffect env w b m fee w' := by
  cases h with
  | bet _ m fee _ h => exact ⟨m, fee, h⟩
  | created _ p id _ hc => cases hc
  | moved _ id f m m' br evs hc => cases hc
  | paidFees _ x f evs hc => cases hc
  | configured _ f mc wi o br evs hc => cases hc
  | appointed _ a h => cases h
  | governed _ g br wasm evs h => cases h

/-- Bet records are written by bets alone. -/
theorem Effect.bets {env : Env} {w w' : World} {c : Call} (h : Effect X env w c w') :
    (∃ b m fee, c = .placeBet b ∧ PlaceBetEffect env w b m fee w')
      ∨ ((∀ b, c ≠ .placeBet b) ∧ w'.bets = w.bets) := by
  by_cases hbet : ∃ b, c = .placeBet b
  · obtain ⟨b, rfl⟩ := hbet
    obtain ⟨m, fee, heff⟩ := h.places
    exact Or.inl ⟨b, m, fee, rfl, heff⟩
  · refine Or.inr ⟨fun b hb => hbet ⟨b, hb⟩, ?_⟩
    cases h with
    | bet b => exact absurd ⟨b, rfl⟩ hbet
    | created _ p id _ hc h =>
        obtain ⟨_, _, _, hw⟩ := h.frame
        rw [hw]
    | voted voter id outcome weight m ledger br evs _ lookup disputed snapshot frame =>
        obtain ⟨_, _, _, _, rfl⟩ := frame
        rfl
    | _ => rfl

/-! ## §4. No vote is ever taken.

    No function writes `disputeSnapshotLedger`, and `castVote` needs it. -/

/-- Markets carry no snapshot, and the voting state is empty. -/
structure NoSnapshots (w : World) : Prop where
  snapshot : ∀ k m, w.markets.market.lookup k = some m → m.disputeSnapshotLedger = none
  voting : w.voting = {}

theorem Effect.noSnapshots {env : Env} {w w' : World} {c : Call} (hreg : Registered w)
    (hns : NoSnapshots w) (h : Effect X env w c w') : NoSnapshots w' := by
  constructor
  · intro k m' hm'
    have hchange := h.marketChange hreg k
    rw [hm'] at hchange
    generalize hpre : w.markets.market.lookup k = o at hchange
    cases hchange with
    | same => exact hns.snapshot k m' hpre
    | created => rfl
    | bet b m fee counts => exact hns.snapshot k m hpre
    -- no move writes the snapshot, a dispute included
    | moved _ _ m _ hc move =>
        obtain ⟨_, _, _, _, _, _, rfl⟩ := move.frame
        exact hns.snapshot k m hpre
    | released token m => exact hns.snapshot k m hpre
  · cases h with
    | created _ p id _ hc h =>
        obtain ⟨_, _, _, hw⟩ := h.frame
        rw [hw]
        exact hns.voting
    | bet b m fee _ h =>
        obtain ⟨_, hw⟩ := h.frame
        rw [hw]
        exact hns.voting
    | pruned id m t ar evs lookup =>
        show w.voting.prune id m.options.length = {}
        rw [hns.voting]
        exact VotingStore.prune_empty _ _
    -- a vote needs the snapshot that no market has
    | voted voter id outcome weight m ledger br evs _ lookup disputed snapshot =>
        rw [hns.snapshot id m lookup] at snapshot
        cases snapshot
    | _ => exact hns.voting

theorem NoSnapshots.genesis (b : Address → Address → Nat) (t s : Nat) :
    NoSnapshots (genesis b t s) := by
  constructor
  · intro k m hm
    cases hm
  · rfl

/-- **In no reachable state has anybody voted.** -/
theorem Reachable.noSnapshots {w : World} (h : Reachable X w) : NoSnapshots w := by
  obtain ⟨b, t, s, as, rfl⟩ := h
  refine registered_run_invariant (X := X) NoSnapshots (fun _ => True) (.genesis b t s)
    (.genesis b t s) ?_ ?_ ?_ as fun _ _ => trivial
  · intro v env c v' hreg hns _ hsucc
    exact hsucc.effect.noSnapshots hreg hns
  · intro v seconds ledgers hns
    exact ⟨hns.snapshot, hns.voting⟩
  · intro v balances hns
    exact ⟨hns.snapshot, hns.voting⟩

end PredictIQ.Contract
