/-
  PredictIQ.Safety.ConditionalMarkets: markets that depend on a parent.

  `create_market` asks for a parent that is resolved, and for a deadline that
  does not exceed the parent's resolution deadline; `place_bet` asks for the
  parent again.  A resolved record keeps its outcome, so that the second check
  repeats the first unless somebody prunes the parent in the meantime.  A
  parent that went through the oracle is resolved after its resolution
  deadline, and then no deadline is left for a child.
-/
import PredictIQ.Safety.ResolutionWindows

namespace PredictIQ.Contract

open Foundation Tx

variable {X : Externs}

/-! ## §1. Resolved records. -/

/-- A record that is resolved to `idx`, one of its options. -/
def ResolvedTo (idx : Nat) (o : Option Market) : Prop :=
  ∃ m, o = some m ∧ m.status = .resolved ∧ m.winningOutcome = some idx ∧ idx < m.options.length

/-- No lifecycle move starts from a resolved record. -/
theorem LifecycleMove.not_resolved {w : World} {id : Nat} {f : LifecycleCall} {m m' : Market}
    (h : LifecycleMove X w id m f m') : m.status ≠ .resolved := by
  cases h with
  | answer outcome active => rw [active]; decide
  | confirm t outcome pending => rw [pending]; decide
  | decide t outcome disputed => rw [disputed]; decide
  | dispute t pending => rw [pending]; decide
  | resolve outcome running => exact running.1
  | cancel running => exact running.1
  | voteDown disputed => rw [disputed]; decide

/-- No lifecycle move leads back to an active record. -/
theorem LifecycleMove.not_active {w : World} {id : Nat} {f : LifecycleCall} {m m' : Market}
    (h : LifecycleMove X w id m f m') : m'.status ≠ .active := by
  cases h <;> simp

/-- **A resolved record stays what it is** until it is pruned. -/
theorem MarketChange.resolvedTo {w : World} {k idx : Nat} {c : Call} {o o' : Option Market}
    (h : MarketChange X w k c o o') (hres : ResolvedTo idx o) :
    c = .pruneMarket k ∨ ResolvedTo idx o' := by
  obtain ⟨m, rfl, hs, ho, hlt⟩ := hres
  cases h with
  | same => exact Or.inr ⟨m, rfl, hs, ho, hlt⟩
  | bet b _ fee counts here accepts => exact absurd (accepts.active.symm.trans hs) (by decide)
  | moved _ f _ m' hc move => exact absurd hs move.not_resolved
  | released token => exact Or.inr ⟨_, rfl, hs, ho, hlt⟩
  | pruned => exact Or.inl rfl

/-! ## §2. The parents of open markets. -/

/-- `m` is a conditional market that still takes bets. -/
structure OpenChild (w : World) (m : Market) : Prop where
  conditional : 0 < m.parentId
  active : m.status = .active
  before_deadline : w.timestamp < m.deadline

/-- While the breaker is not paused, the parent check of `place_bet` passes for
every open conditional market: its parent is stored, resolved, and to the
outcome it depends on. -/
def ParentsInPlace (w : World) : Prop :=
  w.breaker.getState ≠ .paused → ∀ k m, w.markets.market.lookup k = some m → OpenChild w m →
    ResolvedTo m.parentOutcomeIdx (w.markets.market.lookup m.parentId)
      ∧ ∀ env, validateParentMarket m.parentId m.parentOutcomeIdx env w = (.ok (), w)

/-- A pruning that goes through takes away no parent of an open market. -/
def PrunesNoParent (X : Externs) (t : Transition World Action) : Prop :=
  ∀ env p, t.act = .call env (.pruneMarket p) → Succeeds X env (.pruneMarket p) t.pre t.post →
    ∀ k m, t.pre.markets.market.lookup k = some m → OpenChild t.pre m → m.parentId ≠ p

/-- Open conditional markets have the parent they were created with. -/
structure ChildrenSupported (w : World) : Prop where
  registered : Registered w
  parent : ∀ k m, w.markets.market.lookup k = some m → OpenChild w m →
    ResolvedTo m.parentOutcomeIdx (w.markets.market.lookup m.parentId)

theorem ChildrenSupported.inPlace {w : World} (h : ChildrenSupported w) : ParentsInPlace w := by
  intro _ k m hm hopen
  have hparent := h.parent k m hm hopen
  exact ⟨hparent, fun env => validateParentMarket_ok.mpr ⟨hparent, rfl⟩⟩

/-- A conditional market that is open after a call was open before, with the
same parent, or was created by it with the parent in place. -/
theorem Effect.openChild {env : Env} {w w' : World} {c : Call} (h : Effect X env w c w')
    (hreg : Registered w) {k : Nat} {m' : Market} (hm' : w'.markets.market.lookup k = some m')
    (hopen : OpenChild w' m') :
    (∃ m, w.markets.market.lookup k = some m ∧ OpenChild w m ∧ m.parentId = m'.parentId
        ∧ m.parentOutcomeIdx = m'.parentOutcomeIdx)
      ∨ ((∀ p, c ≠ .pruneMarket p)
        ∧ ResolvedTo m'.parentOutcomeIdx (w.markets.market.lookup m'.parentId)) := by
  obtain ⟨hcond, hactive, hbefore⟩ := hopen
  rw [h.timestamp_eq] at hbefore
  have hchange := h.marketChange hreg k
  rw [hm'] at hchange
  generalize hpre : w.markets.market.lookup k = o at hchange
  cases hchange with
  | same => exact Or.inl ⟨m', rfl, ⟨hcond, hactive, hbefore⟩, rfl, rfl⟩
  | created _ p hc =>
      obtain ⟨id, hcreated⟩ := h.creates hc
      refine Or.inr ⟨?_, hcreated.parent hcond⟩
      rintro q rfl
      cases hc
  | bet b m fee counts here accepts =>
      exact Or.inl ⟨m, rfl, ⟨hcond, hactive, hbefore⟩, rfl, rfl⟩
  | moved _ f m _ hc move => exact absurd hactive move.not_active
  | released token m resolved => exact absurd (resolved.symm.trans hactive) (by decide)

theorem ChildrenSupported.call {env : Env} {w w' : World} {c : Call} (h : ChildrenSupported w)
    (hC : PrunesNoParent X ⟨w, .call env c, w'⟩) (hsucc : Succeeds X env c w w') :
    ChildrenSupported w' := by
  have heff := hsucc.effect
  refine ⟨heff.registered h.registered, ?_⟩
  intro k m' hm' hopen
  have hchange := heff.marketChange h.registered m'.parentId
  rcases heff.openChild h.registered hm' hopen with ⟨m, hm, hwas, hid, hidx⟩ | ⟨hc, hparent⟩
  · have hparent := h.parent k m hm hwas
    rw [hid, hidx] at hparent
    refine (hchange.resolvedTo hparent).resolve_left ?_
    rintro rfl
    exact hC env m'.parentId rfl hsucc k m hm hwas hid
  · exact (hchange.resolvedTo hparent).resolve_left (hc _)

/-- A market that is open later was open before. -/
theorem ChildrenSupported.later {w w' : World} (h : ChildrenSupported w)
    (hmarkets : w'.markets = w.markets) (htime : w.timestamp ≤ w'.timestamp) :
    ChildrenSupported w' := by
  refine ⟨h.registered.of_markets hmarkets, ?_⟩
  rw [hmarkets]
  intro k m hm hopen
  exact h.parent k m hm
    ⟨hopen.conditional, hopen.active, lt_of_le_of_lt htime hopen.before_deadline⟩

theorem ChildrenSupported.genesis (b : Address → Address → Nat) (t s : Nat) :
    ChildrenSupported (genesis b t s) :=
  ⟨Registered.genesis b t s, fun k m hm => by cases hm⟩

/-- A pruning that takes the parent of an open market away is felt at once,
unless the breaker is paused. -/
theorem not_parentsInPlace_of_prune {w w' : World} {env : Env} {p k : Nat} {m : Market}
    (hprune : Succeeds X env (.pruneMarket p) w w') (hrun : w.breaker.getState ≠ .paused)
    (hm : w.markets.market.lookup k = some m) (hopen : OpenChild w m) (hp : m.parentId = p) :
    ¬ParentsInPlace w' := by
  obtain ⟨r, hr⟩ := hprune
  obtain ⟨mp, t, ar, hmp, hres, _, _, rfl⟩ := pruneMarket_ok (done_eq_ok.mp hr).1
  -- the child is active, so it is another market than the one pruned
  have hne : k ≠ p := by
    rintro rfl
    obtain rfl := Option.some.inj (hm.symm.trans hmp)
    exact absurd (hopen.active.symm.trans hres) (by decide)
  intro h
  obtain ⟨⟨mp', hlookup, _⟩, _⟩ := h hrun k m (by simpa [hne] using hm)
    ⟨hopen.conditional, hopen.active, hopen.before_deadline⟩
  rw [hp] at hlookup
  simp at hlookup

/-- **Conditional markets keep their parents** in every state of a run in which
no pruning takes the parent of an open market away; and such a pruning takes
effect at once, unless the breaker is paused. -/
theorem conditional_markets_supported (X : Externs) (b : Address → Address → Nat) (t s : Nat)
    (as : List Action) :
    ((∀ tr ∈ trace (step X) (genesis b t s) as, PrunesNoParent X tr) →
        ∀ bs, bs <+: as → ParentsInPlace (run (step X) (genesis b t s) bs))
      ∧ ∀ tr ∈ trace (step X) (genesis b t s) as, tr.pre.breaker.getState ≠ .paused →
          ¬PrunesNoParent X tr → ¬ParentsInPlace tr.post := by
  refine ⟨?_, ?_⟩
  · intro hC bs hbs
    refine (run_call_invariant ChildrenSupported (PrunesNoParent X) (.genesis b t s)
      (fun h hc hsucc => h.call hc hsucc) (fun _ _ h => h.later rfl (Nat.le_add_right _ _))
      (fun _ h => h.later rfl (le_refl _)) bs ?_).inPlace
    exact fun tr htr => hC tr (mem_trace_of_isPrefix (step X) hbs htr)
  · intro tr _ hrun hprunes
    unfold PrunesNoParent at hprunes
    push Not at hprunes
    obtain ⟨env, p, _, hsucc, k, m, hm, hopen, hp⟩ := hprunes
    exact not_parentsInPlace_of_prune hsucc hrun hm hopen hp

/-- Market 1 is resolved by the admin long before its deadline, and market 2 depends
on it; thirty days later market 2 is still open. -/
def sampleConditional : List Action :=
  [.call everybody (.initializeContract ⟨1⟩ 0),
    .call everybody (.createMarket { sampleMarket ⟨2⟩ ⟨10⟩ with
      deadline := 4000000, resolutionDeadline := 5000000 }),
    .call everybody (.resolveMarket 1 0),
    .call everybody (.createMarket { sampleMarket ⟨2⟩ ⟨10⟩ with
      deadline := 4000000, resolutionDeadline := 5000000, parentId := 1 }),
    .advance 2592000 0]

/-- Nobody prunes in that run. -/
theorem sampleConditional_supported : ParentsInPlace (sampleRun sampleConditional) := by
  refine (conditional_markets_supported sampleExterns sampleBalances 0 0
    sampleConditional).1 ?_ sampleConditional List.prefix_rfl
  intro tr htr env p hact
  have hmem := act_mem_of_mem_trace (step sampleExterns) htr
  rw [hact] at hmem
  simp [sampleConditional] at hmem

/-- **The parent is pruned under an open market**, which then takes no more bets. -/
theorem sampleConditional_orphaned :
    ¬(∀ bs, bs <+: sampleConditional ++ [.call everybody (.pruneMarket 1)] →
        ParentsInPlace (sampleRun bs))
      ∧ statusIn (sampleRun (sampleConditional ++ [.call everybody (.pruneMarket 1)])) 2
        = some .active
      ∧ (exec sampleExterns (.placeBet (sampleBet ⟨3⟩ ⟨10⟩ 2 0 1000)) everybody
          (sampleRun (sampleConditional ++ [.call everybody (.pruneMarket 1)]))).1
        = .error (.error .marketNotFound) := by
  refine ⟨?_, rfl, rfl⟩
  intro h
  obtain ⟨⟨m, hm, _⟩, _⟩ := h _ List.prefix_rfl (by decide) 2 _ rfl ⟨by decide, rfl, by decide⟩
  cases hm

/-! ## §3. No room for a child. -/

/-- The guards of `create_market` on times and parent. -/
structure FitsUnderParent (w : World) (p : MarketParams) : Prop where
  future : w.timestamp < p.deadline
  gap : p.deadline + minDeadlineGap ≤ p.resolutionDeadline
  resolved : ResolvedTo p.parentOutcomeIdx (w.markets.market.lookup p.parentId)
  within : ∀ m, w.markets.market.lookup p.parentId = some m → p.deadline ≤ m.resolutionDeadline

/-- For a conditional market, the guards on times, options and parent are these
and the limit on the options. -/
theorem checkNewMarket_iff {env : Env} {w w' : World} {u : Unit} {p : MarketParams}
    (hp : 0 < p.parentId) :
    checkNewMarket p env w = (.ok u, w') ↔
      FitsUnderParent w p ∧ p.options.length ≤ maxOutcomesPerMarket ∧ w = w' := by
  simp only [checkNewMarket, bind_eq_ok, reads_eq_ok, failIf_ok, whenever_of_pos hp,
    validateParentMarket_ok, loadMarket_ok, and_assoc, exists_and_left, exists_eq_left',
    exists_const]
  constructor
  · intro h
    obtain ⟨hd, hr, hg, ho, hres, m, hm, hle, hw⟩ := h
    refine ⟨⟨by omega, by omega, hres, ?_⟩, by omega, hw⟩
    intro m' hm'
    obtain rfl := Option.some.inj (hm.symm.trans hm')
    exact not_lt.mp hle
  · intro h
    obtain ⟨⟨hfuture, hgap, hres, hwithin⟩, ho, hw⟩ := h
    have hpos : 0 < minDeadlineGap := by decide
    obtain ⟨m, hm, _⟩ := id hres
    exact ⟨by omega, by omega, by omega, by omega, hres, m, hm, not_lt.mpr (hwithin m hm), hw⟩

/-- A market waiting for its dispute window is past its resolution deadline. -/
structure PendingDue (w : World) : Prop where
  registered : Registered w
  due : ∀ k m, w.markets.market.lookup k = some m → m.status = .pendingResolution →
    m.resolutionDeadline ≤ w.timestamp

theorem PendingDue.call {env : Env} {w w' : World} {c : Call} (h : PendingDue w)
    (heff : Effect X env w c w') : PendingDue w' := by
  refine ⟨heff.registered h.registered, ?_⟩
  intro k m' hm' hs
  rw [heff.timestamp_eq]
  have hchange := heff.marketChange h.registered k
  rw [hm'] at hchange
  generalize hpre : w.markets.market.lookup k = o at hchange
  cases hchange with
  | same => exact h.due k m' hpre hs
  | created => cases hs
  | bet b m fee counts => exact h.due k m hpre hs
  | moved _ f m _ hc move =>
      cases move with
      | answer outcome active due => exact due
      | _ => cases hs
  | released token m resolved => exact absurd (resolved.symm.trans hs) (by decide)

theorem Reachable.pendingDue {w : World} (h : Reachable X w) : PendingDue w :=
  h.invariant PendingDue
    (fun b t s => ⟨Registered.genesis b t s, fun k m hm => by cases hm⟩)
    (fun h heff => h.call heff)
    (fun _ _ h => ⟨h.registered.of_markets rfl,
      fun k m hm hs => (h.due k m hm hs).trans (Nat.le_add_right _ _)⟩)
    (fun _ h => ⟨h.registered.of_markets rfl, h.due⟩)

/-- Market `k`, if its record is still there, is resolved and past its resolution
deadline. -/
structure ClosedToChildren (w : World) (k : Nat) : Prop where
  drawn : 1 ≤ k ∧ k ≤ w.markets.lastId
  closed : ∀ m, w.markets.market.lookup k = some m →
    m.status = .resolved ∧ m.resolutionDeadline ≤ w.timestamp

theorem ClosedToChildren.call {env : Env} {w w' : World} {c : Call} {k : Nat}
    (h : ClosedToChildren w k) (hreg : Registered w) (heff : Effect X env w c w') :
    ClosedToChildren w' k := by
  refine ⟨⟨h.drawn.1, h.drawn.2.trans heff.lastId_le⟩, ?_⟩
  intro m' hm'
  rw [heff.timestamp_eq]
  have hchange := heff.marketChange hreg k
  rw [hm'] at hchange
  generalize hpre : w.markets.market.lookup k = o at hchange
  cases hchange with
  | same => exact h.closed m' hpre
  | created _ p hc next => exact absurd h.drawn.2 (by omega)
  | bet b m fee counts here accepts =>
      exact absurd (accepts.active.symm.trans (h.closed m hpre).1) (by decide)
  | moved _ f m _ hc move => exact absurd (h.closed m hpre).1 move.not_resolved
  | released token m => exact h.closed m hpre

/-- The undisputed branch of `finalize_resolution` closes the market to children. -/
theorem PendingDue.finalize {env : Env} {w w' : World} {c : Call} {k : Nat} (h : PendingDue w)
    (heff : Effect X env w c w')
    (hfin : finalizesMarket k .pendingResolution ⟨w, .call env c, w'⟩ = true) :
    ClosedToChildren w' k := by
  obtain ⟨_, hpre, hpost⟩ := finalizesMarket_spec hfin
  obtain ⟨m, hm, hs⟩ := lookup_of_statusIn hpre
  obtain ⟨m', hm', hs'⟩ := lookup_of_statusIn hpost
  obtain ⟨hfirst, hlast⟩ := h.registered.drawn k m hm
  refine ⟨⟨hfirst, hlast.trans heff.lastId_le⟩, ?_⟩
  intro m'' hm''
  obtain rfl := Option.some.inj (hm'.symm.trans hm'')
  refine ⟨hs', ?_⟩
  rw [heff.timestamp_eq]
  -- the resolution deadline is the one the oracle step had waited for
  have hdue := h.due k m hm hs
  have hchange := heff.marketChange h.registered k
  rw [hm, hm'] at hchange
  cases hchange with
  | same => exact hdue
  | bet => exact hdue
  | moved _ f _ _ hc move => cases move <;> first | exact hdue | cases hs'
  | released => exact hdue

/-- What a history says of market `k`. -/
structure ClosedAfter (k : Nat) (history : List (Transition World Action)) (w : World) : Prop where
  pending : PendingDue w
  closed : (∃ t ∈ history, finalizesMarket k .pendingResolution t = true) → ClosedToChildren w k

theorem closedAfter_run (X : Externs) (b : Address → Address → Nat) (t s : Nat) (k : Nat)
    (as : List Action) :
    ClosedAfter k (trace (step X) (genesis b t s) as) (run (step X) (genesis b t s) as) := by
  refine history_call_invariant (ClosedAfter k) ?_ ?_ ?_ as
  · exact ⟨Reachable.pendingDue (X := X) ⟨b, t, s, [], rfl⟩, fun h => by simp at h⟩
  · intro history v env c v' h hsucc
    refine ⟨h.pending.call hsucc.effect, ?_⟩
    intro hex
    obtain ⟨x, hx, hfin⟩ := hex
    rcases List.mem_append.mp hx with hx | hx
    · exact (h.closed ⟨x, hx, hfin⟩).call h.pending.registered hsucc.effect
    · rw [List.mem_singleton.mp hx] at hfin
      exact h.pending.finalize hsucc.effect hfin
  · intro history v a v' h hidle
    have htime : v.timestamp ≤ v'.timestamp := by
      cases hidle <;> first | exact le_refl _ | exact Nat.le_add_right _ _
    obtain ⟨_, _, _, rfl⟩ := hidle.frame
    refine ⟨⟨h.pending.registered.of_markets rfl,
      fun k m hm hs => (h.pending.due k m hm hs).trans htime⟩, ?_⟩
    intro hex
    obtain ⟨x, hx, hfin⟩ := hex
    rcases List.mem_append.mp hx with hx | hx
    · obtain ⟨hdrawn, hclosed⟩ := h.closed ⟨x, hx, hfin⟩
      exact ⟨hdrawn, fun m hm => ⟨(hclosed m hm).1, (hclosed m hm).2.trans htime⟩⟩
    · -- no status changes while nothing is called
      rw [List.mem_singleton.mp hx] at hfin
      obtain ⟨_, hpre, hpost⟩ := finalizesMarket_spec hfin
      change statusIn v k = _ at hpost
      change statusIn v k = _ at hpre
      rw [hpre] at hpost
      cases hpost

/-- **No conditional market fits under a parent that was finalised without a
dispute**: from that moment on the time and parent checks of `create_market`
fail for every deadline. -/
theorem no_room_for_children (X : Externs) (b : Address → Address → Nat) (t s : Nat)
    (as : List Action) (k : Nat)
    (hfin : ∃ tr ∈ trace (step X) (genesis b t s) as,
      finalizesMarket k .pendingResolution tr = true)
    (p : MarketParams) (hp : p.parentId = k) :
    ¬FitsUnderParent (run (step X) (genesis b t s) as) p
      ∧ ∀ env u w', checkNewMarket p env (run (step X) (genesis b t s) as) ≠ (.ok u, w') := by
  have hclosed := (closedAfter_run X b t s k as).closed hfin
  generalize run (step X) (genesis b t s) as = w at *
  have hno : ¬FitsUnderParent w p := by
    intro h
    obtain ⟨m, hm, _⟩ := h.resolved
    -- now < deadline ≤ the parent's resolution deadline ≤ now
    have hfuture := h.future
    have hwithin := h.within m hm
    rw [hp] at hm
    have hpast := (hclosed.closed m hm).2
    omega
  refine ⟨hno, ?_⟩
  intro env u w' hcheck
  exact hno ((checkNewMarket_iff (hp ▸ hclosed.drawn.1)).mp hcheck).1

/-- The sample market 1, answered and confirmed, 459200 seconds in. -/
def sampleConfirmed : List Action :=
  (sampleAnswered ++ [.advance 259200 0]) ++ [.call everybody (.finalizeResolution 1)]

theorem sampleConfirmed_finalizes :
    ∃ tr ∈ trace (step sampleExterns) sampleGenesis sampleConfirmed,
      finalizesMarket 1 .pendingResolution tr = true := by
  have hmem := mem_trace_append_cons (step sampleExterns) sampleGenesis
    (sampleAnswered ++ [.advance 259200 0]) (.call everybody (.finalizeResolution 1)) []
  exact ⟨_, hmem, by decide +kernel⟩

/-- **Nothing fits under market 1**, though it resolved to its first outcome. -/
theorem sampleConfirmed_childless :
    ResolvedTo 0 ((sampleRun sampleConfirmed).markets.market.lookup 1)
      ∧ ¬∃ deadline resolutionDeadline, FitsUnderParent (sampleRun sampleConfirmed)
          { sampleMarket ⟨2⟩ ⟨10⟩ with
            deadline := deadline, resolutionDeadline := resolutionDeadline, parentId := 1 } := by
  refine ⟨⟨_, rfl, rfl, rfl, by decide⟩, ?_⟩
  intro h
  obtain ⟨deadline, resolutionDeadline, hfits⟩ := h
  have hfuture : 459200 < deadline := hfits.future
  have hwithin : deadline ≤ 200000 := hfits.within _ rfl
  omega

/-- A child that would close a day later is refused for its deadline. -/
theorem sampleConfirmed_no_room :
    statusIn (sampleRun sampleConfirmed) 1 = some .resolved
      ∧ ¬FitsUnderParent (sampleRun sampleConfirmed)
        { sampleMarket ⟨2⟩ ⟨10⟩ with
          deadline := 545600, resolutionDeadline := 645600, parentId := 1 } :=
  ⟨rfl, (no_room_for_children sampleExterns sampleBalances 0 0 sampleConfirmed 1
    sampleConfirmed_finalizes _ rfl).1⟩

end PredictIQ.Contract
