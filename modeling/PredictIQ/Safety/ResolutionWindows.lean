/-
  PredictIQ.Safety.ResolutionWindows: resolution waits for its windows.

  Three functions in three modules compare the clock with times that other
  calls stored: the deadline and the dispute window of the creation, the time
  of the oracle's answer, the time of the dispute.  The history of a run has
  at most one creation, one answer and one dispute of a market, and a running
  market's record says what they stored.
-/
import PredictIQ.Safety.StatusMachine

namespace PredictIQ.Contract

open Foundation Tx

variable {X : Externs}

/-! ## §1. The events of a market in a history. -/

/-- The status stored for market `k`. -/
def statusIn (w : World) (k : Nat) : Option MarketStatus :=
  (w.markets.market.lookup k).map (·.status)

/-- The winning outcome stored for market `k`. -/
def outcomeIn (w : World) (k : Nat) : Option Nat :=
  (w.markets.market.lookup k).bind (·.winningOutcome)

/-- What a creation asks for: the market and its dispute window. -/
def creationRequest : Action → Option (MarketParams × Option Nat)
  | .call _ (.createMarket p) => some (p, none)
  | .call _ (.createMarketWithDisputeWindow p dw) => some (p, dw)
  | _ => none

def isAttempt (k : Nat) : Action → Bool
  | .call _ (.attemptOracleResolution id) => id = k
  | _ => false

def isDispute (k : Nat) : Action → Bool
  | .call _ (.fileDispute _ id) => id = k
  | _ => false

def isFinalize (k : Nat) : Action → Bool
  | .call _ (.finalizeResolution id) => id = k
  | _ => false

/-- The step creates market `k`. -/
def createsMarket (k : Nat) (x : Transition World Action) : Bool :=
  (creationRequest x.act).isSome && statusIn x.pre k = none && statusIn x.post k ≠ none

/-- `attempt_oracle_resolution` puts market `k` in PendingResolution. -/
def answersMarket (k : Nat) (x : Transition World Action) : Bool :=
  isAttempt k x.act && statusIn x.pre k = some .active
    && statusIn x.post k = some .pendingResolution

/-- `file_dispute` puts market `k` in Disputed. -/
def disputesMarket (k : Nat) (x : Transition World Action) : Bool :=
  isDispute k x.act && statusIn x.pre k = some .pendingResolution
    && statusIn x.post k = some .disputed

/-- `finalize_resolution` moves market `k` from `status` to Resolved. -/
def finalizesMarket (k : Nat) (status : MarketStatus) (x : Transition World Action) : Bool :=
  isFinalize k x.act && statusIn x.pre k = some status && statusIn x.post k = some .resolved

/-- The window lies between the minimum and the maximum in force. -/
def WithinBounds (w : World) (window : Nat) : Prop :=
  w.windows.getDisputeWindowBounds.1 ≤ window ∧ window ≤ w.windows.getDisputeWindowBounds.2

/-! ## §2. The law. -/

/-- The history has one creation of market `k`, the step `c`, which asked for
`p` with the dispute window `window`. -/
structure CreatedBy (k : Nat) (history : List (Transition World Action))
    (c : Transition World Action) (p : MarketParams) (window : Nat) : Prop where
  only : history.filter (createsMarket k) = [c]
  request : ∃ dw, creationRequest c.act = some (p, dw) ∧ window = requestedWindow c.pre dw
  bounds : WithinBounds c.pre window

/-- What the windows ask of the step `x`, taken after `history`. -/
structure WindowsRespected (X : Externs) (k : Nat) (history : List (Transition World Action))
    (x : Transition World Action) : Prop where
  /-- An undisputed market is resolved after its window, to the oracle's answer. -/
  confirmed : finalizesMarket k .pendingResolution x = true → ∃ c p window a o,
    CreatedBy k history c p window ∧ history.filter (answersMarket k) = [a]
      ∧ a.pre.timestamp + window ≤ x.pre.timestamp
      ∧ outcomeIn a.post k = some o ∧ outcomeIn x.post k = some o
  /-- A disputed market was disputed in its window, and is resolved 72 hours
  after the dispute. -/
  decided : finalizesMarket k .disputed x = true → ∃ c p window a d,
    CreatedBy k history c p window ∧ history.filter (answersMarket k) = [a]
      ∧ history.filter (disputesMarket k) = [d]
      ∧ d.pre.timestamp + 259200 ≤ x.pre.timestamp
      ∧ d.pre.timestamp < a.pre.timestamp + window
  /-- The oracle is asked from the deadline of the creation on. -/
  attempted : ∀ env, x.act = .call env (.attemptOracleResolution k) →
    Succeeds X env (.attemptOracleResolution k) x.pre x.post →
    ∃ c p window, CreatedBy k history c p window ∧ p.resolutionDeadline ≤ x.pre.timestamp

/-! ## §3. What a running market's record says of its history. -/

/-- The history up to the market's present status. -/
inductive Stage (k : Nat) (history : List (Transition World Action)) (deadline window : Nat)
    (m : Market) : Prop
  | active (status : m.status = .active) (given : m.resolutionDeadline = deadline)
      (unanswered : history.filter (answersMarket k) = [])
      (undisputed : history.filter (disputesMarket k) = []) : Stage k history deadline window m
  | pending (a : Transition World Action) (status : m.status = .pendingResolution)
      (answered : history.filter (answersMarket k) = [a])
      (undisputed : history.filter (disputesMarket k) = [])
      (since : m.pendingResolutionTimestamp = some a.pre.timestamp)
      (outcome : m.winningOutcome = outcomeIn a.post k) : Stage k history deadline window m
  | disputed (a d : Transition World Action) (status : m.status = .disputed)
      (answered : history.filter (answersMarket k) = [a])
      (filed : history.filter (disputesMarket k) = [d])
      (since : m.disputeTimestamp = some d.pre.timestamp)
      (inTime : d.pre.timestamp < a.pre.timestamp + window) : Stage k history deadline window m
  | settled (status : m.Settled) : Stage k history deadline window m

/-- The record of market `k` against the history. -/
structure TracedMarket (k : Nat) (history : List (Transition World Action)) (w : World)
    (m : Market) : Prop where
  traced : ∃ c p window, CreatedBy k history c p window
    ∧ w.markets.marketDisputeWindow.lookup k = some window
    ∧ Stage k history p.resolutionDeadline window m

/-- The history of market `k` is what its record says; an id not given out has
no history. -/
structure Traced (k : Nat) (history : List (Transition World Action)) (w : World) : Prop where
  registered : Registered w
  unborn : w.markets.lastId < k → history.filter (createsMarket k) = []
    ∧ history.filter (answersMarket k) = [] ∧ history.filter (disputesMarket k) = []
  recorded : ∀ m, w.markets.market.lookup k = some m → TracedMarket k history w m

/-! ## §4. Steps that are no event of the market. -/

/-- The step is none of the market's three events. -/
def Uneventful (k : Nat) (x : Transition World Action) : Prop :=
  createsMarket k x = false ∧ answersMarket k x = false ∧ disputesMarket k x = false

theorem filter_concat_of_false {f : Transition World Action → Bool}
    {history : List (Transition World Action)} {x : Transition World Action} (h : f x = false) :
    (history ++ [x]).filter f = history.filter f := by
  simp [List.filter_append, h]

theorem filter_concat_of_true {f : Transition World Action → Bool}
    {history : List (Transition World Action)} {x : Transition World Action} (h : f x = true) :
    (history ++ [x]).filter f = history.filter f ++ [x] := by
  simp [List.filter_append, h]

/-- A step that keeps the status is no event. -/
theorem uneventful_of_status {k : Nat} {x : Transition World Action}
    (h : statusIn x.post k = statusIn x.pre k) : Uneventful k x := by
  unfold Uneventful createsMarket answersMarket disputesMarket
  rw [h]
  cases hs : statusIn x.pre k with
  | none => simp
  | some s => cases s <;> simp

theorem CreatedBy.concat {k : Nat} {history : List (Transition World Action)}
    {c x : Transition World Action} {p : MarketParams} {window : Nat}
    (h : CreatedBy k history c p window) (hx : createsMarket k x = false) :
    CreatedBy k (history ++ [x]) c p window :=
  ⟨(filter_concat_of_false hx).trans h.only, h.request, h.bounds⟩

/-- An uneventful step that keeps the fields a stage speaks of keeps the stage. -/
theorem Stage.concat {k : Nat} {history : List (Transition World Action)}
    {x : Transition World Action} {deadline window : Nat} {m m' : Market}
    (h : Stage k history deadline window m) (hx : Uneventful k x) (hs : m'.status = m.status)
    (hd : m'.resolutionDeadline = m.resolutionDeadline)
    (hp : m'.pendingResolutionTimestamp = m.pendingResolutionTimestamp)
    (hdt : m'.disputeTimestamp = m.disputeTimestamp)
    (ho : m'.winningOutcome = m.winningOutcome) :
    Stage k (history ++ [x]) deadline window m' := by
  obtain ⟨_, hanswer, hdispute⟩ := hx
  have ha : (history ++ [x]).filter (answersMarket k) = history.filter (answersMarket k) :=
    filter_concat_of_false hanswer
  have hf : (history ++ [x]).filter (disputesMarket k) = history.filter (disputesMarket k) :=
    filter_concat_of_false hdispute
  cases h with
  | active status given unanswered undisputed =>
      exact .active (hs.trans status) (hd.trans given) (ha.trans unanswered) (hf.trans undisputed)
  | pending a status answered undisputed since outcome =>
      exact .pending a (hs.trans status) (ha.trans answered) (hf.trans undisputed)
        (hp.trans since) (ho.trans outcome)
  | disputed a d status answered filed since inTime =>
      exact .disputed a d (hs.trans status) (ha.trans answered) (hf.trans filed)
        (hdt.trans since) inTime
  | settled status =>
      unfold Market.Settled at status
      rw [← hs] at status
      exact .settled status

/-- The history of an Active market. -/
theorem Stage.of_active {k : Nat} {history : List (Transition World Action)}
    {deadline window : Nat} {m : Market} (h : Stage k history deadline window m)
    (hs : m.status = .active) :
    m.resolutionDeadline = deadline ∧ history.filter (answersMarket k) = []
      ∧ history.filter (disputesMarket k) = [] := by
  cases h with
  | active _ given unanswered undisputed => exact ⟨given, unanswered, undisputed⟩
  | pending _ status => cases hs.symm.trans status
  | disputed _ _ status => cases hs.symm.trans status
  | settled status => rcases status with status | status <;> cases hs.symm.trans status

/-- The history of a market in PendingResolution. -/
theorem Stage.of_pending {k : Nat} {history : List (Transition World Action)}
    {deadline window : Nat} {m : Market} (h : Stage k history deadline window m)
    (hs : m.status = .pendingResolution) :
    ∃ a, history.filter (answersMarket k) = [a] ∧ history.filter (disputesMarket k) = []
      ∧ m.pendingResolutionTimestamp = some a.pre.timestamp
      ∧ m.winningOutcome = outcomeIn a.post k := by
  cases h with
  | active status => cases hs.symm.trans status
  | pending a _ answered undisputed since outcome =>
      exact ⟨a, answered, undisputed, since, outcome⟩
  | disputed _ _ status => cases hs.symm.trans status
  | settled status => rcases status with status | status <;> cases hs.symm.trans status

/-- The history of a Disputed market. -/
theorem Stage.of_disputed {k : Nat} {history : List (Transition World Action)}
    {deadline window : Nat} {m : Market} (h : Stage k history deadline window m)
    (hs : m.status = .disputed) :
    ∃ a d, history.filter (answersMarket k) = [a] ∧ history.filter (disputesMarket k) = [d]
      ∧ m.disputeTimestamp = some d.pre.timestamp
      ∧ d.pre.timestamp < a.pre.timestamp + window := by
  cases h with
  | active status => cases hs.symm.trans status
  | pending _ status => cases hs.symm.trans status
  | disputed a d _ answered filed since inTime => exact ⟨a, d, answered, filed, since, inTime⟩
  | settled status => rcases status with status | status <;> cases hs.symm.trans status

/-! ## §5. Steps that are. -/

theorem statusIn_of_lookup {w : World} {k : Nat} {m : Market}
    (h : w.markets.market.lookup k = some m) : statusIn w k = some m.status := by
  unfold statusIn
  rw [h]
  rfl

theorem statusIn_of_none {w : World} {k : Nat} (h : w.markets.market.lookup k = none) :
    statusIn w k = none := by
  unfold statusIn
  rw [h]
  rfl

/-- What a creation asked for, and what it stored. -/
theorem Succeeds.lists {env : Env} {w w' : World} {c : Call} {p : MarketParams}
    (h : Succeeds X env c w w') (hc : c.kind = .creates p) :
    ∃ dw id, creationRequest (.call env c) = some (p, dw) ∧ MarketListed w p dw id w' := by
  obtain ⟨r, h⟩ := h
  cases c <;> cases hc
  · obtain ⟨id, h, _⟩ := returning_eq_ok.mp h
    exact ⟨none, id, rfl, createMarketWithDisputeWindow_listed h⟩
  · rename_i dw
    obtain ⟨id, h, _⟩ := returning_eq_ok.mp h
    exact ⟨dw, id, rfl, createMarketWithDisputeWindow_listed h⟩

/-- The window stored with a market is written at its creation only. -/
theorem Effect.window_kept {env : Env} {w w' : World} {c : Call} {k : Nat} (hreg : Registered w)
    (h : Effect X env w c w') (hpre : w.markets.market.lookup k ≠ none)
    (hpost : w'.markets.market.lookup k ≠ none) :
    w'.markets.marketDisputeWindow.lookup k = w.markets.marketDisputeWindow.lookup k := by
  cases h with
  | created _ p id _ hc h =>
      obtain ⟨window, hw⟩ := h.markets
      have hne : k ≠ id := by
        rintro rfl
        refine hpre ?_
        have hnone := hreg.next_unused
        rw [MarketStore.lastId, ← h.id_eq] at hnone
        exact hnone
      rw [hw]
      exact (Store.lookup_insert_eq _ _ _ _).trans (if_neg hne)
  | bet b m fee _ h =>
      obtain ⟨counts, hw⟩ := h.markets
      rw [hw]
      rfl
  | pruned id m t ar evs lookup =>
      have hne : k ≠ id := by
        rintro rfl
        refine hpost ?_
        show (w.markets.removeMarket k).market.lookup k = none
        rw [MarketStore.lookup_removeMarket, if_pos rfl]
      show (w.markets.marketDisputeWindow.erase id).lookup k = _
      rw [Store.lookup_erase_eq, if_neg hne]
  | voted voter id outcome weight m ledger br evs _ lookup disputed snapshot frame =>
      obtain ⟨_, _, _, _, rfl⟩ := frame
      rfl
  | _ => rfl

/-- A lifecycle move takes the market to its next stage, and notes the step. -/
theorem Stage.move {k : Nat} {history : List (Transition World Action)} {deadline window : Nat}
    {env : Env} {w w' : World} {c : Call} {f : LifecycleCall} {m m' : Market}
    (h : Stage k history deadline window m) (hc : c.kind = .moves k f)
    (move : LifecycleMove X w k m f m') (hwindow : disputeWindowOf w k = window)
    (hpre : statusIn w k = some m.status) (hpost : w'.markets.market.lookup k = some m') :
    Stage k (history ++ [⟨w, .call env c, w'⟩]) deadline window m' := by
  have hpost' := statusIn_of_lookup hpost
  cases move with
  | answer outcome active due fresh answered =>
      have hanswers : answersMarket k ⟨w, .call env c, w'⟩ = true := by
        unfold answersMarket
        rw [hpre, hpost', active]
        cases c <;> cases hc
        simp [isAttempt]
      have hdisputes : disputesMarket k ⟨w, .call env c, w'⟩ = false := by
        unfold disputesMarket
        rw [hpre, active]
        simp
      obtain ⟨_, unanswered, undisputed⟩ := h.of_active active
      refine .pending ⟨w, .call env c, w'⟩ rfl ?_ ?_ rfl ?_
      · rw [filter_concat_of_true hanswers, unanswered]
        rfl
      · rw [filter_concat_of_false hdisputes, undisputed]
      · unfold outcomeIn
        rw [hpost]
        rfl
  | dispute t pending since inTime =>
      have hanswers : answersMarket k ⟨w, .call env c, w'⟩ = false := by
        unfold answersMarket
        rw [hpre, pending]
        simp
      have hdisputes : disputesMarket k ⟨w, .call env c, w'⟩ = true := by
        unfold disputesMarket
        rw [hpre, hpost', pending]
        cases c <;> cases hc
        simp [isDispute]
      obtain ⟨a, answered, undisputed, since', _⟩ := h.of_pending pending
      obtain rfl : t = a.pre.timestamp := Option.some.inj (since.symm.trans since')
      rw [hwindow] at inTime
      refine .disputed a ⟨w, .call env c, w'⟩ rfl ?_ ?_ rfl inTime
      · rw [filter_concat_of_false hanswers, answered]
      · rw [filter_concat_of_true hdisputes, undisputed]
        rfl
  | confirm => exact .settled (Or.inl rfl)
  | decide => exact .settled (Or.inl rfl)
  | resolve => exact .settled (Or.inl rfl)
  | cancel => exact .settled (Or.inr rfl)
  | voteDown => exact .settled (Or.inr rfl)

/-- A stored market stays traced when it is stored afterwards and the stage
keeps up. -/
theorem TracedMarket.step {k : Nat} {history : List (Transition World Action)} {w w' : World}
    {m m' : Market} {a : Action} (h : TracedMarket k history w m)
    (hpre : w.markets.market.lookup k = some m)
    (hwindow : w'.markets.marketDisputeWindow.lookup k = w.markets.marketDisputeWindow.lookup k)
    (hstage : ∀ deadline window, w.markets.marketDisputeWindow.lookup k = some window →
      Stage k history deadline window m →
      Stage k (history ++ [⟨w, a, w'⟩]) deadline window m') :
    TracedMarket k (history ++ [⟨w, a, w'⟩]) w' m' := by
  obtain ⟨c, p, window, hcreated, hlookup, stage⟩ := h.traced
  have hx : createsMarket k ⟨w, a, w'⟩ = false := by
    unfold createsMarket
    rw [statusIn_of_lookup hpre]
    simp
  exact ⟨c, p, window, hcreated.concat hx, hwindow.trans hlookup, hstage _ _ hlookup stage⟩

/-! ## §6. Runs. -/

/-- While an id is not given out, no step is an event of it. -/
theorem Traced.unborn_concat {k : Nat} {history : List (Transition World Action)}
    {w : World} {x : Transition World Action} (h : Traced k history w) (hx : x.pre = w)
    (hreg' : Registered x.post) (hle : w.markets.lastId ≤ x.post.markets.lastId)
    (hk : x.post.markets.lastId < k) :
    (history ++ [x]).filter (createsMarket k) = []
      ∧ (history ++ [x]).filter (answersMarket k) = []
      ∧ (history ++ [x]).filter (disputesMarket k) = [] := by
  have hnone : ∀ v, Registered v → v.markets.lastId < k → v.markets.market.lookup k = none := by
    intro v hv hlt
    by_contra hsome
    obtain ⟨m, hm⟩ := Option.ne_none_iff_exists'.mp hsome
    have hdrawn := (hv.drawn k m hm).2
    omega
  have hlt : w.markets.lastId < k := by omega
  have hsame : statusIn x.post k = statusIn x.pre k := by
    rw [hx, statusIn_of_none (hnone w h.registered hlt), statusIn_of_none (hnone _ hreg' hk)]
  obtain ⟨hc, ha, hd⟩ := uneventful_of_status hsame
  obtain ⟨hcs, has, hds⟩ := h.unborn hlt
  exact ⟨(filter_concat_of_false hc).trans hcs, (filter_concat_of_false ha).trans has,
    (filter_concat_of_false hd).trans hds⟩

/-- A new market has its creation for a history. -/
theorem TracedMarket.born {k : Nat} {history : List (Transition World Action)} {env : Env}
    {w w' : World} {c : Call} {p : MarketParams} (h : Traced k history w)
    (hnext : k = w.markets.lastId + 1) (hc : c.kind = .creates p)
    (hsucc : Succeeds X env c w w') (hpre : w.markets.market.lookup k = none)
    (hpost : w'.markets.market.lookup k = some (p.newMarket k (depositFor w p.creator))) :
    TracedMarket k (history ++ [⟨w, .call env c, w'⟩]) w'
      (p.newMarket k (depositFor w p.creator)) := by
  obtain ⟨dw, id, hreq, hlisted⟩ := hsucc.lists hc
  obtain rfl : k = id := hnext.trans hlisted.id_eq.symm
  obtain ⟨hcs, has, hds⟩ := h.unborn (by omega)
  have hpre' := statusIn_of_none hpre
  have hcreates : createsMarket k ⟨w, .call env c, w'⟩ = true := by
    unfold createsMarket
    rw [hreq, hpre', statusIn_of_lookup hpost]
    simp
  have hanswers : answersMarket k ⟨w, .call env c, w'⟩ = false := by
    unfold answersMarket
    rw [hpre']
    simp
  have hdisputes : disputesMarket k ⟨w, .call env c, w'⟩ = false := by
    unfold disputesMarket
    rw [hpre']
    simp
  refine ⟨⟨w, .call env c, w'⟩, p, requestedWindow w dw, ⟨?_, ⟨dw, hreq, rfl⟩,
    hlisted.window_ge, hlisted.window_le⟩, ?_, .active rfl rfl ?_ ?_⟩
  · rw [filter_concat_of_true hcreates, hcs]
    rfl
  · rw [hlisted.markets]
    exact (Store.lookup_insert_eq _ _ _ _).trans (if_pos rfl)
  · rw [filter_concat_of_false hanswers, has]
  · rw [filter_concat_of_false hdisputes, hds]

/-- **A call keeps the history and the record together.** -/
theorem Traced.call {k : Nat} {history : List (Transition World Action)} {env : Env}
    {w w' : World} {c : Call} (h : Traced k history w) (hsucc : Succeeds X env c w w') :
    Traced k (history ++ [⟨w, .call env c, w'⟩]) w' := by
  have heff := hsucc.effect
  have hreg' := heff.registered h.registered
  refine ⟨hreg', h.unborn_concat (x := ⟨w, .call env c, w'⟩) rfl hreg' heff.lastId_le, ?_⟩
  intro m' hm'
  have hchange := heff.marketChange h.registered k
  rw [hm'] at hchange
  generalize hpre : w.markets.market.lookup k = o at hchange
  have hkept : o ≠ none → w'.markets.marketDisputeWindow.lookup k
      = w.markets.marketDisputeWindow.lookup k := by
    intro ho
    exact heff.window_kept h.registered (by rw [hpre]; exact ho) (by rw [hm']; simp)
  cases hchange with
  | created _ p hc next => exact .born h next hc hsucc hpre hm'
  | same =>
      refine (h.recorded m' hpre).step hpre (hkept (by simp)) ?_
      intro deadline window _ stage
      have hx := uneventful_of_status (x := ⟨w, .call env c, w'⟩)
        ((statusIn_of_lookup hm').trans (statusIn_of_lookup hpre).symm)
      exact stage.concat hx rfl rfl rfl rfl rfl
  | bet b m fee counts =>
      refine (h.recorded m hpre).step hpre (hkept (by simp)) ?_
      intro deadline window _ stage
      have hx := uneventful_of_status (x := ⟨w, .call env (.placeBet b), w'⟩)
        ((statusIn_of_lookup hm').trans (statusIn_of_lookup hpre).symm)
      exact stage.concat hx rfl rfl rfl rfl rfl
  | released token m =>
      refine (h.recorded m hpre).step hpre (hkept (by simp)) ?_
      intro deadline window _ stage
      have hx := uneventful_of_status (x := ⟨w, .call env (.releaseCreationDeposit k token), w'⟩)
        ((statusIn_of_lookup hm').trans (statusIn_of_lookup hpre).symm)
      exact stage.concat hx rfl rfl rfl rfl rfl
  | moved _ f m _ hc move =>
      refine (h.recorded m hpre).step hpre (hkept (by simp)) ?_
      intro deadline window hwindow stage
      have hof : disputeWindowOf w k = window := by
        unfold disputeWindowOf
        rw [hwindow]
        rfl
      exact stage.move hc move hof (statusIn_of_lookup hpre) hm'

theorem Traced.idle {k : Nat} {history : List (Transition World Action)} {w w' : World}
    {a : Action} (h : Traced k history w) (hidle : IdleStep w a w') :
    Traced k (history ++ [⟨w, a, w'⟩]) w' := by
  obtain ⟨b, t, sq, rfl⟩ := hidle.frame
  have hreg' : Registered { w with balances := b, timestamp := t, sequence := sq } :=
    h.registered.of_markets rfl
  refine ⟨hreg', ?_, ?_⟩
  · intro hk
    exact h.unborn_concat rfl hreg' (le_refl _) hk
  intro m hm
  refine (h.recorded m hm).step hm rfl ?_
  intro deadline window _ stage
  exact stage.concat (uneventful_of_status rfl) rfl rfl rfl rfl rfl

/-- Every run is traced by its history. -/
theorem traced_run (b : Address → Address → Nat) (t s : Nat) (k : Nat) (as : List Action) :
    Traced k (trace (step X) (genesis b t s) as) (run (step X) (genesis b t s) as) := by
  refine history_call_invariant (Traced k) ?_ Traced.call Traced.idle as
  refine ⟨.genesis b t s, fun _ => ⟨rfl, rfl, rfl⟩, ?_⟩
  intro m hm
  cases hm

/-! ## §7. The windows. -/

theorem finalizesMarket_spec {k : Nat} {status : MarketStatus} {x : Transition World Action}
    (h : finalizesMarket k status x = true) :
    (∃ env, x.act = .call env (.finalizeResolution k)) ∧ statusIn x.pre k = some status
      ∧ statusIn x.post k = some .resolved := by
  unfold finalizesMarket at h
  simp only [Bool.and_eq_true, decide_eq_true_eq] at h
  obtain ⟨⟨hact, hpre⟩, hpost⟩ := h
  refine ⟨?_, hpre, hpost⟩
  unfold isFinalize at hact
  split at hact
  · rename_i env id hx
    exact ⟨env, by rw [hx, of_decide_eq_true hact]⟩
  · cases hact

theorem lookup_of_statusIn {w : World} {k : Nat} {status : MarketStatus}
    (h : statusIn w k = some status) :
    ∃ m, w.markets.market.lookup k = some m ∧ m.status = status := by
  unfold statusIn at h
  obtain ⟨m, hm, hs⟩ := Option.map_eq_some_iff.mp h
  exact ⟨m, hm, hs⟩

/-- A finalisation is a lifecycle move of a traced record. -/
theorem Traced.finalizes {k : Nat} {history : List (Transition World Action)} {w : World}
    {a : Action} {status : MarketStatus} (h : Traced k history w) (hne : status ≠ .resolved)
    (hfin : finalizesMarket k status ⟨w, a, step X w a⟩ = true) :
    ∃ m m', m.status = status ∧ TracedMarket k history w m
      ∧ LifecycleMove X w k m .finalizeResolution m'
      ∧ outcomeIn (step X w a) k = m'.winningOutcome := by
  obtain ⟨⟨env, hact⟩, hpre, hpost⟩ := finalizesMarket_spec hfin
  change a = .call env (.finalizeResolution k) at hact
  subst hact
  obtain ⟨m, hm, hs⟩ := lookup_of_statusIn hpre
  obtain ⟨m', hm', hs'⟩ := lookup_of_statusIn hpost
  have houtcome : outcomeIn (step X w (.call env (.finalizeResolution k))) k
      = m'.winningOutcome := by
    unfold outcomeIn
    rw [hm']
    rfl
  refine ⟨m, m', hs, h.recorded m hm, ?_, houtcome⟩
  -- the status changed, so the call succeeded, and moved this market
  have hchanged : m'.status ≠ m.status := by
    rw [hs, hs']
    exact Ne.symm hne
  rcases step_call_effect X env (.finalizeResolution k) w with hsame | heff
  · rw [hsame, hm] at hm'
    cases hm'
    exact absurd rfl hchanged
  · have hchange := heff.marketChange h.registered k
    rw [hm, hm'] at hchange
    cases hchange with
    | same => exact absurd rfl hchanged
    | moved _ f _ _ hc move =>
        cases hc
        exact move

/-- **Resolution respects the windows**: what the last step of any run does to
a market is in keeping with the times its history gives. -/
theorem windows_respected (X : Externs) (b : Address → Address → Nat) (t s : Nat)
    (as : List Action) (a : Action) (k : Nat) :
    WindowsRespected X k (trace (step X) (genesis b t s) as)
      ⟨run (step X) (genesis b t s) as, a, step X (run (step X) (genesis b t s) as) a⟩ := by
  have htraced := traced_run (X := X) b t s k as
  generalize trace (step X) (genesis b t s) as = history at htraced ⊢
  generalize run (step X) (genesis b t s) as = w at htraced ⊢
  constructor
  · intro hfin
    obtain ⟨m, m', hs, hm, move, houtcome⟩ := htraced.finalizes (by decide) hfin
    obtain ⟨c, p, window, hcreated, hwindow, stage⟩ := hm.traced
    obtain ⟨y, answered, _, since, outcome⟩ := stage.of_pending hs
    cases move with
    | decide _ _ disputed => cases hs.symm.trans disputed
    | confirm t' o _ since' elapsed decided =>
        obtain rfl : t' = y.pre.timestamp := Option.some.inj (since'.symm.trans since)
        unfold disputeWindowOf at elapsed
        rw [hwindow] at elapsed
        exact ⟨c, p, window, y, o, hcreated, answered, elapsed, outcome.symm.trans decided,
          houtcome.trans decided⟩
  · intro hfin
    obtain ⟨m, m', hs, hm, move, _⟩ := htraced.finalizes (by decide) hfin
    obtain ⟨c, p, window, hcreated, _, stage⟩ := hm.traced
    obtain ⟨y, d, answered, filed, since, inTime⟩ := stage.of_disputed hs
    cases move with
    | confirm _ _ pending => cases hs.symm.trans pending
    | decide t' o _ since' elapsed votes =>
        obtain rfl : t' = d.pre.timestamp := Option.some.inj (since'.symm.trans since)
        exact ⟨c, p, window, y, d, hcreated, answered, filed, elapsed, inTime⟩
  · intro env hact hsucc
    change a = .call env (.attemptOracleResolution k) at hact
    subst hact
    obtain ⟨_, hr⟩ := hsucc
    obtain ⟨m, o, hm, hs, hdue, _⟩ := attemptOracleResolution_ok (done_eq_ok.mp hr).1
    obtain ⟨c, p, window, hcreated, _, stage⟩ := (htraced.recorded m hm).traced
    refine ⟨c, p, window, hcreated, ?_⟩
    rw [← (stage.of_active hs).1]
    exact hdue

/-- The sample market, answered at 200000, with the default window of three days. -/
def sampleAnswered : List Action :=
  sampleOpening 0 1000 ++
    [.advance 200000 0,
      .call everybody (.setOracleResult 1 0 0),
      .call everybody (.attemptOracleResolution 1)]

/-- It is confirmed when the window is over, and not a second before. -/
example : statusIn (sampleRun (sampleAnswered
      ++ [.advance 259200 0, .call everybody (.finalizeResolution 1)])) 1 = some .resolved
    ∧ statusIn (sampleRun (sampleAnswered
      ++ [.advance 259199 0, .call everybody (.finalizeResolution 1)])) 1
        = some .pendingResolution := by decide +kernel

end PredictIQ.Contract
