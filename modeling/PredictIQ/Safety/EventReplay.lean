/-
  PredictIQ.Safety.EventReplay: the market an indexer reconstructs.

  An indexer that follows one market id folds the market's events into a view
  of its record.  The view has the status and the winning outcome right; of
  the stakes it has the amounts that were paid, of which the record holds what
  the fee left.  The fee depends on the base fee and on the market's tier, and
  no event of the market tells either.
-/
import PredictIQ.Foundation.EventLog
import PredictIQ.Contract.Announcements
import PredictIQ.Safety.StakeConservation

namespace PredictIQ.Contract

open Foundation

variable {X : Externs}

/-! ## §1. The indexer. -/

/-- The market id among the topics of an event. -/
def Event.marketId : Event → Option Nat
  | .mktCreat marketId .. => some marketId
  | .betPlace marketId .. => some marketId
  | .dispFile marketId .. => some marketId
  | .resolvFx marketId .. => some marketId
  | .voteCast marketId .. => some marketId
  | .cbState .. => some 0
  | .oracleOk marketId .. => some marketId
  | .orclRes marketId .. => some marketId
  | .mktFinal marketId .. => some marketId
  | .dispRes marketId .. => some marketId
  | .mktState marketId .. => some marketId
  | .mktCncl marketId _ => some marketId
  | .mkCnVt marketId _ => some marketId
  | .refRwrd marketId .. => some marketId
  | .refClaim marketId .. => some marketId
  | .feeColct marketId .. => some marketId
  | .mktPrune marketId _ => some marketId
  | .cbThrSet .. => none
  | .monReset .. => none
  | .upgInit .. => none
  | .upgVote .. => none
  | .xferFail .. => none
  | .tokenFrz .. => none
  | .feesWithdrawn .. => none
  | .cbAuto _ => none

/-- What an indexer keeps of a market; `staked` counts the amounts paid. -/
structure MarketView where
  status : MarketStatus
  winningOutcome : Option Nat
  staked : Store Nat Int

/-- The view after a bet of `amount` on `outcome`. -/
def MarketView.bet (v : MarketView) (outcome : Nat) (amount : Int) : MarketView :=
  { v with staked := v.staked.insert outcome ((v.staked.lookup outcome).getD 0 + amount) }

/-- One event read; `none` while there is no market. -/
def MarketView.apply (v : Option MarketView) : Event → Option MarketView
  | .mktCreat .. => some { status := .active, winningOutcome := none, staked := ∅ }
  | .betPlace _ _ outcome amount => v.map (·.bet outcome amount)
  | .orclRes _ _ outcome =>
      v.map ({ · with status := .pendingResolution, winningOutcome := some outcome })
  | .dispFile .. => v.map ({ · with status := .disputed })
  | .mktFinal _ _ outcome => v.map ({ · with status := .resolved, winningOutcome := some outcome })
  | .dispRes _ _ outcome => v.map ({ · with status := .resolved, winningOutcome := some outcome })
  | .resolvFx _ _ outcome _ =>
      v.map ({ · with status := .resolved, winningOutcome := some outcome })
  | .mktCncl .. => v.map ({ · with status := .cancelled })
  | .mkCnVt .. => v.map ({ · with status := .cancelled })
  | .mktPrune .. => none
  | _ => v

/-- The indexer that follows market `k`. -/
def observe (k : Nat) : Option MarketView → Event → Option MarketView :=
  follow Event.marketId MarketView.apply k

/-- Its view after the whole log. -/
def viewOf (k : Nat) (log : List Event) : Option MarketView := replay (observe k) none log

/-- The events that carry market id `k`. -/
def eventsOf (k : Nat) (w : World) : List Event := about Event.marketId k w.events

/-- Events aside change no view. -/
theorem observe_of_aside {ev : Event} (h : ev.aside = true) (k : Nat) (v : Option MarketView) :
    observe k v ev = v := by
  have happly : MarketView.apply v ev = v := by
    cases ev <;> first | rfl | cases h
  unfold observe follow
  rw [happly]
  exact ite_self v

/-- What a step publishes, read on from the view before it. -/
theorem Publishes.viewOf_eq {w w' : World} {evs : List Event} (h : Publishes w evs w') (k : Nat) :
    viewOf k w'.events = replay (observe k) (viewOf k w.events) evs := by
  obtain ⟨asides, hasides, hevents⟩ := h
  unfold viewOf
  rw [hevents, replay_append, replay_append]
  congr 1
  refine replay_of_idle ?_ _
  intro ev hev v
  exact observe_of_aside (List.all_eq_true.mp hasides ev hev) k v

/-- Events of another market are passed over. -/
theorem Publishes.viewOf_of_ne {w w' : World} {evs : List Event} {k : Nat}
    (h : Publishes w evs w') (hne : ∀ ev ∈ evs, ev.marketId ≠ some k) :
    viewOf k w'.events = viewOf k w.events := by
  rw [h.viewOf_eq k]
  exact replay_follow_of_ne hne _

/-- Events of the market are all read. -/
theorem Publishes.viewOf_of_eq {w w' : World} {evs : List Event} {k : Nat}
    (h : Publishes w evs w') (heq : ∀ ev ∈ evs, ev.marketId = some k) :
    viewOf k w'.events = replay MarketView.apply (viewOf k w.events) evs := by
  rw [h.viewOf_eq k]
  exact replay_follow_of_eq heq _

/-! ## §2. The fees. -/

/-- The fee of a bet on outcome `o` of market `k` that was taken in this step. -/
def betFee (k o : Nat) (x : Transition World Action) : Int :=
  match x.act with
  | .call _ (.placeBet b) =>
      if (b.marketId = k ∧ b.outcome = o) ∧ newTransfers x ≠ [] then feeCharged x.pre b else 0
  | _ => 0

/-- The fees on outcome `o` of market `k` over a history. -/
def feesOn (k o : Nat) (history : List (Transition World Action)) : Int :=
  (history.map (betFee k o)).sum

theorem feesOn_concat (k o : Nat) (history : List (Transition World Action))
    (x : Transition World Action) :
    feesOn k o (history ++ [x]) = feesOn k o history + betFee k o x := by
  simp [feesOn]

theorem betFee_of_bet {env : Env} {w w' : World} {b : BetParams} {m : Market} {fee : Int}
    (h : PlaceBetEffect env w b m fee w') (k o : Nat) :
    betFee k o ⟨w, .call env (.placeBet b), w'⟩
      = if b.marketId = k ∧ b.outcome = o then fee else 0 := by
  have hnew := h.newTransfers_eq (.call env (.placeBet b))
  simp [betFee, hnew, h.feeCharged_eq]

theorem betFee_of_not_bet {k o : Nat} {env : Env} {c : Call} {w w' : World}
    (h : ∀ b, c ≠ .placeBet b) : betFee k o ⟨w, .call env c, w'⟩ = 0 := by
  cases c with
  | placeBet b => exact absurd rfl (h b)
  | _ => rfl

/-- A step that changes nothing takes no fee. -/
theorem betFee_of_same {k o : Nat} {x : Transition World Action} (h : x.post = x.pre) :
    betFee k o x = 0 := by
  unfold betFee
  rw [newTransfers_of_same h]
  split <;> simp

/-! ## §3. The view against the record. -/

/-- The view tells status and outcome, and the stakes up to the fees. -/
structure Reflects (fees : Nat → Int) (v : MarketView) (m : Market) : Prop where
  status : v.status = m.status
  winningOutcome : v.winningOutcome = m.winningOutcome
  stakes : ∀ o, m.outcomeStakes.lookup o = (v.staked.lookup o).map (· - fees o)
  unstaked : ∀ o, v.staked.lookup o = none → fees o = 0

/-- A new market is announced as it is stored. -/
theorem Reflects.newMarket {fees : Nat → Int} (h : ∀ o, fees o = 0) (p : MarketParams) (k : Nat)
    (deposit : Int) :
    Reflects fees { status := .active, winningOutcome := none, staked := ∅ }
      (p.newMarket k deposit) :=
  ⟨rfl, rfl, fun _ => rfl, fun o _ => h o⟩

/-- A bet is announced with its fee. -/
theorem Reflects.staked {fees fees' : Nat → Int} {v : MarketView} {m : Market} {outcome : Nat}
    {amount fee : Int} {counts : Store Nat Nat} (h : Reflects fees v m)
    (hfees : ∀ o, fees' o = fees o + if outcome = o then fee else 0) :
    Reflects fees' (v.bet outcome amount) (m.staked outcome (amount - fee) counts) := by
  refine ⟨h.status, h.winningOutcome, ?_, ?_⟩
  · intro o
    show (m.outcomeStakes.insert outcome (getOutcomeStake m outcome + (amount - fee))).lookup o
      = ((v.staked.insert outcome ((v.staked.lookup outcome).getD 0 + amount)).lookup o).map
          (· - fees' o)
    rw [Store.lookup_insert_eq, Store.lookup_insert_eq, hfees]
    by_cases ho : o = outcome
    · subst ho
      rw [if_pos rfl, if_pos rfl, if_pos rfl]
      -- the stake before, by the view before
      have hstake := h.stakes o
      have hzero := h.unstaked o
      unfold getOutcomeStake
      rw [hstake]
      cases hv : v.staked.lookup o with
      | none =>
          rw [hzero hv]
          show some _ = some _
          simp
      | some x =>
          show some (x - fees o + (amount - fee)) = some (x + amount - (fees o + fee))
          congr 1
          omega
    · rw [if_neg ho, if_neg ho, if_neg (Ne.symm ho), add_zero]
      exact h.stakes o
  · intro o ho
    change (v.staked.insert outcome _).lookup o = none at ho
    rw [Store.lookup_insert_eq] at ho
    split at ho
    · cases ho
    · rename_i hne
      rw [hfees, if_neg (Ne.symm hne), add_zero]
      exact h.unstaked o ho

/-- A move is announced with the status and the outcome it leaves. -/
theorem Reflects.moved {fees : Nat → Int} {v : MarketView} {w : World} {m m' : Market} {k : Nat}
    {f : LifecycleCall} {evs : List Event} (h : Reflects fees v m) (hmove : LifecycleMove X w k m f m')
    (hann : MoveAnnounced k m' f evs) :
    Option.Rel (Reflects fees) (replay MarketView.apply (some v) evs) (some m') := by
  cases hann with
  | answer outcome t decided =>
      cases hmove
      exact .some ⟨rfl, decided.symm, h.stakes, h.unstaked⟩
  | confirm outcome t decided =>
      cases hmove <;> exact .some ⟨rfl, decided.symm, h.stakes, h.unstaked⟩
  | decide outcome t decided =>
      cases hmove <;> exact .some ⟨rfl, decided.symm, h.stakes, h.unstaked⟩
  | dispute disciplinarian newDeadline =>
      cases hmove
      exact .some ⟨rfl, h.winningOutcome, h.stakes, h.unstaked⟩
  | resolve outcome resolver payout decided =>
      cases hmove
      exact .some ⟨rfl, decided.symm, h.stakes, h.unstaked⟩
  | cancel admin =>
      cases hmove
      exact .some ⟨rfl, h.winningOutcome, h.stakes, h.unstaked⟩
  | voteDown =>
      cases hmove
      exact .some ⟨rfl, h.winningOutcome, h.stakes, h.unstaked⟩

/-- The events of a move carry the market's id. -/
theorem MoveAnnounced.marketId {k : Nat} {m' : Market} {f : LifecycleCall} {evs : List Event}
    (h : MoveAnnounced k m' f evs) : ∀ ev ∈ evs, ev.marketId = some k := by
  cases h <;> simp [Event.marketId]

/-! ## §4. One step. -/

/-- The event of an executed upgrade, whose body the source does not have,
names no market. -/
def Externs.UpgradesUnmarked (X : Externs) : Prop :=
  ∀ executor hash, (X.emitUpgradeExecuted executor hash).marketId = none

/-- The view of market `k` reflects its record up to the fees of the history. -/
structure Replayed (k : Nat) (history : List (Transition World Action)) (w : World) : Prop where
  registered : Registered w
  unborn : w.markets.lastId < k → ∀ o, feesOn k o history = 0
  reflected : Option.Rel (Reflects fun o => feesOn k o history) (viewOf k w.events)
    (w.markets.market.lookup k)

/-- A step that takes no fee on the market. -/
theorem Replayed.step {k : Nat} {history : List (Transition World Action)} {w : World}
    {x : Transition World Action} (h : Replayed k history w) (hfee : ∀ o, betFee k o x = 0)
    (hreg' : Registered x.post) (hle : w.markets.lastId ≤ x.post.markets.lastId)
    (hrel : Option.Rel (Reflects fun o => feesOn k o history) (viewOf k x.post.events)
      (x.post.markets.market.lookup k)) : Replayed k (history ++ [x]) x.post := by
  have hfees : ∀ o, feesOn k o (history ++ [x]) = feesOn k o history := by
    intro o
    rw [feesOn_concat, hfee o, add_zero]
  refine ⟨hreg', ?_, ?_⟩
  · intro hk o
    rw [hfees o]
    exact h.unborn (by omega) o
  · simp only [hfees]
    exact hrel

/-- Creation. -/
theorem Replayed.created {k : Nat} {history : List (Transition World Action)} {w w' : World}
    {p : MarketParams} {dw : Option Nat} {id : Nat} (h : Replayed k history w)
    (hlisted : MarketListed w p dw id w')
    (hp : Publishes w [.mktCreat id p.creator p.description p.options.length p.deadline] w') :
    Option.Rel (Reflects fun o => feesOn k o history) (viewOf k w'.events)
      (w'.markets.market.lookup k) := by
  rw [hlisted.markets, MarketStore.lookup_addMarket]
  show Option.Rel _ _ (if k = id then _ else _)
  by_cases hk : k = id
  · subst hk
    have hnext : w.markets.lastId < k := by
      have hid := hlisted.id_eq
      unfold MarketStore.lastId
      omega
    rw [if_pos rfl, hp.viewOf_of_eq (k := k) (by simp [Event.marketId])]
    exact .some (.newMarket (h.unborn hnext) p k _)
  · rw [if_neg hk, hp.viewOf_of_ne (k := k) (by simp [Event.marketId, Ne.symm hk])]
    exact h.reflected

/-- A bet. -/
theorem Replayed.bet {k : Nat} {history : List (Transition World Action)} {env : Env}
    {w w' : World} {b : BetParams} {m : Market} {fee : Int} (h : Replayed k history w)
    (hbet : PlaceBetEffect env w b m fee w') (hreg' : Registered w')
    (hp : Publishes w [.betPlace b.marketId b.bettor b.outcome b.amount] w') :
    Replayed k (history ++ [⟨w, .call env (.placeBet b), w'⟩]) w' := by
  obtain ⟨counts, hmarkets⟩ := hbet.markets
  have hid : m.id = b.marketId := h.registered.keyed _ m hbet.lookup
  have hfee := betFee_of_bet hbet k
  by_cases hk : k = b.marketId
  · subst hk
    have hdrawn := (h.registered.drawn _ m hbet.lookup).2
    have hlast : w'.markets.lastId = w.markets.lastId := by
      rw [hmarkets]
      rfl
    refine ⟨hreg', fun hlt => by omega, ?_⟩
    have hrel := h.reflected
    rw [hp.viewOf_of_eq (by simp [Event.marketId]), hmarkets, MarketStore.lookup_updateMarket]
    rw [hbet.lookup] at hrel
    generalize viewOf b.marketId w.events = o at hrel ⊢
    cases hrel with
    | some hv =>
        show Option.Rel _ _ (if b.marketId = m.id then _ else _)
        rw [if_pos hid.symm]
        refine .some (hv.staked ?_)
        intro o
        rw [feesOn_concat, hfee o]
        simp
  · refine h.step ?_ hreg' ?_ ?_
    · intro o
      rw [hfee o, if_neg]
      exact fun hc => hk hc.1.symm
    · rw [hmarkets]
      exact le_refl _
    · show Option.Rel _ (viewOf k w'.events) (w'.markets.market.lookup k)
      rw [hp.viewOf_of_ne (by simp [Event.marketId, Ne.symm hk]), hmarkets,
        MarketStore.lookup_updateMarket]
      show Option.Rel _ _ (if k = m.id then _ else _)
      rw [if_neg (by rw [hid]; exact hk)]
      exact h.reflected

/-- A lifecycle move. -/
theorem Replayed.moved {k : Nat} {history : List (Transition World Action)} {w w' : World}
    {id : Nat} {f : LifecycleCall} {m m' : Market} {evs : List Event} (h : Replayed k history w)
    (hm : w.markets.market.lookup id = some m) (hmove : LifecycleMove X w id m f m')
    (hmarkets : w'.markets = w.markets.updateMarket m') (hann : MoveAnnounced id m' f evs)
    (hp : Publishes w evs w') :
    Option.Rel (Reflects fun o => feesOn k o history) (viewOf k w'.events)
      (w'.markets.market.lookup k) := by
  have hid : m'.id = id := hmove.id_eq.trans (h.registered.keyed id m hm)
  have hrel := h.reflected
  rw [hmarkets, MarketStore.lookup_updateMarket, hid]
  by_cases hk : k = id
  · subst hk
    rw [if_pos rfl, hp.viewOf_of_eq hann.marketId]
    rw [hm] at hrel
    generalize viewOf k w.events = o at hrel ⊢
    cases hrel with
    | some hv => exact hv.moved hmove hann
  · rw [if_neg hk, hp.viewOf_of_ne]
    · exact hrel
    · intro ev hev
      rw [hann.marketId ev hev]
      exact fun heq => hk (Option.some.inj heq).symm

/-- **A call keeps the view and the record together.** -/
theorem Replayed.call (hX : X.UpgradesUnmarked) {k : Nat}
    {history : List (Transition World Action)} {env : Env} {w w' : World} {c : Call}
    (h : Replayed k history w) (hsucc : Succeeds X env c w w') :
    Replayed k (history ++ [⟨w, .call env c, w'⟩]) w' := by
  have heff := hsucc.effect
  have hreg' := heff.registered h.registered
  have hle := heff.lastId_le
  have hstep : (∀ b, c ≠ .placeBet b) →
      Option.Rel (Reflects fun o => feesOn k o history) (viewOf k w'.events)
        (w'.markets.market.lookup k) →
      Replayed k (history ++ [⟨w, .call env c, w'⟩]) w' := by
    intro hc hrel
    exact h.step (x := ⟨w, .call env c, w'⟩) (fun _ => betFee_of_not_bet hc) hreg' hle hrel
  cases hsucc.announced with
  | aside _ _ hc markets publishes =>
      refine hstep ?_ ?_
      · rintro b rfl
        cases hc
      · rw [publishes.viewOf_of_ne (by simp), markets]
        exact h.reflected
  | upgraded executor hash _ markets publishes =>
      refine hstep (nofun) ?_
      rw [publishes.viewOf_of_ne (by simp [hX executor hash]), markets]
      exact h.reflected
  | created _ p dw id _ hc listed publishes =>
      refine hstep ?_ (h.created listed publishes)
      rintro b rfl
      cases hc
  | bet b m fee _ effect publishes => exact h.bet effect hreg' publishes
  | moved _ id f m m' evs _ hc lookup move markets announced publishes =>
      refine hstep ?_ (h.moved lookup move markets announced publishes)
      rintro b rfl
      cases hc
  | released id token m deposit _ lookup markets publishes =>
      refine hstep (nofun) ?_
      have hid : m.id = id := h.registered.keyed id m lookup
      have hrel := h.reflected
      rw [publishes.viewOf_of_ne (by simp), markets, MarketStore.lookup_updateMarket]
      show Option.Rel _ _ (if k = m.id then _ else _)
      split
      · -- the deposit is no part of the view
        rename_i hk
        rw [hk, hid, lookup] at hrel
        rw [hk, hid]
        generalize viewOf id w.events = o at hrel ⊢
        cases hrel with
        | some hv => exact .some ⟨hv.status, hv.winningOutcome, hv.stakes, hv.unstaked⟩
      · exact hrel
  | releasedNothing id token _ markets publishes =>
      refine hstep (nofun) ?_
      rw [publishes.viewOf_of_ne (by simp), markets]
      exact h.reflected
  | pruned id t _ markets publishes =>
      refine hstep (nofun) ?_
      rw [markets, MarketStore.lookup_removeMarket]
      by_cases hk : k = id
      · subst hk
        rw [if_pos rfl, publishes.viewOf_of_eq (by simp [Event.marketId])]
        exact .none
      · rw [if_neg hk, publishes.viewOf_of_ne (by simp [Event.marketId, Ne.symm hk])]
        exact h.reflected

theorem Replayed.idle {k : Nat} {history : List (Transition World Action)} {w w' : World}
    {a : Action} (h : Replayed k history w) (hidle : IdleStep w a w') :
    Replayed k (history ++ [⟨w, a, w'⟩]) w' := by
  -- a failed bet leaves the transfers as they were
  have hfee : ∀ o, betFee k o ⟨w, a, w'⟩ = 0 := by
    intro o
    cases hidle with
    | failed => exact betFee_of_same rfl
    | advanced => rfl
    | moved => rfl
  obtain ⟨_, _, _, rfl⟩ := hidle.frame
  exact h.step hfee (h.registered.of_markets rfl) (le_refl _) h.reflected

/-! ## §5. Runs. -/

/-- **The indexer's view of every run.** -/
theorem replayed_run (hX : X.UpgradesUnmarked) (b : Address → Address → Nat) (t s : Nat) (k : Nat)
    (as : List Action) :
    Replayed k (trace (step X) (genesis b t s) as) (run (step X) (genesis b t s) as) :=
  history_call_invariant (Replayed k) ⟨.genesis b t s, fun _ _ => rfl, .none⟩ (.call hX) .idle as

/-! ## §6. Two runs. -/

/-- Two records agree on status, outcome, pool and stakes. -/
structure Market.Agrees (m m' : Market) : Prop where
  status : m.status = m'.status
  winningOutcome : m.winningOutcome = m'.winningOutcome
  totalStaked : m.totalStaked = m'.totalStaked
  outcomeStakes : ∀ o, m.outcomeStakes.lookup o = m'.outcomeStakes.lookup o

/-- Market `k` is the same in both worlds, or stored in neither. -/
def AgreeOn (k : Nat) (w w' : World) : Prop :=
  Option.Rel Market.Agrees (w.markets.market.lookup k) (w'.markets.market.lookup k)

theorem AgreeOn.totalStaked_eq {k : Nat} {w w' : World} (h : AgreeOn k w w') :
    (w.markets.market.lookup k).map (·.totalStaked)
      = (w'.markets.market.lookup k).map (·.totalStaked) := by
  unfold AgreeOn at h
  generalize w.markets.market.lookup k = o at h ⊢
  generalize w'.markets.market.lookup k = o' at h ⊢
  cases h with
  | some h => exact congrArg some h.totalStaked
  | none => rfl

/-- Records that reflect one view agree exactly when their fees do; the pool
follows from the stakes. -/
theorem Reflects.agrees_iff {fees fees' : Nat → Int} {v : MarketView} {m m' : Market}
    (h : Reflects fees v m) (h' : Reflects fees' v m')
    (hpool : m.totalStaked = stakesTotal m.outcomeStakes)
    (hpool' : m'.totalStaked = stakesTotal m'.outcomeStakes) :
    m.Agrees m' ↔ ∀ o, fees o = fees' o := by
  constructor
  · intro hagree o
    have hstakes := hagree.outcomeStakes o
    rw [h.stakes o, h'.stakes o] at hstakes
    cases hv : v.staked.lookup o with
    | none => rw [h.unstaked o hv, h'.unstaked o hv]
    | some x =>
        rw [hv] at hstakes
        have hnet : x - fees o = x - fees' o := Option.some.inj hstakes
        omega
  · intro hfees
    have hstakes : ∀ o, m.outcomeStakes.lookup o = m'.outcomeStakes.lookup o := by
      intro o
      rw [h.stakes o, h'.stakes o, hfees o]
    refine ⟨h.status.symm.trans h'.status, h.winningOutcome.symm.trans h'.winningOutcome, ?_,
      hstakes⟩
    rw [hpool, hpool']
    exact Store.total_eq_of_lookup _ hstakes

/-- **What the events determine.**  Two runs that publish the same events of
market `k` end with the same record of it exactly when the record is gone or
the fees taken on each outcome add up to the same. -/
theorem events_determine_iff (X : Externs) (hX : X.UpgradesUnmarked)
    (b b' : Address → Address → Nat) (t t' s s' : Nat) (as as' : List Action) (k : Nat)
    (hevents : eventsOf k (run (step X) (genesis b t s) as)
      = eventsOf k (run (step X) (genesis b' t' s') as')) :
    AgreeOn k (run (step X) (genesis b t s) as) (run (step X) (genesis b' t' s') as')
      ↔ (run (step X) (genesis b t s) as).markets.market.lookup k = none
        ∨ ∀ o, feesOn k o (trace (step X) (genesis b t s) as)
          = feesOn k o (trace (step X) (genesis b' t' s') as') := by
  have hrel := (replayed_run hX b t s k as).reflected
  have hrel' := (replayed_run hX b' t' s' k as').reflected
  have hkept := (stakesConserved_run X b t s as).kept k
  have hkept' := (stakesConserved_run X b' t' s' as').kept k
  -- both records reflect the one view
  have hview : viewOf k (run (step X) (genesis b t s) as).events
      = viewOf k (run (step X) (genesis b' t' s') as').events := replay_eq_of_about_eq hevents none
  rw [hview] at hrel
  unfold AgreeOn
  generalize viewOf k (run (step X) (genesis b' t' s') as').events = v at hrel hrel'
  generalize (run (step X) (genesis b t s) as).markets.market.lookup k = o at hrel hkept ⊢
  generalize (run (step X) (genesis b' t' s') as').markets.market.lookup k = o' at hrel' hkept' ⊢
  cases hrel with
  | none =>
      cases hrel'
      exact ⟨fun _ => Or.inl rfl, fun _ => .none⟩
  | some h =>
      cases hrel' with
      | some h' =>
          have hiff := h.agrees_iff h' (hkept _ rfl).pool (hkept' _ rfl).pool
          constructor
          · intro hagree
            cases hagree with
            | some hagree => exact Or.inr (hiff.mp hagree)
          · intro hfees
            rcases hfees with hgone | hfees
            · cases hgone
            · exact .some (hiff.mpr hfees)

/-- The sample externs give upgrades an event without a market. -/
theorem sampleExterns_unmarked : sampleExterns.UpgradesUnmarked := fun _ _ => rfl

/-- The opening at 1%, and a change of the base fee after it. -/
def sampleRepriced : List Action :=
  sampleOpening 100 1000 ++ [.call everybody (.setBaseFee 0)]

/-- The change publishes nothing of market 1 and charges nothing on it, so that its records agree. -/
theorem events_determine_sample :
    AgreeOn 1 (run (step sampleExterns) (genesis sampleBalances 0 0) (sampleOpening 100 1000))
      (run (step sampleExterns) (genesis sampleBalances 0 0) sampleRepriced) := by
  refine (events_determine_iff sampleExterns sampleExterns_unmarked sampleBalances sampleBalances 0 0 0 0
    (sampleOpening 100 1000) sampleRepriced 1 (by decide +kernel)).mpr (.inr fun o => ?_)
  unfold sampleRepriced
  rw [trace_concat, feesOn_concat]
  exact (add_zero _).symm

/-- Without a base fee and with one of 1%, the opening publishes the same
events of market 1, and stakes 1000 in the one run and 990 in the other. -/
theorem sampleOpening_events_same :
    eventsOf 1 (sampleRun (sampleOpening 0 1000)) = eventsOf 1 (sampleRun (sampleOpening 100 1000))
      ∧ ((sampleRun (sampleOpening 0 1000)).markets.market.lookup 1).map (·.totalStaked) = some 1000
      ∧ ((sampleRun (sampleOpening 100 1000)).markets.market.lookup 1).map (·.totalStaked)
        = some 990
      ∧ ¬AgreeOn 1 (sampleRun (sampleOpening 0 1000)) (sampleRun (sampleOpening 100 1000)) := by
  have hfree : ((sampleRun (sampleOpening 0 1000)).markets.market.lookup 1).map (·.totalStaked)
      = some 1000 := by decide +kernel
  have hcharged : ((sampleRun (sampleOpening 100 1000)).markets.market.lookup 1).map
      (·.totalStaked) = some 990 := by decide +kernel
  refine ⟨by decide +kernel, hfree, hcharged, ?_⟩
  intro hagree
  have hpool := hagree.totalStaked_eq
  rw [hfree, hcharged] at hpool
  cases hpool

end PredictIQ.Contract
