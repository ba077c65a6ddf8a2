/-
  PredictIQ.Safety.MarketBoard: the contract runs a betting house.

  A stored market with the bet records of its id is a pool; the registry and
  its counter are a board.  Every step of the contract is a step of the house
  under the signatures of the call, so what holds of every later board holds
  of the stored markets: terms, closed stakes and verdicts are never touched
  again, and an id is never given out twice.
-/
import PredictIQ.Safety.StakeConservation
import PredictIQ.Safety.WinnerCounts
import PredictIQ.Foundation.Parimutuel

namespace PredictIQ.Contract

open Foundation

variable {X : Externs}

/-! ## §1. The board of a world. -/

/-- What is agreed when a market is created. -/
structure Terms where
  creator : Address
  description : String
  options : List String
  deadline : Nat
  oracleConfig : OracleConfig
  payoutMode : PayoutMode
  tier : MarketTier
  parentId : Nat
  parentOutcomeIdx : Nat
  tokenAddress : Address

def Market.terms (m : Market) : Terms :=
  ⟨m.creator, m.description, m.options, m.deadline, m.oracleConfig, m.payoutMode, m.tier, m.parentId,
    m.parentOutcomeIdx, m.tokenAddress⟩

/-- Creators own their markets, which take bets on their options until the deadline. -/
def house : House Address Nat Terms where
  owner := Terms.creator
  closes := Terms.deadline
  offers := fun t o => o < t.options.length

/-- Where a market stands; a verdict is what `winning_outcome` holds. -/
def Market.phase (m : Market) : Phase (Option Nat) :=
  match m.status with
  | .active => .taking
  | .pendingResolution => .proposed m.winningOutcome
  | .disputed => .contested
  | .resolved => .settled m.winningOutcome
  | .cancelled => .void

/-- The net amount on record for a bettor and an outcome. -/
def stakeOf (s : BetStore) (k : Nat) (a : Address) (o : Nat) : Int := ((s.bet.lookup (k, a, o)).map (·.amount)).getD 0

def poolOf (s : BetStore) (k : Nat) (m : Market) : Pool Address Nat (Option Nat) Terms :=
  ⟨m.terms, m.phase, stakeOf s k⟩

def boardOf (w : World) : Board Address Nat (Option Nat) Terms where
  pool := fun k => (w.markets.market.lookup k).map (poolOf w.bets k)
  drawn := w.markets.lastId

theorem boardOf_pool {w : World} {k : Nat} {m : Market} (h : w.markets.market.lookup k = some m) :
    (boardOf w).pool k = some (poolOf w.bets k m) := by
  show (w.markets.market.lookup k).map _ = _
  rw [h]
  rfl

theorem boardOf_pool_none {w : World} {k : Nat} :
    (boardOf w).pool k = none ↔ w.markets.market.lookup k = none := Option.map_eq_none_iff

/-- Who signed a step. -/
def Action.signedBy : Action → Address → Prop
  | .call env _ => fun a => env.authorized a = true
  | _ => fun _ => False

/-! ## §2. What a call does to the board. -/

section Calls

variable {env : Env} {w w' : World} {c : Call}

/-- The board is a matter of the registry and the bet records. -/
theorem boardOf_congr (hmarkets : w'.markets = w.markets) (hbets : w'.bets = w.bets) : boardOf w' = boardOf w := by
  unfold boardOf
  rw [hmarkets, hbets]

/-- Rewriting one record rewrites one pool, as long as the bets on the others stay. -/
theorem boardOf_updateMarket {m : Market} (hmarkets : w'.markets = w.markets.updateMarket m)
    (hothers : ∀ k a o, k ≠ m.id → stakeOf w'.bets k a o = stakeOf w.bets k a o) :
    boardOf w' = (boardOf w).set m.id (some (poolOf w'.bets m.id m)) := by
  have hpool : ∀ k, (boardOf w').pool k = ((boardOf w).set m.id (some (poolOf w'.bets m.id m))).pool k := by
    intro k
    rw [Board.set_pool]
    show (w'.markets.market.lookup k).map _ = _
    rw [hmarkets, MarketStore.lookup_updateMarket]
    split
    · rename_i hk
      rw [hk]
      rfl
    · rename_i hk
      show _ = (w.markets.market.lookup k).map (poolOf w.bets k)
      have hstake : stakeOf w'.bets k = stakeOf w.bets k :=
        funext fun a => funext fun o => hothers k a o hk
      unfold poolOf
      rw [hstake]
  have hdrawn : (boardOf w').drawn = (boardOf w).drawn := by
    show w'.markets.lastId = w.markets.lastId
    rw [hmarkets]
    rfl
  show Board.mk (boardOf w').pool (boardOf w').drawn = Board.mk _ (boardOf w).drawn
  rw [hdrawn, funext hpool]
  rfl

/-- A lifecycle move is one way on, on the same terms. -/
theorem LifecycleMove.next {id : Nat} {f : LifecycleCall} {m m' : Market} (h : LifecycleMove X w id m f m') :
    m'.terms = m.terms ∧ m.phase.Next m'.phase := by
  -- what is neither resolved nor cancelled is running
  have hrun : m.status ≠ .resolved ∧ m.status ≠ .cancelled → m.phase.Running := by
    rintro ⟨hr, hc⟩
    unfold Market.phase
    cases hs : m.status with
    | resolved => exact absurd hs hr
    | cancelled => exact absurd hs hc
    | _ => trivial
  cases h with
  | answer outcome active =>
      refine ⟨rfl, ?_⟩
      simp only [Market.phase, active]
      exact .propose _
  | confirm t outcome pending =>
      refine ⟨rfl, ?_⟩
      simp only [Market.phase, pending]
      exact .confirm _
  | decide t outcome disputed =>
      refine ⟨rfl, ?_⟩
      simp only [Market.phase, disputed]
      exact .decide _
  | dispute t pending =>
      refine ⟨rfl, ?_⟩
      simp only [Market.phase, pending]
      exact .contest _
  | resolve outcome running => exact ⟨rfl, .rule _ _ (hrun running)⟩
  | cancel running => exact ⟨rfl, .call _ (hrun running)⟩
  | voteDown disputed =>
      refine ⟨rfl, ?_⟩
      simp only [Market.phase, disputed]
      exact .call _ trivial

/-- A bet adds its net amount to its own stake, and to no other. -/
theorem PlaceBetEffect.stakeOf_eq {b : BetParams} {m : Market} {fee : Int} (h : PlaceBetEffect env w b m fee w')
    (k : Nat) (a : Address) (o : Nat) : stakeOf w'.bets k a o
      = stakeOf w.bets k a o
        + if k = b.marketId ∧ a = b.bettor ∧ o = b.outcome then b.amount - fee else 0 := by
  unfold stakeOf
  rw [h.bet, Store.lookup_insert_eq]
  by_cases hkey : (k, a, o) = b.key
  · obtain ⟨rfl, hao⟩ := Prod.mk.inj hkey
    obtain ⟨rfl, rfl⟩ := Prod.mk.inj hao
    rw [if_pos hkey, if_pos ⟨rfl, rfl, rfl⟩]
    show (w.bets.existingBet b).amount + (b.amount - fee) = _
    unfold BetStore.existingBet
    show ((w.bets.bet.lookup b.key).getD _).amount + _ = ((w.bets.bet.lookup b.key).map _).getD 0 + _
    cases w.bets.bet.lookup b.key <;> rfl
  · have hne : ¬(k = b.marketId ∧ a = b.bettor ∧ o = b.outcome) := by
      rintro ⟨rfl, rfl, rfl⟩
      exact hkey rfl
    rw [if_neg hkey, if_neg hne, add_zero]

/-- A record rewritten on the same terms: its pool stays, or moves on. -/
theorem boardStep_of_update {signed : Address → Prop} {id : Nat} {m m' : Market}
    (lookup : w.markets.market.lookup id = some m) (hid : m'.id = id)
    (hmarkets : w'.markets = w.markets.updateMarket m') (hbets : w'.bets = w.bets) (hterms : m'.terms = m.terms)
    (hphase : m'.phase = m.phase ∨ m.phase.Next m'.phase) :
    Board.Step house signed w.timestamp (boardOf w) (boardOf w') := by
  have hboard := boardOf_updateMarket hmarkets fun _ _ _ _ => by rw [hbets]
  have hset : boardOf w' = (boardOf w).set id (some { poolOf w.bets id m with phase := m'.phase }) := by
    rw [hboard, hid, hbets]
    unfold poolOf
    rw [hterms]
  rw [hset]
  rcases hphase with hsame | hnext
  · -- nothing changed after all
    have hself : (boardOf w).set id (some { poolOf w.bets id m with phase := m'.phase }) = boardOf w := by
      show Board.mk _ _ = Board.mk _ _
      congr 1
      refine Function.update_eq_self_iff.mpr ?_
      rw [hsame]
      exact (boardOf_pool lookup).symm
    rw [hself]
    exact .idle _
  · exact .moved _ id _ m'.phase (boardOf_pool lookup) hnext

theorem Reachable.betsDrawn (h : Reachable X w) : BetsDrawn w := by
  obtain ⟨b, t, s, as, rfl⟩ := h
  intro key hkey
  obtain ⟨bet, hbet⟩ := Option.ne_none_iff_exists'.mp hkey
  exact (stakesConserved_run X b t s as).drawn key bet hbet

/-- Nothing is staked on the next id. -/
theorem BetsDrawn.stakeOf_next (h : BetsDrawn w) : stakeOf w.bets (w.markets.lastId + 1) = fun _ _ => 0 := by
  funext a o
  unfold stakeOf
  cases hbet : w.bets.bet.lookup (w.markets.lastId + 1, a, o) with
  | none => rfl
  | some bet =>
    have hle : w.markets.lastId + 1 ≤ w.markets.lastId :=
      h (w.markets.lastId + 1, a, o) (Option.ne_none_iff_exists'.mpr ⟨bet, hbet⟩)
    exact absurd hle (Nat.not_succ_le_self _)

/-- A creation opens a pool under the next number. -/
theorem CreateMarketEffect.opens {p : MarketParams} {id : Nat} (hdrawn : BetsDrawn w)
    (h : CreateMarketEffect env w p id w') :
    Board.Step house (fun a => env.authorized a = true) w.timestamp (boardOf w) (boardOf w') := by
  obtain ⟨window, hmarkets⟩ := h.markets
  have hbets : w'.bets = w.bets := by
    obtain ⟨_, _, _, hw⟩ := h.frame
    rw [hw]
  obtain rfl : id = w.markets.lastId + 1 := h.id_eq
  have hpool : (boardOf w').pool = Function.update (boardOf w).pool (w.markets.lastId + 1)
      (some ⟨(p.newMarket (w.markets.lastId + 1) (depositFor w p.creator)).terms, .taking, fun _ _ => 0⟩) := by
    funext k
    rw [Function.update_apply]
    show (w'.markets.market.lookup k).map _ = _
    rw [hmarkets, hbets, MarketStore.lookup_addMarket]
    split
    · rename_i hk
      change k = w.markets.lastId + 1 at hk
      rw [if_pos hk, hk]
      show some (Pool.mk _ _ (stakeOf w.bets (w.markets.lastId + 1))) = _
      rw [hdrawn.stakeOf_next]
      rfl
    · rename_i hk
      change ¬k = w.markets.lastId + 1 at hk
      rw [if_neg hk]
      rfl
  have hdrawn' : (boardOf w').drawn = (boardOf w).drawn + 1 := by
    show w'.markets.lastId = _
    rw [hmarkets]
    rfl
  have hboard : boardOf w' = Board.mk (boardOf w').pool (boardOf w').drawn := rfl
  rw [hboard, hpool, hdrawn']
  exact .opened _ _ h.auth h.future

/-- A bet is a stake, signed by the bettor and in time. -/
theorem PlaceBetEffect.stakes {b : BetParams} {m : Market} {fee : Int} (hreg : Registered w)
    (h : PlaceBetEffect env w b m fee w') :
    Board.Step house (fun a => env.authorized a = true) w.timestamp (boardOf w) (boardOf w') := by
  obtain ⟨counts, hmarkets⟩ := h.markets
  have hid : m.id = b.marketId := hreg.keyed _ m h.lookup
  have hboard := boardOf_updateMarket hmarkets (by
    intro k a o hk
    rw [h.stakeOf_eq, if_neg, add_zero]
    rintro ⟨rfl, _, _⟩
    exact hk hid.symm)
  have hpool : poolOf w'.bets b.marketId (m.staked b.outcome (b.amount - fee) counts)
      = (poolOf w.bets b.marketId m).staked b.bettor b.outcome (b.amount - fee) := by
    show Pool.mk m.terms m.phase (stakeOf w'.bets b.marketId) = Pool.mk m.terms m.phase _
    congr 1
    funext a o
    rw [h.stakeOf_eq]
    show _ = stakeOf w.bets b.marketId a o + _
    simp only [true_and]
  have hset : boardOf w' = (boardOf w).set b.marketId
      (some ((poolOf w.bets b.marketId m).staked b.bettor b.outcome (b.amount - fee))) := by
    rw [hboard, ← hpool, ← hid]
    rfl
  rw [hset]
  refine .staked _ _ _ b.bettor b.outcome (b.amount - fee) (boardOf_pool h.lookup) ?_ h.auth
    h.accepts.before_deadline h.accepts.outcome_lt
  show m.phase = .taking
  unfold Market.phase
  rw [h.accepts.active]

/-- **A successful call is a step of the house.** -/
theorem Effect.boardStep (hreg : Registered w) (hdrawn : BetsDrawn w) (h : Effect X env w c w') :
    Board.Step house (fun a => env.authorized a = true) w.timestamp (boardOf w) (boardOf w') := by
  -- a call that leaves the registry and the bets leaves the board
  have hidle : w'.markets = w.markets → w'.bets = w.bets →
      Board.Step house (fun a => env.authorized a = true) w.timestamp (boardOf w) (boardOf w') := by
    intro hmarkets hbets
    rw [boardOf_congr hmarkets hbets]
    exact .idle _
  cases h with
  | created _ p id _ hc effect => exact effect.opens hdrawn
  | bet b m fee _ effect => exact effect.stakes hreg
  | moved _ id f m m' br evs hc lookup move =>
      obtain ⟨hterms, hnext⟩ := move.next
      exact boardStep_of_update lookup (move.id_eq.trans (hreg.keyed id m lookup)) rfl rfl hterms (.inr hnext)
  | released id token m lookup =>
      -- the deposit is no part of the pool
      have hid : ({ m with creationDeposit := 0 } : Market).id = id := hreg.keyed id m lookup
      exact boardStep_of_update lookup hid rfl rfl rfl (.inl rfl)
  | pruned id m t ar evs lookup resolved =>
      have hboard : (boardOf { w with
          archive := ar
          voting := w.voting.prune id m.options.length
          markets := w.markets.removeMarket id
          events := evs }) = (boardOf w).set id none := by
        show Board.mk _ _ = Board.mk _ _
        congr 1
        funext k
        rw [Function.update_apply]
        show ((w.markets.removeMarket id).market.lookup k).map _ = _
        rw [MarketStore.lookup_removeMarket]
        split <;> rfl
      rw [hboard]
      refine .retired _ id _ m.winningOutcome (boardOf_pool lookup) ?_
      show m.phase = _
      unfold Market.phase
      rw [resolved]
  | voted voter id outcome weight m ledger br evs _ lookup disputed snapshot frame =>
      obtain ⟨_, _, _, _, rfl⟩ := frame
      exact hidle rfl rfl
  | _ => exact hidle rfl rfl

end Calls

/-! ## §3. Runs. -/

/-- A step from a reachable world is a step of the house. -/
theorem Reachable.boardStep {w : World} (hw : Reachable X w) (a : Action) :
    Board.Step house a.signedBy w.timestamp (boardOf w) (boardOf (step X w a)) := by
  cases a with
  | call env c =>
      rcases step_call_effect X env c w with h | h
      · rw [h]
        exact .idle _
      · exact h.boardStep hw.registered hw.betsDrawn
  | advance seconds ledgers => exact .idle _
  | external balances => exact .idle _

theorem Reachable.after {w : World} (hw : Reachable X w) (as : List Action) : Reachable X (run (step X) w as) := by
  obtain ⟨b, t, s, bs, rfl⟩ := hw
  exact ⟨b, t, s, bs ++ as, (run_append (step X) _ bs as).symm⟩

/-- **The contract refines the house.**  From an empty board, every step of every
run is a step of the house at the ledger's time, under the signatures of the
call: nothing, a pool opened by its owner under the next number, a stake signed
by its bettor before the deadline, a move to a next phase, or a settled pool
taken down. -/
theorem contract_refines_house (X : Externs) (b : Address → Address → Nat) (t s : Nat) (as : List Action) :
    boardOf (genesis b t s) = ⟨fun _ => none, 0⟩ ∧ ∀ tr ∈ trace (step X) (genesis b t s) as,
      Board.Step house tr.act.signedBy tr.pre.timestamp (boardOf tr.pre) (boardOf tr.post) := by
  refine ⟨rfl, ?_⟩
  intro tr htr
  obtain ⟨bs, cs, _, hpre, hpost⟩ := mem_trace (step X) htr
  rw [hpost]
  exact Reachable.boardStep ⟨b, t, s, bs, hpre⟩ tr.act

theorem Registered.board_fresh {w : World} (h : Registered w) : (boardOf w).Fresh := by
  intro k hk
  change w.markets.lastId < k at hk
  rw [boardOf_pool_none]
  by_contra hsome
  obtain ⟨m, hm⟩ := Option.ne_none_iff_exists'.mp hsome
  have hdrawn := (h.drawn k m hm).2
  omega

/-- A run only takes the board on. -/
theorem Reachable.board_later {w : World} (hw : Reachable X w) (as : List Action) :
    (boardOf w).Later (boardOf (run (step X) w as)) := by
  induction as using List.reverseRecOn with
  | nil => exact .refl _
  | append_singleton as a ih =>
      rw [run_concat]
      have hv := hw.after as
      exact ih.trans hw.registered.board_fresh ((hv.boardStep a).later hv.registered.board_fresh)

theorem Market.phase_taking {m : Market} : m.phase = .taking ↔ m.status = .active := by
  unfold Market.phase
  cases m.status <;> simp

theorem Market.phase_settled {m : Market} {v : Option Nat} :
    m.phase = .settled v ↔ m.status = .resolved ∧ m.winningOutcome = v := by
  unfold Market.phase
  cases m.status <;> simp

theorem Market.phase_void {m : Market} : m.phase = .void ↔ m.status = .cancelled := by
  unfold Market.phase
  cases m.status <;> simp

/-- A record as another run later: on the same terms, and with the same stakes
once it took no more bets. -/
structure StandsAs (w w' : World) (k : Nat) (m m' : Market) : Prop where
  terms : m'.terms = m.terms
  stakes : m.status ≠ .active → ∀ a o, stakeOf w'.bets k a o = stakeOf w.bets k a o
  verdict : m.status = .resolved → m'.status = .resolved ∧ m'.winningOutcome = m.winningOutcome
  cancelled : m.status = .cancelled → m'.status = .cancelled

/-- The records of a later board, read back. -/
theorem standsAs_of_later {w w' : World} {k : Nat} {m m' : Market} (h : (boardOf w).Later (boardOf w'))
    (hm : w.markets.market.lookup k = some m) (hm' : w'.markets.market.lookup k = some m') :
    StandsAs w w' k m m' := by
  have hlater := h.pool (boardOf_pool hm) (boardOf_pool hm')
  refine ⟨hlater.terms, ?_, ?_, ?_⟩
  · intro hclosed a o
    have hstake := hlater.stakes fun hphase => hclosed (Market.phase_taking.mp hphase)
    exact congrFun (congrFun hstake a) o
  · intro hresolved
    have hphase : m.phase = .settled m.winningOutcome := Market.phase_settled.mpr ⟨hresolved, rfl⟩
    have hsame : m'.phase = m.phase := hlater.phase.eq_of_ended (by
      show ¬m.phase.Running
      rw [hphase]
      exact id)
    exact Market.phase_settled.mp (hsame.trans hphase)
  · intro hcancelled
    have hphase : m.phase = .void := Market.phase_void.mpr hcancelled
    have hsame : m'.phase = m.phase := hlater.phase.eq_of_ended (by
      show ¬m.phase.Running
      rw [hphase]
      exact id)
    exact Market.phase_void.mp (hsame.trans hphase)

/-- **What was agreed stands.**  However a run goes on from a reachable world, a
market stored before and after has its terms, its stakes from the moment it
took no more bets, and its verdict or its cancellation; a cancelled market is
never taken down; and an id that was given out and is free is not given out
again. -/
theorem agreements_stand (X : Externs) (w : World) (hw : Reachable X w) (as : List Action) (k : Nat) :
    (∀ m m', w.markets.market.lookup k = some m →
        (run (step X) w as).markets.market.lookup k = some m' → StandsAs w (run (step X) w as) k m m')
      ∧ (∀ m, w.markets.market.lookup k = some m → m.status = .cancelled →
        (run (step X) w as).markets.market.lookup k ≠ none)
      ∧ (k ≤ w.markets.lastId → w.markets.market.lookup k = none →
        (run (step X) w as).markets.market.lookup k = none) := by
  have hlater := hw.board_later as
  refine ⟨fun m m' hm hm' => standsAs_of_later hlater hm hm', ?_, ?_⟩
  · intro m hm hcancelled hnone
    have hstays := hlater.void (boardOf_pool hm) (Market.phase_void.mpr hcancelled)
    rw [boardOf_pool_none.mpr hnone] at hstays
    cases hstays
  · intro hk hnone
    exact boardOf_pool_none.mp (hlater.unused k hk (boardOf_pool_none.mpr hnone))

/-- Account 3 bets on market 1, which is then cancelled; resolving it later does nothing. -/
def sampleCancelled : List Action := sampleOpening 100 1000 ++ [.call everybody (.cancelMarketAdmin 1)]

theorem agreements_stand_cancelled :
    let w := sampleRun sampleCancelled
    let w' := run (step sampleExterns) w [.call everybody (.resolveMarket 1 0)]
    (∃ m m', w.markets.market.lookup 1 = some m ∧ m.status = .cancelled ∧ StandsAs w w' 1 m m')
      ∧ w'.markets.market.lookup 1 ≠ none ∧ w'.markets.market.lookup 0 = none := by
  intro w w'
  have hreach : Reachable sampleExterns w := sampleRun_reachable _
  have hbefore : (w.markets.market.lookup 1).map (·.status) = some .cancelled := by decide
  have hafter : (w'.markets.market.lookup 1).isSome = true := by decide
  obtain ⟨m, hm, hstatus⟩ := Option.map_eq_some_iff.mp hbefore
  obtain ⟨m', hm'⟩ := Option.isSome_iff_exists.mp hafter
  refine ⟨⟨m, m', hm, hstatus, ?_⟩, ?_, ?_⟩
  · exact (agreements_stand sampleExterns w hreach [.call everybody (.resolveMarket 1 0)] 1).1 m m' hm hm'
  · exact (agreements_stand sampleExterns w hreach [.call everybody (.resolveMarket 1 0)] 1).2.1 m hm hstatus
  · exact (agreements_stand sampleExterns w hreach [.call everybody (.resolveMarket 1 0)] 0).2.2 (Nat.zero_le _) rfl

end PredictIQ.Contract
