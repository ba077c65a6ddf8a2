/-
  PredictIQ.Safety.StakeConservation: the pool, the stakes and the bet records
  of a market agree, and account for every token that was bet on it.

  The invariant has two halves.  `BookKept` ties a market record to the bet
  records of its id.  The other half ties those to the history: what the bet
  records of a market hold, fees included, is what the `place_bet` calls on
  it brought in.
-/
import PredictIQ.Contract.Lifecycle

namespace PredictIQ.Contract

open Foundation

variable {X : Externs}

/-! ## §1. The books. -/

/-- The net amounts of all bet records of market `k` on outcome `o`. -/
def stakedOn (s : BetStore) (k o : Nat) : Int :=
  Store.total (fun key bet => if key.1 = k ∧ key.2.2 = o then bet.amount else 0) s.bet

/-- Net amounts and fees over all bet records of market `k`. -/
def paidInto (s : BetStore) (k : Nat) : Int :=
  Store.total (fun key bet => if key.1 = k then bet.amount + bet.feePaid else 0) s.bet

/-- The sum of the values of `outcome_stakes`. -/
def stakesTotal (stakes : Store Nat Int) : Int := Store.total (fun _ x => x) stakes

/-- The record of market `k` agrees with the bet records. -/
structure BookKept (s : BetStore) (k : Nat) (m : Market) : Prop where
  keys : ∀ o, m.outcomeStakes.lookup o ≠ none → o < m.options.length
  stakes : ∀ o, getOutcomeStake m o = stakedOn s k o
  pool : m.totalStaked = stakesTotal m.outcomeStakes

/-! ## §2. What the history brought in. -/

/-- The amount of `token` that a list of transfers brings to the contract. -/
def received (token : Address) (xs : List Transfer) : Int :=
  ((xs.filter fun x => x.token = token ∧ x.payee = currentContractAddress).map (·.amount)).sum

/-- What a step brings in, in `token`, if it is a bet on market `k`. -/
def betInflow (k : Nat) (token : Address) (t : Transition World Action) : Int :=
  match t.act with
  | .call _ (.placeBet b) => if b.marketId = k then received token (newTransfers t) else 0
  | _ => 0

/-- What `place_bet` has transferred in for market `k`, in `token`. -/
def transferredIn (k : Nat) (token : Address) (history : List (Transition World Action)) : Int :=
  (history.map (betInflow k token)).sum

theorem transferredIn_concat (k : Nat) (token : Address)
    (history : List (Transition World Action)) (t : Transition World Action) :
    transferredIn k token (history ++ [t]) = transferredIn k token history + betInflow k token t := by
  simp [transferredIn]

/-- A step that changes nothing brings nothing in. -/
theorem betInflow_of_same {k : Nat} {token : Address} {t : Transition World Action}
    (h : t.post = t.pre) : betInflow k token t = 0 := by
  unfold betInflow
  rw [newTransfers_of_same h]
  split
  · split <;> rfl
  · rfl

/-- A bet brings in its amount, in the token of its market. -/
theorem betInflow_of_bet {env : Env} {w w' : World} {b : BetParams} {m : Market} {fee : Int}
    (h : PlaceBetEffect env w b m fee w') (k : Nat) (token : Address) :
    betInflow k token ⟨w, .call env (.placeBet b), w'⟩
      = if b.marketId = k ∧ b.tokenAddress = token then b.amount else 0 := by
  have hnew := h.newTransfers_eq (.call env (.placeBet b))
  -- the one new transfer is the payment, and its payee the contract
  simp only [betInflow, hnew, received, BetParams.payment]
  by_cases hk : b.marketId = k <;> by_cases ht : b.tokenAddress = token <;> simp [hk, ht]

/-- Other steps bring nothing in. -/
theorem betInflow_of_not_bet {k : Nat} {token : Address} {env : Env} {c : Call} {w w' : World}
    (h : ∀ b, c ≠ .placeBet b) : betInflow k token ⟨w, .call env c, w'⟩ = 0 := by
  cases c with
  | placeBet b => exact absurd rfl (h b)
  | _ => rfl

/-! ## §3. One bet. -/

section Bet

variable {env : Env} {w w' : World} {b : BetParams} {m : Market} {fee : Int}

/-- A bet adds its net amount to the stakes on its outcome, and nowhere else. -/
theorem PlaceBetEffect.stakedOn (h : PlaceBetEffect env w b m fee w') (k o : Nat) :
    stakedOn w'.bets k o
      = stakedOn w.bets k o
        + if b.marketId = k ∧ b.outcome = o then b.amount - fee else 0 := by
  unfold PredictIQ.Contract.stakedOn
  rw [h.bet, Store.total_insert_getD _ _ _ _
    { marketId := b.marketId, bettor := b.bettor, outcome := b.outcome, amount := 0, feePaid := 0 }
    (by simp)]
  show _ - (if b.marketId = k ∧ b.outcome = o then (w.bets.existingBet b).amount else 0)
    + (if b.marketId = k ∧ b.outcome = o then
        (w.bets.existingBet b).amount + (b.amount - fee) else 0) = _
  by_cases hc : b.marketId = k ∧ b.outcome = o
  · simp only [if_pos hc]
    omega
  · simp only [if_neg hc]
    omega

/-- A bet adds its whole amount to what was paid into its market. -/
theorem PlaceBetEffect.paidInto (h : PlaceBetEffect env w b m fee w') (k : Nat) :
    paidInto w'.bets k = paidInto w.bets k + if b.marketId = k then b.amount else 0 := by
  unfold PredictIQ.Contract.paidInto
  rw [h.bet, Store.total_insert_getD _ _ _ _
    { marketId := b.marketId, bettor := b.bettor, outcome := b.outcome, amount := 0, feePaid := 0 }
    (by simp)]
  show _ - (if b.marketId = k then
        (w.bets.existingBet b).amount + (w.bets.existingBet b).feePaid else 0)
    + (if b.marketId = k then (w.bets.existingBet b).amount + (b.amount - fee)
        + ((w.bets.existingBet b).feePaid + fee) else 0) = _
  by_cases hc : b.marketId = k
  · simp only [if_pos hc]
    omega
  · simp only [if_neg hc]
    omega

/-- Staking on an outcome keeps the keys below the options and the pool equal
to the sum of the stakes. -/
theorem BookKept.staked {s s' : BetStore} {k : Nat} {o : Nat} {net : Int} {counts : Store Nat Nat}
    (h : BookKept s k m) (ho : o < m.options.length)
    (hs : ∀ o', stakedOn s' k o' = stakedOn s k o' + if o = o' then net else 0) :
    BookKept s' k (m.staked o net counts) := by
  refine ⟨?_, ?_, ?_⟩
  · intro o' ho'
    change (m.outcomeStakes.insert o _).lookup o' ≠ none at ho'
    rw [Store.lookup_insert_eq] at ho'
    split at ho'
    · subst o'
      exact ho
    · exact h.keys o' ho'
  · intro o'
    show ((m.outcomeStakes.insert o (getOutcomeStake m o + net)).lookup o').getD 0 = _
    -- the stake under `o` goes up by `net`, the others keep theirs
    rw [hs, ← h.stakes o', Store.lookup_insert_eq]
    by_cases heq : o' = o
    · subst heq
      rw [if_pos rfl, if_pos rfl]
      rfl
    · rw [if_neg heq, if_neg (fun h => heq h.symm), add_zero]
      rfl
  · show m.totalStaked + net = stakesTotal (m.outcomeStakes.insert o (getOutcomeStake m o + net))
    -- pool and sum of stakes go up by the same `net`
    have hpool := h.pool
    unfold stakesTotal at hpool ⊢
    rw [Store.total_insert_getD _ _ _ _ 0 rfl]
    show _ = _ - getOutcomeStake m o + (getOutcomeStake m o + net)
    omega

end Bet

/-! ## §4. One call. -/

/-- The invariant: the books of every stored market are kept, its bet records
hold what was transferred in, and nothing was bet on ids not yet given out. -/
structure StakesConserved (history : List (Transition World Action)) (w : World) : Prop where
  registered : Registered w
  drawn : ∀ key bet, w.bets.bet.lookup key = some bet → key.1 ≤ w.markets.lastId
  kept : ∀ k m, w.markets.market.lookup k = some m → BookKept w.bets k m
  inflow : ∀ k m, w.markets.market.lookup k = some m →
    paidInto w.bets k = transferredIn k m.tokenAddress history
  fresh : ∀ k token, w.markets.lastId < k → transferredIn k token history = 0

/-- Nothing is staked on an id that was not given out. -/
theorem stakedOn_fresh {w : World} {k : Nat} (hk : w.markets.lastId < k)
    (h : ∀ key bet, w.bets.bet.lookup key = some bet → key.1 ≤ w.markets.lastId) (o : Nat) :
    stakedOn w.bets k o = 0 := by
  refine Store.total_eq_zero fun key bet hbet => if_neg ?_
  intro hkey
  have := h key bet hbet
  omega

theorem paidInto_fresh {w : World} {k : Nat} (hk : w.markets.lastId < k)
    (h : ∀ key bet, w.bets.bet.lookup key = some bet → key.1 ≤ w.markets.lastId) :
    paidInto w.bets k = 0 := by
  refine Store.total_eq_zero fun key bet hbet => if_neg ?_
  intro hkey
  have := h key bet hbet
  omega

/-- A new market has empty books. -/
theorem BookKept.newMarket {w : World} {k : Nat} (hk : w.markets.lastId < k)
    (h : ∀ key bet, w.bets.bet.lookup key = some bet → key.1 ≤ w.markets.lastId)
    (p : MarketParams) (deposit : Int) : BookKept w.bets k (p.newMarket k deposit) := by
  refine ⟨fun o ho => absurd rfl ho, ?_, rfl⟩
  intro o
  rw [stakedOn_fresh hk h]
  rfl

/-- What a change of a record other than by a bet leaves of the books. -/
theorem MarketChange.books {w : World} {k : Nat} {c : Call} {o : Option Market} {m' : Market}
    (h : MarketChange X w k c o (some m')) (hc : ∀ b, c ≠ .placeBet b) :
    (∃ m, o = some m ∧ m'.tokenAddress = m.tokenAddress ∧
        ∀ s, BookKept s k m → BookKept s k m') ∨
      (w.markets.lastId < k ∧ ∃ p deposit, m' = MarketParams.newMarket p k deposit) := by
  cases h with
  | same => exact Or.inl ⟨m', rfl, rfl, fun _ h => h⟩
  | created _ p hc next => exact Or.inr ⟨by omega, p, _, rfl⟩
  | bet b => exact absurd rfl (hc b)
  | moved _ _ m _ _ move =>
      obtain ⟨_, _, _, _, _, _, rfl⟩ := move.frame
      exact Or.inl ⟨m, rfl, rfl, fun _ h => ⟨h.keys, h.stakes, h.pool⟩⟩
  | released token m => exact Or.inl ⟨m, rfl, rfl, fun _ h => ⟨h.keys, h.stakes, h.pool⟩⟩

/-- A call that is not a bet. -/
theorem StakesConserved.other {env : Env} {w w' : World} {c : Call}
    {history : List (Transition World Action)} (h : StakesConserved history w)
    (heff : Effect X env w c w') (hc : ∀ b, c ≠ .placeBet b) (hbets : w'.bets = w.bets) :
    StakesConserved (history ++ [⟨w, .call env c, w'⟩]) w' := by
  have hin : ∀ k token, transferredIn k token (history ++ [⟨w, .call env c, w'⟩])
      = transferredIn k token history := by
    intro k token
    rw [transferredIn_concat, betInflow_of_not_bet hc, add_zero]
  -- the record of `k` is an old one with its books kept, or a new one
  have hlast := heff.lastId_le
  refine ⟨heff.registered h.registered, ?_, ?_, ?_, ?_⟩
  · intro key bet hbet
    rw [hbets] at hbet
    exact (h.drawn key bet hbet).trans hlast
  · intro k m' hm'
    have hchange := heff.marketChange h.registered k
    rw [hm'] at hchange
    rw [hbets]
    rcases hchange.books hc with ⟨m, hm, _, hkeep⟩ | ⟨hk, p, deposit, rfl⟩
    · exact hkeep _ (h.kept k m hm)
    · exact .newMarket hk h.drawn p deposit
  · intro k m' hm'
    have hchange := heff.marketChange h.registered k
    rw [hm'] at hchange
    rw [hbets, hin]
    rcases hchange.books hc with ⟨m, hm, htoken, _⟩ | ⟨hk, p, deposit, rfl⟩
    · rw [htoken]
      exact h.inflow k m hm
    · rw [paidInto_fresh hk h.drawn, h.fresh k _ hk]
  · intro k token hk
    rw [hin]
    exact h.fresh k token (by omega)

/-- A bet. -/
theorem StakesConserved.bet {env : Env} {w w' : World} {b : BetParams} {m : Market} {fee : Int}
    {history : List (Transition World Action)} (h : StakesConserved history w)
    (hbet : PlaceBetEffect env w b m fee w') :
    StakesConserved (history ++ [⟨w, .call env (.placeBet b), w'⟩]) w' := by
  -- the registry does not depend on what the externs are
  have hreg : Registered w' := (Effect.bet (X := sampleExterns) b m fee w' hbet).registered h.registered
  obtain ⟨counts, hmarkets⟩ := hbet.markets
  have hid : m.id = b.marketId := h.registered.keyed _ m hbet.lookup
  have hbound : b.marketId ≤ w.markets.lastId := (h.registered.drawn _ m hbet.lookup).2
  have hlast : w'.markets.lastId = w.markets.lastId := by rw [hmarkets]; rfl
  -- the record under each id: the market's own is staked on, the others stay
  have hlookup : ∀ k, w'.markets.market.lookup k
      = if k = b.marketId then some (m.staked b.outcome (b.amount - fee) counts)
        else w.markets.market.lookup k := by
    intro k
    rw [hmarkets, MarketStore.lookup_updateMarket]
    show (if k = m.id then _ else _) = _
    rw [hid]
  have hin : ∀ k token, transferredIn k token (history ++ [⟨w, .call env (.placeBet b), w'⟩])
      = transferredIn k token history
        + if b.marketId = k ∧ b.tokenAddress = token then b.amount else 0 := by
    intro k token
    rw [transferredIn_concat, betInflow_of_bet hbet]
  refine ⟨hreg, ?_, ?_, ?_, ?_⟩
  · intro key bet hkey
    rw [hbet.bet, Store.lookup_insert_eq] at hkey
    rw [hlast]
    split at hkey
    · subst key
      exact hbound
    · exact h.drawn key bet hkey
  · intro k m' hm'
    rw [hlookup] at hm'
    split at hm'
    · -- the market that was bet on
      obtain rfl := Option.some.inj hm'
      subst k
      refine (h.kept _ m hbet.lookup).staked hbet.accepts.outcome_lt ?_
      intro o
      rw [hbet.stakedOn]
      simp
    · -- a market that was not
      rename_i hk
      have hold := h.kept k m' hm'
      refine ⟨hold.keys, ?_, hold.pool⟩
      intro o
      rw [hbet.stakedOn, if_neg (fun h => hk h.1.symm), add_zero]
      exact hold.stakes o
  · intro k m' hm'
    rw [hlookup] at hm'
    rw [hin, hbet.paidInto]
    split at hm'
    · obtain rfl := Option.some.inj hm'
      subst k
      -- the bet is in the market's own token, so all of it counts
      rw [h.inflow _ m hbet.lookup, if_pos rfl, if_pos ⟨rfl, hbet.accepts.token⟩]
      rfl
    · rename_i hk
      rw [if_neg (fun h => hk h.symm), if_neg (fun h => hk h.1.symm), add_zero, add_zero]
      exact h.inflow k m' hm'
  · intro k token hk
    rw [hin, h.fresh k token (by omega), if_neg (fun h => by omega)]
    rfl

/-- A step that is no successful call. -/
theorem StakesConserved.idle {w w' : World} {a : Action}
    {history : List (Transition World Action)} (h : StakesConserved history w)
    (hidle : IdleStep w a w') : StakesConserved (history ++ [⟨w, a, w'⟩]) w' := by
  -- a failed bet leaves the transfers as they were
  have hflow : ∀ k token, betInflow k token ⟨w, a, w'⟩ = 0 := by
    intro k token
    cases hidle with
    | failed => exact betInflow_of_same rfl
    | advanced => rfl
    | moved => rfl
  have hin : ∀ k token, transferredIn k token (history ++ [⟨w, a, w'⟩])
      = transferredIn k token history := by
    intro k token
    rw [transferredIn_concat, hflow, add_zero]
  obtain ⟨_, _, _, rfl⟩ := hidle.frame
  refine ⟨h.registered.of_markets rfl, h.drawn, h.kept, ?_, ?_⟩
  · intro k m hm
    rw [hin]
    exact h.inflow k m hm
  · intro k token hk
    rw [hin]
    exact h.fresh k token hk

/-! ## §5. Runs. -/

theorem stakesConserved_run (X : Externs) (b : Address → Address → Nat) (t s : Nat)
    (as : List Action) :
    StakesConserved (trace (step X) (genesis b t s) as) (run (step X) (genesis b t s) as) := by
  have h0 : StakesConserved [] (genesis b t s) :=
    ⟨.genesis b t s, fun key bet hbet => (by cases hbet), fun k m hm => (by cases hm),
      fun k m hm => (by cases hm), fun k token hk => rfl⟩
  refine history_call_invariant StakesConserved h0 ?_ (fun hI hidle => hI.idle hidle) as
  intro history v env c v' hI hsucc
  rcases hsucc.effect.bets with ⟨b, m, fee, rfl, hbet⟩ | ⟨hc, hbets⟩
  · exact hI.bet hbet
  · exact hI.other hsucc.effect hc hbets

/-- **Stake conservation**: after every run, every stored market has its stake
keys below its options, each stake equal to the bet records on its outcome, a
pool equal to the sum of its stakes, and bet records that hold, fees included,
exactly what `place_bet` transferred in for it. -/
theorem stake_conservation (X : Externs) (b : Address → Address → Nat) (t s : Nat)
    (as : List Action) (k : Nat) (m : Market)
    (hm : (run (step X) (genesis b t s) as).markets.market.lookup k = some m) :
    (∀ o, m.outcomeStakes.lookup o ≠ none → o < m.options.length)
      ∧ (∀ o, getOutcomeStake m o = stakedOn (run (step X) (genesis b t s) as).bets k o)
      ∧ m.totalStaked = stakesTotal m.outcomeStakes
      ∧ paidInto (run (step X) (genesis b t s) as).bets k
          = transferredIn k m.tokenAddress (trace (step X) (genesis b t s) as) := by
  have h := stakesConserved_run X b t s as
  have hkept := h.kept k m hm
  exact ⟨hkept.keys, hkept.stakes, hkept.pool, h.inflow k m hm⟩

/-- The sample market after one bet of 1000 at 1%. -/
theorem stake_conservation_sample :
    ∃ m, (sampleRun (sampleOpening 100 1000)).markets.market.lookup 1 = some m
      ∧ paidInto (sampleRun (sampleOpening 100 1000)).bets 1
        = transferredIn 1 m.tokenAddress
            (trace (step sampleExterns) sampleGenesis (sampleOpening 100 1000)) :=
  ⟨_, rfl, (stake_conservation sampleExterns sampleBalances 0 0 (sampleOpening 100 1000) 1 _
    rfl).2.2.2⟩

/-- Both sides are the thousand that was bet, 990 of it staked. -/
example : paidInto (sampleRun (sampleOpening 100 1000)).bets 1 = 1000
    ∧ stakedOn (sampleRun (sampleOpening 100 1000)).bets 1 0 = 990 := by decide

end PredictIQ.Contract
