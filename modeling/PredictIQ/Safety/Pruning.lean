/-
  PredictIQ.Safety.Pruning: what does pruning destroy?

  `prune_market` looks at the status and the clock.  It does not look at the
  creation deposit, at the locked voting tokens or at the winning bets, and a
  record once removed never comes back.  Nothing was owed at that moment
  exactly when the deposit had been released before and nobody had a positive
  stake left on the winning outcome; no voting tokens are ever locked.
-/
import PredictIQ.Safety.CreationDeposit

namespace PredictIQ.Contract

open Foundation Tx

variable {X : Externs}

/-! ## §1. Obligations. -/

/-- The contract owes nothing on market `k`: no deposit, no locked voting tokens,
no winning bet. -/
structure NoObligation (w : World) (k : Nat) : Prop where
  deposit : ∀ m, w.markets.market.lookup k = some m → m.creationDeposit = 0
  locks : ∀ voter, (w.voting.lockedBalance.lookup (k, voter)).getD 0 = 0
  winners : ∀ m o, w.markets.market.lookup k = some m → m.winningOutcome = some o →
    ∀ bettor bet, w.bets.bet.lookup (k, bettor, o) = some bet → bet.amount ≤ 0

/-- What a step stakes under `key`, net of the fee, if it is a bet that went
through. -/
def betNet (key : Nat × Address × Nat) (t : Transition World Action) : Int :=
  match t.act with
  | .call _ (.placeBet b) =>
      if b.key = key ∧ newTransfers t ≠ [] then b.amount - feeCharged t.pre b else 0
  | _ => 0

/-- What was staked under `key` in a history. -/
def netStaked (key : Nat × Address × Nat) (history : List (Transition World Action)) : Int :=
  (history.map (betNet key)).sum

/-- Market `k` is settled: the deposit it was created with was paid back, and no
bettor's stake on the winning outcome is positive. -/
structure Settled (k : Nat) (history : List (Transition World Action)) (w : World) : Prop where
  deposit : ∀ m₀, createdAs k history = some m₀ → paidBack k history = m₀.creationDeposit
  winners : ∀ m o, w.markets.market.lookup k = some m → m.winningOutcome = some o →
    ∀ bettor, netStaked (k, bettor, o) history ≤ 0

/-! ## §2. Bet records are the history's stakes. -/

/-- The amount under `key`, 0 when there is no record. -/
def betAmount (s : BetStore) (key : Nat × Address × Nat) : Int :=
  (s.bet.lookup key).elim 0 (·.amount)

theorem netStaked_concat (key : Nat × Address × Nat) (history : List (Transition World Action))
    (t : Transition World Action) :
    netStaked key (history ++ [t]) = netStaked key history + betNet key t := by
  simp [netStaked]

theorem betNet_of_same {key : Nat × Address × Nat} {t : Transition World Action}
    (h : t.post = t.pre) : betNet key t = 0 := by
  unfold betNet
  split
  · exact if_neg fun hc => hc.2 (newTransfers_of_same h)
  · rfl

theorem betNet_of_not_bet {key : Nat × Address × Nat} {env : Env} {c : Call} {w w' : World}
    (h : ∀ b, c ≠ .placeBet b) : betNet key ⟨w, .call env c, w'⟩ = 0 := by
  cases c with
  | placeBet b => exact absurd rfl (h b)
  | _ => rfl

theorem betNet_of_bet {env : Env} {w w' : World} {b : BetParams} {m : Market} {fee : Int}
    (h : PlaceBetEffect env w b m fee w') (key : Nat × Address × Nat) :
    betNet key ⟨w, .call env (.placeBet b), w'⟩ = if b.key = key then b.amount - fee else 0 := by
  have hnew := h.newTransfers_eq (.call env (.placeBet b))
  simp [betNet, hnew, h.feeCharged_eq]

/-- A bet adds its net amount to the record under its key. -/
theorem PlaceBetEffect.betAmount {env : Env} {w w' : World} {b : BetParams} {m : Market}
    {fee : Int} (h : PlaceBetEffect env w b m fee w') (key : Nat × Address × Nat) :
    betAmount w'.bets key
      = betAmount w.bets key + if b.key = key then b.amount - fee else 0 := by
  unfold PredictIQ.Contract.betAmount
  rw [h.bet, Store.lookup_insert_eq]
  -- a first bet starts from an empty record
  by_cases hkey : b.key = key
  · subst hkey
    rw [if_pos rfl, if_pos rfl]
    show (w.bets.existingBet b).amount + _ = _
    unfold BetStore.existingBet
    cases w.bets.bet.lookup b.key <;> rfl
  · rw [if_neg (fun h => hkey h.symm), if_neg hkey, add_zero]

/-- The records hold what was staked. -/
theorem betAmount_run (X : Externs) (b : Address → Address → Nat) (t s : Nat)
    (as : List Action) (key : Nat × Address × Nat) :
    betAmount (run (step X) (genesis b t s) as).bets key
      = netStaked key (trace (step X) (genesis b t s) as) := by
  refine history_call_invariant (fun history w => betAmount w.bets key = netStaked key history)
    rfl ?_ ?_ as
  · intro history v env c v' hI hsucc
    rw [netStaked_concat, ← hI]
    rcases hsucc.effect.bets with ⟨b, m, fee, rfl, hbet⟩ | ⟨hc, hbets⟩
    · rw [hbet.betAmount, betNet_of_bet hbet]
    · rw [hbets, betNet_of_not_bet hc, add_zero]
  · intro history v a v' hI hidle
    have hnet : betNet key ⟨v, a, v'⟩ = 0 := by
      cases hidle with
      | failed => exact betNet_of_same rfl
      | advanced => rfl
      | moved => rfl
    rw [netStaked_concat, hnet, add_zero, ← hI]
    obtain ⟨_, _, _, rfl⟩ := hidle.frame
    rfl

/-! ## §3. Pruning. -/

/-- A stored deposit is zero exactly when it was paid back. -/
theorem DepositState.settled_iff {m₀ m : Market} {xs : List Transfer}
    (h : DepositState m₀ xs (some m)) :
    m.creationDeposit = 0 ↔ (xs.map (·.amount)).sum = m₀.creationDeposit := by
  -- either nothing was paid, or all of it and the record holds 0
  rw [h.stored m rfl]
  rcases h.paid with rfl | ⟨hpos, token, rfl⟩
  · rw [if_pos rfl]
    exact eq_comm
  · simp

/-- **Nothing is owed on a market exactly when it is settled**, in every state
in which it can be pruned. -/
theorem prune_no_obligation_iff (X : Externs) (b : Address → Address → Nat) (t s : Nat)
    (as : List Action) (k : Nat) (env : Env) (w' : World)
    (hprune : Succeeds X env (.pruneMarket k) (run (step X) (genesis b t s) as) w') :
    NoObligation (run (step X) (genesis b t s) as) k ↔
      Settled k (trace (step X) (genesis b t s) as) (run (step X) (genesis b t s) as) := by
  have hledger := depositLedger_run X b t s as k
  have hbets := fun bettor o => betAmount_run X b t s as (k, bettor, o)
  have hvoting := (Reachable.noSnapshots ⟨b, t, s, as, rfl⟩ : NoSnapshots (run (step X) _ as)).voting
  obtain ⟨r, hr⟩ := hprune
  obtain ⟨hr, _⟩ := done_eq_ok.mp hr
  obtain ⟨m, _, _, hm, _⟩ := pruneMarket_ok hr
  generalize run (step X) (genesis b t s) as = w at *
  generalize trace (step X) (genesis b t s) as = history at *
  constructor
  · intro h
    refine ⟨?_, ?_⟩
    · intro m₀ hm₀
      have hstate := hledger.seen m₀ hm₀
      rw [hm] at hstate
      exact hstate.settled_iff.mp (h.deposit m hm)
    · intro m' o hm' ho bettor
      rw [← hbets]
      -- no record counts as nothing staked
      unfold betAmount
      cases hbet : w.bets.bet.lookup (k, bettor, o) with
      | none => exact le_refl 0
      | some bet => exact h.winners m' o hm' ho bettor bet hbet
  · intro h
    refine ⟨?_, ?_, ?_⟩
    · intro m' hm'
      -- a stored market was seen when it was created
      obtain ⟨m₀, hm₀⟩ : ∃ m₀, createdAs k history = some m₀ := by
        refine Option.ne_none_iff_exists'.mp ?_
        intro hnone
        rw [(hledger.unseen hnone).1] at hm
        cases hm
      have hstate := hledger.seen m₀ hm₀
      rw [hm'] at hstate
      exact hstate.settled_iff.mpr (h.deposit m₀ hm₀)
    · -- nobody ever got to lock voting tokens
      intro voter
      rw [hvoting]
      rfl
    · intro m' o hm' ho bettor bet hbet
      have hle := h.winners m' o hm' ho bettor
      rw [← hbets] at hle
      unfold betAmount at hle
      rw [hbet] at hle
      exact hle

/-- **A pruned market never comes back**, and with it the way to its deposit. -/
theorem pruned_forever (X : Externs) {w w' : World} {env : Env} {k : Nat} (hreg : Registered w)
    (hprune : Succeeds X env (.pruneMarket k) w w') (as : List Action) :
    (run (step X) w' as).markets.market.lookup k = none := by
  have hreg' := hprune.effect.registered hreg
  obtain ⟨r, hr⟩ := hprune
  obtain ⟨hr, _⟩ := done_eq_ok.mp hr
  obtain ⟨m, _, _, hm, _, _, _, rfl⟩ := pruneMarket_ok hr
  let I : World → Prop := fun v => k ≤ v.markets.lastId ∧ v.markets.market.lookup k = none
  have hnone : (w.markets.removeMarket k).market.lookup k = none := by
    rw [MarketStore.lookup_removeMarket, if_pos rfl]
  refine (registered_run_invariant I (fun _ => True) hreg' ⟨(hreg.drawn k m hm).2, hnone⟩ ?_
    (fun _ _ _ hI => hI) (fun _ _ hI => hI) as fun _ _ => trivial).2
  intro v env c v' hv h _ hsucc
  obtain ⟨hle, hnone⟩ := h
  have heff := hsucc.effect
  have hchange := heff.marketChange hv k
  refine ⟨hle.trans heff.lastId_le, ?_⟩
  rw [hnone] at hchange
  generalize v'.markets.market.lookup k = o at hchange
  cases hchange with
  | same => rfl
  | created _ p _ next =>
      -- creation draws an id that was never given out
      omega

/-- A market resolved to its first outcome, thirty days ago. -/
def samplePrunable (deposit : Int) (bets : List BetParams) : List Action :=
  [.call everybody (.initializeContract ⟨1⟩ 0),
    .call everybody (.setCreationDeposit deposit),
    .call everybody (.createMarket (sampleMarket ⟨2⟩ ⟨10⟩))]
  ++ bets.map (fun b => .call everybody (.placeBet b))
  ++ [.call everybody (.resolveMarket 1 0), .advance 2592000 500000]

/-- The deposit of 500 is paid back; the one bet was on the other outcome. -/
def sampleReleased : List Action :=
  samplePrunable 500 [sampleBet ⟨3⟩ ⟨10⟩ 1 1 1000] ++ [.call everybody (.releaseCreationDeposit 1 ⟨10⟩)]

/-- Pruning it now destroys nothing. -/
theorem prune_no_obligation_sample : NoObligation (sampleRun sampleReleased) 1 := by
  refine (prune_no_obligation_iff sampleExterns sampleBalances 0 0 sampleReleased 1 everybody _ ⟨.unit, rfl⟩).mpr
    ⟨?_, ?_⟩
  · intro m₀ hm₀
    obtain rfl := Option.some.inj hm₀
    rfl
  · intro m o hm ho bettor
    obtain rfl := Option.some.inj hm
    obtain rfl : 0 = o := Option.some.inj ho
    refine le_of_eq (List.sum_eq_zero ?_)
    intro x hx
    obtain ⟨t, ht, rfl⟩ := List.mem_map.mp hx
    have hact := act_mem_of_mem_trace (step sampleExterns) ht
    simp only [sampleReleased, samplePrunable, List.map_cons, List.map_nil, List.cons_append, List.nil_append,
      List.mem_cons, List.not_mem_nil, or_false] at hact
    unfold betNet
    rcases hact with h | h | h | h | h | h | h <;> rw [h]
    -- the bet is under the key of the other outcome
    refine if_neg fun hkey => ?_
    cases hkey.1

/-- **Pruning goes through over a deposit of 500, and over a winning bet of 1000.** -/
theorem samplePrunable_destroys :
    ((∃ w', Succeeds sampleExterns everybody (.pruneMarket 1)
          (sampleRun (samplePrunable 500 [])) w')
        ∧ ¬NoObligation (sampleRun (samplePrunable 500 [])) 1)
      ∧ ((∃ w', Succeeds sampleExterns everybody (.pruneMarket 1)
          (sampleRun (samplePrunable 0 [sampleBet ⟨3⟩ ⟨10⟩ 1 0 1000])) w')
        ∧ ¬NoObligation (sampleRun (samplePrunable 0 [sampleBet ⟨3⟩ ⟨10⟩ 1 0 1000])) 1) := by
  refine ⟨⟨⟨_, .unit, rfl⟩, ?_⟩, ⟨_, .unit, rfl⟩, ?_⟩
  · intro h
    have hdeposit := h.deposit _ rfl
    exact absurd hdeposit (by decide)
  · intro h
    have hwinner := h.winners _ 0 rfl rfl ⟨3⟩ _ rfl
    exact absurd hwinner (by decide)

end PredictIQ.Contract
