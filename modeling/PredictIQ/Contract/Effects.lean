/-
  PredictIQ.Contract.Effects: what a successful call can do to the markets.

  A call that returned `Ok` created a market, took a bet, moved a market along
  its lifecycle, returned a deposit, pruned a market, took a vote, paid fees
  out, wrote a setting, or changed a role or the governance state.  Each case
  carries the guards it passed and the world it left, up to the breaker and
  the events, so that an invariant of the markets is one case analysis over
  `Effect`.
-/
import PredictIQ.Contract.Outcomes

namespace PredictIQ.Contract

open Foundation Tx

/-! ## §1. Effects. -/

/-- What a successful call may leave. -/
inductive Effect (X : Externs) (env : Env) (w : World) : Call → World → Prop
  | created (c : Call) (p : MarketParams) (id : Nat) (w' : World) (hc : c.kind = .creates p)
      (h : CreateMarketEffect env w p id w') : Effect X env w c w'
  | bet (b : BetParams) (m : Market) (fee : Int) (w' : World)
      (h : PlaceBetEffect env w b m fee w') : Effect X env w (.placeBet b) w'
  | moved (c : Call) (id : Nat) (f : LifecycleCall) (m m' : Market) (br : BreakerStore)
      (evs : List Event) (hc : c.kind = .moves id f)
      (lookup : w.markets.market.lookup id = some m) (move : LifecycleMove X w id m f m') :
      Effect X env w c
        { w with markets := w.markets.updateMarket m', breaker := br, events := evs }
  | released (id : Nat) (token : Address) (m : Market)
      (lookup : w.markets.market.lookup id = some m) (auth : env.authorized m.creator = true)
      (resolved : m.status = .resolved) (deposit : 0 < m.creationDeposit)
      (funded : Transferable env w ⟨token, currentContractAddress, m.creator, m.creationDeposit⟩) :
      Effect X env w (.releaseCreationDeposit id token)
        { w.pay ⟨token, currentContractAddress, m.creator, m.creationDeposit⟩ with
          markets := w.markets.updateMarket { m with creationDeposit := 0 } }
  | releasedNothing (id : Nat) (token : Address) (m : Market)
      (lookup : w.markets.market.lookup id = some m) (resolved : m.status = .resolved)
      (empty : m.creationDeposit ≤ 0) :
      Effect X env w (.releaseCreationDeposit id token) w
  | pruned (id : Nat) (m : Market) (t : Nat) (ar : ArchiveStore) (evs : List Event)
      (lookup : w.markets.market.lookup id = some m) (resolved : m.status = .resolved)
      (since : m.resolvedAt = some t) (elapsed : t + pruneGracePeriod ≤ w.timestamp) :
      Effect X env w (.pruneMarket id) { w with
        archive := ar
        voting := w.voting.prune id m.options.length
        markets := w.markets.removeMarket id
        events := evs }
  | voted (voter : Address) (id outcome : Nat) (weight : Int) (m : Market) (ledger : Nat)
      (br : BreakerStore) (evs : List Event) (w' : World)
      (lookup : w.markets.market.lookup id = some m) (disputed : m.status = .disputed)
      (snapshot : m.disputeSnapshotLedger = some ledger)
      (frame : SameButVoting { w with breaker := br, events := evs } w') :
      Effect X env w (.castVote voter id outcome weight) w'
  | paidFees (c : Call) (x : Transfer) (f : FeeStore) (evs : List Event)
      (hc : c.kind = .paysFees) (payer : x.payer = currentContractAddress) :
      Effect X env w c { w.pay x with fees := f, events := evs }
  | configured (c : Call) (f : FeeStore) (mc : MarketConfigStore) (wi : WindowStore)
      (o : OracleStore) (br : BreakerStore) (evs : List Event) (hc : c.kind = .configures) :
      Effect X env w c { w with
        fees := f, marketConfig := mc, windows := wi, oracles := o, breaker := br, events := evs }
  | initialized (admin : Address) (baseFee : Int) (first : w.admin.admin = none) :
      Effect X env w (.initializeContract admin baseFee) { w with
        admin.admin := some admin
        fees.baseFee := some baseFee
        breaker.persistentState := some .closed }
  | appointed (c : Call) (a : AdminStore) (h : AdminStep env w c a) :
      Effect X env w c { w with admin := a }
  | governed (c : Call) (g : GovernanceStore) (br : BreakerStore) (wasm : Option BytesN32)
      (evs : List Event) (h : GovernanceStep env w c g) :
      Effect X env w c { w with governance := g, breaker := br, wasm := wasm, events := evs }

section Inversion

variable {X : Externs} {env : Env} {w w' : World}

theorem Effect.of_moves {c : Call} {id : Nat} {f : LifecycleCall} (hc : c.kind = .moves id f)
    (h : MovesMarket X w id f w') : Effect X env w c w' := by
  obtain ⟨m, m', evs, hm, hmove, rfl⟩ := h
  exact .moved c id f m m' w.breaker evs hc hm hmove

/-- Lifecycle moves do not depend on the breaker or the events. -/
theorem LifecycleMove.of_sameButBreaker {id : Nat} {f : LifecycleCall} {m m' : Market}
    (hw : SameButBreaker w w') (h : LifecycleMove X w' id m f m') :
    LifecycleMove X w id m f m' := by
  obtain ⟨br, evs, rfl⟩ := hw
  cases h with
  | answer outcome active due fresh answered => exact .answer outcome active due fresh answered
  | confirm t outcome pending since elapsed decided =>
      exact .confirm t outcome pending since elapsed decided
  | decide t outcome disputed since elapsed votes =>
      exact .decide t outcome disputed since elapsed votes
  | dispute t pending since inTime => exact .dispute t pending since inTime
  | resolve outcome running valid => exact .resolve outcome running valid
  | cancel running => exact .cancel running
  | voteDown disputed => exact .voteDown disputed

/-- **Inversion of the entrypoints**, as effects. -/
theorem Outcome.effect {c : Call} (h : Outcome X env w c w') : Effect X env w c w' := by
  cases h with
  | initialized admin baseFee first => exact .initialized admin baseFee first
  | appointed _ a h => exact .appointed _ a h
  | created _ p dw id _ hc effect listed => exact .created _ p id w' hc effect
  | bet b m fee _ effect publishes => exact .bet b m fee w' effect
  | voted voter id outcome weight v u _ m govToken vote pass effect =>
      -- the breaker may have half-opened on the way
      obtain ⟨br, evs, rfl⟩ := pass.frame
      obtain ⟨ledger, hledger⟩ := effect.snapshot
      exact .voted voter id outcome weight m ledger br evs w' effect.lookup effect.disputed hledger
        effect.frame
  | disputed disciplinarian id evs v _ pass moves =>
      have hv := pass.frame
      -- the guard ran first: carry the move back to the world of the call
      obtain ⟨m, m', hm, hmove, _, rfl⟩ := moves
      have hmove' := hmove.of_sameButBreaker hv
      obtain ⟨br, evs', rfl⟩ := hv
      exact .moved _ id _ m m' br _ rfl hm hmove'
  | moved _ id f evs _ hc moves => exact .of_moves hc moves.moves
  | released id token m lookup auth resolved deposit funded =>
      exact .released id token m lookup auth resolved deposit funded
  | releasedNothing id token m lookup resolved empty =>
      exact .releasedNothing id token m lookup resolved empty
  | pruned id m t ar lookup resolved since elapsed =>
      exact .pruned id m t ar _ lookup resolved since elapsed
  | feesWithdrawn => exact .paidFees _ _ _ _ rfl rfl
  | rewardsClaimed => exact .paidFees _ _ _ _ rfl rfl
  | governed _ g h => exact .governed _ g _ _ _ h
  | upgradeInitiated hash g h => exact .governed _ g _ _ _ h
  | upgradeVoted voter voteFor g h => exact .governed _ g _ _ _ h
  | upgradeExecuted executor hash g h => exact .governed _ g _ _ _ h
  | emergencyPaused voter now => exact .governed _ _ _ _ _ (.emergency voter none)
  | _ => exact .configured _ _ _ _ _ _ _ rfl

theorem Succeeds.effect {c : Call} (h : Succeeds X env c w w') : Effect X env w c w' :=
  h.outcome.effect

/-- A step is an effect of its call, or it leaves the world alone. -/
theorem step_call_effect (X : Externs) (env : Env) (c : Call) (w : World) :
    step X w (.call env c) = w ∨ Effect X env w c (step X w (.call env c)) := by
  rcases step_call_cases X env c w with h | ⟨r, h⟩
  · exact Or.inl h
  · exact Or.inr (exec_outcome h).effect

/-- What a successful `cast_vote` did, past the guard of the interface. -/
theorem Succeeds.votes {voter : Address} {id outcome : Nat} {weight : Int}
    (h : Succeeds X env (.castVote voter id outcome weight) w w') :
    ∃ br evs m govToken v vote, CastVoteEffect env { w with breaker := br, events := evs }
      voter id outcome weight m govToken v vote w' := by
  obtain ⟨r, hr⟩ := h
  obtain ⟨hr, _⟩ := done_eq_ok.mp hr
  obtain ⟨_, u, hclosed, hcast⟩ := bind_eq_ok.mp hr
  obtain ⟨br, evs, rfl⟩ := (requireClosed_ok hclosed).frame
  obtain ⟨m, govToken, v, vote, heff⟩ := castVote_effect hcast
  exact ⟨br, evs, m, govToken, v, vote, heff⟩

/-- Calls take no time. -/
theorem Effect.timestamp_eq {c : Call} (h : Effect X env w c w') : w'.timestamp = w.timestamp := by
  cases h with
  | created _ p id _ _ h =>
      obtain ⟨_, _, _, hw⟩ := h.frame
      rw [hw]
  | bet b m fee _ h =>
      obtain ⟨_, hw⟩ := h.frame
      rw [hw]
      rfl
  | voted voter id outcome weight m ledger br evs _ lookup disputed snapshot frame =>
      obtain ⟨_, _, _, _, rfl⟩ := frame
      rfl
  | _ => rfl

@[simp] theorem step_call_timestamp (X : Externs) (env : Env) (c : Call) (w : World) :
    (step X w (.call env c)).timestamp = w.timestamp := by
  rcases step_call_effect X env c w with h | h
  · rw [h]
  · exact h.timestamp_eq

/-- Ledger times do not decrease. -/
theorem step_timestamp_le (X : Externs) (w : World) (a : Action) :
    w.timestamp ≤ (step X w a).timestamp := by
  cases a with
  | call env c => exact le_of_eq (step_call_timestamp X env c w).symm
  | advance seconds ledgers => exact Nat.le_add_right _ _
  | external balances => exact le_refl _

theorem run_timestamp_le (X : Externs) (w : World) (as : List Action) :
    w.timestamp ≤ (run (step X) w as).timestamp := by
  induction as generalizing w with
  | nil => exact le_refl _
  | cons a as ih => exact (step_timestamp_le X w a).trans (ih (step X w a))

/-- The voting state is written by votes and by pruning alone. -/
theorem Effect.voting {c : Call} (h : Effect X env w c w') :
    (∃ voter id outcome weight, c = .castVote voter id outcome weight)
      ∨ (∃ id n, c = .pruneMarket id ∧ w'.voting = w.voting.prune id n)
      ∨ w'.voting = w.voting := by
  cases h with
  | voted voter id outcome weight => exact Or.inl ⟨voter, id, outcome, weight, rfl⟩
  | pruned id m => exact Or.inr (Or.inl ⟨id, m.options.length, rfl, rfl⟩)
  | created _ p id _ hc h =>
      obtain ⟨_, _, _, hw⟩ := h.frame
      rw [hw]
      exact Or.inr (Or.inr rfl)
  | bet b m fee _ h =>
      obtain ⟨_, hw⟩ := h.frame
      rw [hw]
      exact Or.inr (Or.inr rfl)
  | _ => exact Or.inr (Or.inr rfl)

/-- Guardians, proposals and ballots are written by the governance calls alone. -/
theorem Effect.governance {c : Call} (h : Effect X env w c w') :
    w'.governance = w.governance ∨ GovernanceStep env w c w'.governance := by
  cases h with
  | governed _ g br wasm evs h => exact Or.inr h
  | created _ p id _ hc h =>
      obtain ⟨_, _, _, hw⟩ := h.frame
      rw [hw]
      exact Or.inl rfl
  | bet b m fee _ h =>
      obtain ⟨_, hw⟩ := h.frame
      rw [hw]
      exact Or.inl rfl
  | voted voter id outcome weight m ledger br evs _ lookup disputed snapshot frame =>
      obtain ⟨_, _, _, _, rfl⟩ := frame
      exact Or.inl rfl
  | _ => exact Or.inl rfl

end Inversion

end PredictIQ.Contract
