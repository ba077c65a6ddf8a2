/-
  PredictIQ.Contract.Announcements: what a successful call publishes.

  `Announced` ties the events of a call that returned `Ok` to what it did to
  the market records: a creation, a bet, a lifecycle move and a pruning are
  each announced under the market's id, and nothing else that is published
  concerns a record.  A bet announces the amount that was paid, not the part
  of it that is staked.
-/
import PredictIQ.Contract.Lifecycle

namespace PredictIQ.Contract

open Foundation Tx

/-! ## §1. Announcements. -/

/-- Kinds of calls that write no market record. -/
def CallKind.keepsMarkets : CallKind → Bool
  | .creates _ => false
  | .bets _ => false
  | .moves .. => false
  | .releases .. => false
  | .prunes _ => false
  | _ => true

/-- What a successful call does to the market records, with what it publishes. -/
inductive Announced (X : Externs) (env : Env) (w : World) : Call → World → Prop
  | aside (c : Call) (w' : World) (hc : c.kind.keepsMarkets = true)
      (markets : w'.markets = w.markets) (publishes : Publishes w [] w') : Announced X env w c w'
  | upgraded (executor : Address) (hash : BytesN32) (w' : World)
      (markets : w'.markets = w.markets)
      (publishes : Publishes w [X.emitUpgradeExecuted executor hash] w') :
      Announced X env w .executeUpgrade w'
  | created (c : Call) (p : MarketParams) (dw : Option Nat) (id : Nat) (w' : World)
      (hc : c.kind = .creates p) (listed : MarketListed w p dw id w')
      (publishes : Publishes w
        [.mktCreat id p.creator p.description p.options.length p.deadline] w') :
      Announced X env w c w'
  | bet (b : BetParams) (m : Market) (fee : Int) (w' : World)
      (effect : PlaceBetEffect env w b m fee w')
      (publishes : Publishes w [.betPlace b.marketId b.bettor b.outcome b.amount] w') :
      Announced X env w (.placeBet b) w'
  | moved (c : Call) (id : Nat) (f : LifecycleCall) (m m' : Market) (evs : List Event) (w' : World)
      (hc : c.kind = .moves id f) (lookup : w.markets.market.lookup id = some m)
      (move : LifecycleMove X w id m f m') (markets : w'.markets = w.markets.updateMarket m')
      (announced : MoveAnnounced id m' f evs) (publishes : Publishes w evs w') :
      Announced X env w c w'
  | released (id : Nat) (token : Address) (m : Market) (deposit : Int) (w' : World)
      (lookup : w.markets.market.lookup id = some m)
      (markets : w'.markets = w.markets.updateMarket { m with creationDeposit := deposit })
      (publishes : Publishes w [] w') :
      Announced X env w (.releaseCreationDeposit id token) w'
  | releasedNothing (id : Nat) (token : Address) (w' : World)
      (markets : w'.markets = w.markets) (publishes : Publishes w [] w') :
      Announced X env w (.releaseCreationDeposit id token) w'
  | pruned (id t : Nat) (w' : World) (markets : w'.markets = w.markets.removeMarket id)
      (publishes : Publishes w [.mktPrune id t] w') : Announced X env w (.pruneMarket id) w'

/-! ## §2. Inversion. -/

section Inversion

variable {X : Externs} {env : Env} {w w' : World}

theorem Effect.markets_eq {c : Call} (h : Effect X env w c w')
    (hc : c.kind.keepsMarkets = true) : w'.markets = w.markets := by
  cases h with
  | created _ p id _ hk =>
      rw [hk] at hc
      cases hc
  | bet => cases hc
  | moved _ id f m m' br evs hk =>
      rw [hk] at hc
      cases hc
  | released => cases hc
  | pruned => cases hc
  | voted voter id outcome weight m ledger br evs _ lookup disputed snapshot frame =>
      obtain ⟨_, _, _, _, rfl⟩ := frame
      rfl
  | _ => rfl

/-- A call that writes no record and publishes events aside. -/
theorem Announced.of_effect {c : Call} (h : Effect X env w c w')
    (hc : c.kind.keepsMarkets = true) (hp : Publishes w [] w') : Announced X env w c w' :=
  .aside c w' hc (h.markets_eq hc) hp

theorem MarketListed.publishes {p : MarketParams} {dw : Option Nat} {id : Nat}
    (h : MarketListed w p dw id w') :
    Publishes w [.mktCreat id p.creator p.description p.options.length p.deadline] w' := by
  obtain ⟨fees, hfees, hevents⟩ := h.events
  refine ⟨fees, ?_, hevents⟩
  rw [List.all_eq_true]
  intro ev hev
  obtain ⟨token, recipient, amount, rfl⟩ := hfees ev hev
  rfl

/-- **What a successful call announces.** -/
theorem Outcome.announced {c : Call} (h : Outcome X env w c w') : Announced X env w c w' := by
  have heff := h.effect
  cases h with
  | initialized => exact .of_effect heff rfl (.of_eq rfl)
  | appointed _ a h =>
      refine .of_effect heff ?_ (.of_eq rfl)
      cases h <;> rfl
  | created _ p dw id _ hc effect listed => exact .created _ p dw id w' hc listed listed.publishes
  | bet b m fee _ effect publishes => exact .bet b m fee w' effect publishes
  | voted voter id outcome weight v u _ m govToken vote pass effect =>
      refine .of_effect heff rfl (pass.publishes.trans ?_)
      rw [effect.post]
      exact .of_aside rfl rfl
  | disputed disciplinarian id evs v _ pass moves =>
      obtain ⟨m, m', hm, hmove, hann, rfl⟩ := moves
      have hp := pass.publishes
      -- the guard ran first and left the records as they were
      have hv := pass.frame
      have hmove' := hmove.of_sameButBreaker hv
      obtain ⟨br, evs', rfl⟩ := hv
      exact .moved _ id _ m m' evs _ rfl hm hmove' rfl hann (hp.trans (.of_append rfl))
  | moved _ id f evs _ hc moves =>
      obtain ⟨m, m', hm, hmove, hann, rfl⟩ := moves
      exact .moved _ id f m m' evs _ hc hm hmove rfl hann (.of_append rfl)
  | released id token m lookup => exact .released id token m 0 _ lookup rfl (.of_eq rfl)
  | releasedNothing id token => exact .releasedNothing id token _ rfl (.of_eq rfl)
  | pruned id => exact .pruned id _ _ rfl (.of_append rfl)
  | governed _ g h =>
      refine .of_effect heff ?_ (.of_eq rfl)
      cases h <;> rfl
  | upgradeExecuted executor hash => exact .upgraded executor hash _ rfl (.of_append rfl)
  | feesWithdrawn => exact .of_effect heff rfl (.of_aside rfl rfl)
  | rewardsClaimed => exact .of_effect heff rfl (.of_aside rfl rfl)
  | breakerSet => exact .of_effect heff rfl (.of_aside rfl rfl)
  | thresholdSet => exact .of_effect heff rfl (.of_aside rfl rfl)
  | paused => exact .of_effect heff rfl (.of_aside rfl rfl)
  | unpaused => exact .of_effect heff rfl (.of_aside rfl rfl)
  | monitoringReset => exact .of_effect heff rfl (.of_aside rfl rfl)
  | oracleResultSet => exact .of_effect heff rfl (.of_aside rfl rfl)
  | upgradeInitiated => exact .of_effect heff rfl (.of_aside rfl rfl)
  | upgradeVoted => exact .of_effect heff rfl (.of_aside rfl rfl)
  | emergencyPaused => exact .of_effect heff rfl (.of_aside rfl rfl)
  | _ => exact .of_effect heff rfl (.of_eq rfl)

theorem Succeeds.announced {c : Call} (h : Succeeds X env c w w') : Announced X env w c w' :=
  h.outcome.announced

end Inversion

end PredictIQ.Contract
