/-
  PredictIQ.Safety.Authority: who configures the contract, and whose verdict wins?

  The fees, the market configuration, the dispute windows, the oracle results,
  the breaker's threshold, the guardians, their timelock and the governance
  token change by calls the admin signed, and by none other once there is an
  admin.  Nobody can vote in a dispute, so an outcome that a market names was
  named by the admin: in `resolve_market`, or in an oracle result that
  `attempt_oracle_resolution` took.
-/
import PredictIQ.Safety.FeeBooks
import PredictIQ.Safety.ResolvedOutcome

namespace PredictIQ.Contract

open Foundation Tx

variable {X : Externs}

/-! ## §1. Settings. -/

/-- What is there to be configured. -/
structure Settings where
  guardianAccount : Option Address
  governanceToken : Option Address
  baseFee : Option Int
  feeAdmin : Option Address
  marketConfig : MarketConfigStore
  windows : WindowStore
  oracles : OracleStore
  circuitBreakerThreshold : Option Int
  guardianSet : Option (List Guardian)
  timelockDuration : Option Nat

def World.settings (w : World) : Settings :=
  ⟨w.admin.guardianAccount, w.admin.governanceToken, w.fees.baseFee, w.fees.feeAdmin, w.marketConfig, w.windows,
    w.oracles, w.breaker.circuitBreakerThreshold, w.governance.guardianSet, w.governance.timelockDuration⟩

section Calls

variable {env : Env} {w w' : World} {c : Call}

/-- The guard of the interface leaves the threshold. -/
theorem Guarded.threshold {r : Except Abort Unit} (h : Guarded w r w') :
    w'.breaker.circuitBreakerThreshold = w.breaker.circuitBreakerThreshold := by
  cases h <;> rfl

/-- So does setting the state. -/
theorem settings_of_setState (w : World) (state : CircuitBreakerState) (g : Option (List Address)) (evs : List Event) :
    World.settings { w with
      breaker := w.breaker.setState w.timestamp state
      governance.pendingEmergencyPause := g
      events := evs } = w.settings := by
  unfold World.settings
  cases state <;> rfl

/-- Fees and rewards are booked; who may set them is left alone. -/
theorem creditedFor_feeAdmin (s : FeeStore) (b : BetParams) (fee : Int) :
    ((s.collected b.tokenAddress fee).creditedFor b fee).feeAdmin = s.feeAdmin := by
  have hcollected : (s.collected b.tokenAddress fee).feeAdmin = s.feeAdmin := by
    unfold FeeStore.collected
    split <;> rfl
  unfold FeeStore.creditedFor
  split
  · split
    · exact hcollected
    · exact hcollected
  · exact hcollected

theorem Succeeds.bet_settings {b : BetParams} {m : Market} {fee : Int} (h : Succeeds X env (.placeBet b) w w')
    (effect : PlaceBetEffect env w b m fee w') : w'.settings = w.settings := by
  obtain ⟨r, hr⟩ := id h
  have hfees := placeBet_fees (done_eq_ok.mp hr).1
  have hfeeAdmin : w'.fees.feeAdmin = w.fees.feeAdmin := by
    rw [hfees]
    exact creditedFor_feeAdmin _ _ _
  obtain ⟨_, hw⟩ := effect.frame
  unfold World.settings
  rw [effect.baseFee, hfeeAdmin, hw]
  rfl

/-- **What configures was signed by the admin**, or it made the admin. -/
theorem Succeeds.settings (h : Succeeds X env c w w') :
    w'.settings = w.settings ∨ ByAdmin env w ∨ w.admin.admin = none := by
  cases h.outcome with
  | initialized admin baseFee first => exact .inr (.inr first)
  | appointed _ a ha =>
      cases ha with
      | propose => exact .inl rfl
      | accept => exact .inl rfl
      | cancel => exact .inl rfl
      | guardian g byAdmin => exact .inr (.inl byAdmin)
      | governanceToken token byAdmin => exact .inr (.inl byAdmin)
  | created _ p dw id _ hc effect =>
      obtain ⟨_, _, _, hw⟩ := effect.frame
      rw [hw]
      exact .inl rfl
  | bet b m fee _ effect => exact .inl (h.bet_settings effect)
  | voted voter id outcome weight v u _ m govToken vote pass effect =>
      obtain ⟨_, _, _, _, rfl⟩ := effect.frame
      have hthreshold := pass.threshold
      obtain ⟨br, evs, rfl⟩ := pass.frame
      refine .inl ?_
      unfold World.settings
      rw [← hthreshold]
  | disputed disciplinarian id evs v _ pass moves =>
      obtain ⟨_, _, _, _, _, rfl⟩ := moves
      have hthreshold := pass.threshold
      obtain ⟨br, evs', rfl⟩ := pass.frame
      refine .inl ?_
      unfold World.settings
      rw [← hthreshold]
  | moved _ id f evs _ hc moves =>
      obtain ⟨_, _, _, _, _, rfl⟩ := moves
      exact .inl rfl
  | breakerSet state byAdmin => exact .inr (.inl byAdmin)
  | paused allowed => exact .inl (settings_of_setState w .paused w.governance.pendingEmergencyPause _)
  | unpaused allowed => exact .inl (settings_of_setState w .closed w.governance.pendingEmergencyPause _)
  | emergencyPaused voter now => exact .inl (settings_of_setState w .paused none _)
  | windowSet seconds byAdmin => exact .inr (.inl byAdmin)
  | windowBoundsSet lo hi byAdmin => exact .inr (.inl byAdmin)
  | thresholdSet n byAdmin => exact .inr (.inl byAdmin)
  | baseFeeSet amount byAdmin => exact .inr (.inl byAdmin)
  | feeAdminSet feeAdmin byAdmin => exact .inr (.inl byAdmin)
  | oracleResultSet id oracleId outcome source byAdmin => exact .inr (.inl byAdmin)
  | reputationSet creator reputation byAdmin => exact .inr (.inl byAdmin)
  | creationDepositSet amount byAdmin => exact .inr (.inl byAdmin)
  | creationFeeSet amount byAdmin => exact .inr (.inl byAdmin)
  | treasurySet treasury byAdmin => exact .inr (.inl byAdmin)
  | governed _ g hg =>
      cases hg with
      | initGuardians gs byAdmin => exact .inr (.inl byAdmin)
      | add g byAdmin => exact .inr (.inl byAdmin)
      | executeRemoval p t byAdmin => exact .inr (.inl byAdmin)
      | timelock seconds byAdmin => exact .inr (.inl byAdmin)
      | _ => exact .inl rfl
  | upgradeInitiated hash g hg =>
      cases hg
      exact .inl rfl
  | upgradeVoted voter voteFor g hg =>
      cases hg
      exact .inl rfl
  | upgradeExecuted executor hash g hg =>
      cases hg
      exact .inl rfl
  | _ => exact .inl rfl

/-- There is an admin ever after. -/
theorem Effect.admin_ne_none (h : Effect X env w c w') (hw : w.admin.admin ≠ none) : w'.admin.admin ≠ none := by
  cases h with
  | initialized admin baseFee => exact Option.some_ne_none admin
  | appointed _ a ha =>
      cases ha with
      | accept caller => exact Option.some_ne_none caller
      | _ => exact hw
  | created _ p id _ hc effect =>
      obtain ⟨_, _, _, hw'⟩ := effect.frame
      rw [hw']
      exact hw
  | bet b m fee _ effect =>
      obtain ⟨_, hw'⟩ := effect.frame
      rw [hw']
      exact hw
  | voted voter id outcome weight m ledger br evs _ lookup disputed snapshot frame =>
      obtain ⟨_, _, _, _, rfl⟩ := frame
      exact hw
  | _ => exact hw

end Calls

/-- The admin of the moment did not sign this step. -/
def NotByAdmin (t : Transition World Action) : Prop := ∀ env c, t.act = .call env c → ¬ByAdmin env t.pre

/-- **Nobody but the admin configures.**  Once there is an admin, a run in which
no call carries the signature of the admin at the time leaves every setting:
guardians and their timelock, fees, deposits, treasury and reputations, dispute
windows, oracle results, the breaker's threshold and the governance token. -/
theorem settings_need_admin (X : Externs) (w : World) (hadmin : w.admin.admin ≠ none) (as : List Action)
    (hunsigned : ∀ t ∈ trace (step X) w as, NotByAdmin t) : (run (step X) w as).settings = w.settings := by
  refine (run_call_invariant (fun v => v.admin.admin ≠ none ∧ v.settings = w.settings) NotByAdmin
    ⟨hadmin, rfl⟩ ?_ (fun _ _ h => h) (fun _ h => h) as hunsigned).2
  rintro v env c v' ⟨hv, hsame⟩ hnot hsucc
  refine ⟨hsucc.effect.admin_ne_none hv, ?_⟩
  rcases hsucc.settings with hkeeps | hby | hnone
  · exact hkeeps.trans hsame
  · exact absurd hby (hnot env c rfl)
  · exact absurd hnone hv

/-- Account 1 is the admin; account 2 tries to set the base fee and opens a market. -/
theorem settings_need_admin_sample :
    (run (step sampleExterns) (sampleRun [.call (signedBy [⟨1⟩]) (.initializeContract ⟨1⟩ 100)])
      [.call (signedBy [⟨2⟩]) (.setBaseFee 0),
        .call (signedBy [⟨2⟩]) (.createMarket (sampleMarket ⟨2⟩ ⟨10⟩))]).settings
      = (sampleRun [.call (signedBy [⟨1⟩]) (.initializeContract ⟨1⟩ 100)]).settings := by
  refine settings_need_admin sampleExterns _ (by decide) _ ?_
  intro t ht env c hact hby
  simp only [trace, List.mem_cons, List.not_mem_nil, or_false] at ht
  -- the admin is account 1, and only account 2 signs
  rcases ht with rfl | rfl <;> cases hact <;> obtain ⟨a, ha, hauth⟩ := hby
  · obtain rfl : (⟨1⟩ : Address) = a := Option.some.inj ha
    exact absurd hauth (by decide)
  · obtain rfl : (⟨1⟩ : Address) = a := Option.some.inj ha
    exact absurd hauth (by decide)

/-! ## §2. Verdicts. -/

/-- The history has a successful call of `c` that the admin signed. -/
def AdminCalled (X : Externs) (history : List (Transition World Action)) (c : Call) : Prop :=
  ∃ t ∈ history, ∃ env, t.act = .call env c ∧ callOk X t = true ∧ ByAdmin env t.pre

theorem AdminCalled.concat {history : List (Transition World Action)} {c : Call} (h : AdminCalled X history c)
    (t : Transition World Action) : AdminCalled X (history ++ [t]) c := by
  obtain ⟨t', ht', hrest⟩ := h
  exact ⟨t', List.mem_append_left _ ht', hrest⟩

theorem AdminCalled.last {history : List (Transition World Action)} {env : Env} {w w' : World} {c : Call}
    (h : Succeeds X env c w w') (hby : ByAdmin env w) : AdminCalled X (history ++ [⟨w, .call env c, w'⟩]) c :=
  ⟨_, List.mem_append_right _ List.mem_cons_self, env, rfl, callOk_of_succeeds h, hby⟩

/-- The step takes the outcome of market `k` from the result of its first oracle. -/
def TakesAnswer (X : Externs) (t : Transition World Action) (k outcome : Nat) : Prop :=
  ∃ env, t.act = .call env (.attemptOracleResolution k) ∧ callOk X t = true
    ∧ t.pre.oracles.result.lookup (k, 0) = some outcome

/-- `attempt_oracle_resolution` took a result that the admin had set before. -/
def AnswerTaken (X : Externs) (history : List (Transition World Action)) (k outcome : Nat) : Prop :=
  ∃ earlier t later, history = earlier ++ t :: later
    ∧ AdminCalled X earlier (.setOracleResult k 0 outcome) ∧ TakesAnswer X t k outcome

theorem AnswerTaken.concat {history : List (Transition World Action)} {k outcome : Nat}
    (h : AnswerTaken X history k outcome) (t : Transition World Action) : AnswerTaken X (history ++ [t]) k outcome := by
  obtain ⟨earlier, t', later, rfl, hset, htakes⟩ := h
  exact ⟨earlier, t', later ++ [t], List.append_assoc _ _ _, hset, htakes⟩

/-- What the admin named for a market: in `resolve_market`, or as the first oracle's result that was taken. -/
def AdminNamed (X : Externs) (history : List (Transition World Action)) (k outcome : Nat) : Prop :=
  AdminCalled X history (.resolveMarket k outcome) ∨ AnswerTaken X history k outcome

theorem AdminNamed.concat {history : List (Transition World Action)} {k outcome : Nat}
    (h : AdminNamed X history k outcome) (t : Transition World Action) : AdminNamed X (history ++ [t]) k outcome :=
  h.imp (·.concat t) (·.concat t)

/-- Finalisation finds its market pending, and confirms what it names; no votes are counted. -/
def ConfirmsOnly (X : Externs) (t : Transition World Action) : Prop :=
  ∀ env k, t.act = .call env (.finalizeResolution k) → callOk X t = true →
    ∃ m m', t.pre.markets.market.lookup k = some m ∧ m.status = .pendingResolution
      ∧ t.post.markets.market.lookup k = some m' ∧ m'.winningOutcome = m.winningOutcome

/-- Oracle results and the outcomes of records are the admin's. -/
structure VerdictsNamed (X : Externs) (history : List (Transition World Action)) (w : World) : Prop where
  registered : Registered w
  noSnapshots : NoSnapshots w
  results : ∀ k i o, w.oracles.result.lookup (k, i) = some o → AdminCalled X history (.setOracleResult k i o)
  outcomes : ∀ k m o, w.markets.market.lookup k = some m → m.winningOutcome = some o → AdminNamed X history k o

section Named

variable {env : Env} {w w' : World} {c : Call} {history : List (Transition World Action)}

theorem Succeeds.resolveMarket {k o : Nat} (h : Succeeds X env (.resolveMarket k o) w w') :
    ByAdmin env w ∧ ∃ m, w.markets.market.lookup k = some m
      ∧ w'.markets = w.markets.updateMarket
          { m with status := .resolved, winningOutcome := some o, resolvedAt := some w.timestamp } := by
  obtain ⟨r, hr⟩ := h
  obtain ⟨hr, _⟩ := done_eq_ok.mp hr
  simp only [Contract.resolveMarket, bind_eq_ok, requireAdmin_ok, loadMarket_ok, failIf_ok, reads_eq_ok,
    updateMarket_ok, adminOrSelf_ok, publish_ok, and_assoc, exists_and_left, exists_eq_left', exists_eq_left,
    exists_const] at hr
  obtain ⟨hby, m, hm, _, _, rfl⟩ := hr
  exact ⟨hby, m, hm, rfl⟩

/-- What a call leaves among the oracle results was there, or the admin put it there. -/
theorem Succeeds.oracleResults (h : Succeeds X env c w w') {k i o : Nat}
    (ho : w'.oracles.result.lookup (k, i) = some o) :
    w.oracles.result.lookup (k, i) = some o ∨ c = .setOracleResult k i o ∧ ByAdmin env w := by
  cases h.outcome with
  | oracleResultSet id oracleId outcome source byAdmin =>
      change (w.oracles.result.insert (id, oracleId) outcome).lookup (k, i) = some o at ho
      rw [Store.lookup_insert_eq] at ho
      split at ho
      · rename_i hkey
        obtain ⟨rfl, rfl⟩ := Prod.mk.inj hkey
        obtain rfl := Option.some.inj ho
        exact .inr ⟨rfl, byAdmin⟩
      · exact .inl ho
  | created _ p dw id _ hc effect =>
      obtain ⟨_, _, _, hw⟩ := effect.frame
      rw [hw] at ho
      exact .inl ho
  | bet b m fee _ effect =>
      obtain ⟨_, hw⟩ := effect.frame
      rw [hw] at ho
      exact .inl ho
  | voted voter id outcome weight v u _ m govToken vote pass effect =>
      obtain ⟨_, _, _, _, rfl⟩ := effect.frame
      obtain ⟨br, evs, rfl⟩ := pass.frame
      exact .inl ho
  | disputed disciplinarian id evs v _ pass moves =>
      obtain ⟨_, _, _, _, _, rfl⟩ := moves
      obtain ⟨br, evs', rfl⟩ := pass.frame
      exact .inl ho
  | moved _ id f evs _ hc moves =>
      obtain ⟨_, _, _, _, _, rfl⟩ := moves
      exact .inl ho
  | _ => exact .inl ho

theorem kind_resolveMarket {k : Nat} (hc : c.kind = .moves k .resolveMarket) : ∃ o, c = .resolveMarket k o := by
  cases c <;> simp only [Call.kind, CallKind.moves.injEq, reduceCtorEq, and_false, and_true] at hc
  exact ⟨_, by rw [hc]⟩

theorem kind_attemptOracleResolution {k : Nat} (hc : c.kind = .moves k .attemptOracleResolution) :
    c = .attemptOracleResolution k := by
  cases c <;> simp only [Call.kind, CallKind.moves.injEq, reduceCtorEq, and_false, and_true] at hc
  rw [hc]

/-- While no votes are stored, finalisation confirms. -/
theorem Succeeds.confirms {k : Nat} (hX : ReturnsStoredVotes X) (hreg : Registered w) (hns : NoSnapshots w)
    (h : Succeeds X env (.finalizeResolution k) w w') :
    ∃ m m', w.markets.market.lookup k = some m ∧ m.status = .pendingResolution
      ∧ w'.markets.market.lookup k = some m' ∧ m'.winningOutcome = m.winningOutcome := by
  obtain ⟨r, hr⟩ := h
  obtain ⟨m, hm, ⟨hs, hr⟩ | ⟨_, hr⟩⟩ := finalizeResolution_ok (done_eq_ok.mp hr).1
  · obtain ⟨t, outcome, _, _, _, rfl⟩ := finalizeUndisputed_ok hr
    refine ⟨m, { m with status := .resolved, resolvedAt := some w.timestamp }, hm, hs, ?_, rfl⟩
    show (w.markets.updateMarket _).market.lookup k = _
    rw [MarketStore.lookup_updateMarket]
    exact if_pos (hreg.keyed k m hm).symm
  · obtain ⟨t, outcome, _, _, hvotes, _⟩ := finalizeVoted_ok hr
    exact absurd hvotes (not_votesDecide hX hns)

/-- An outcome that a record names after a call was named before, or the admin named it. -/
theorem VerdictsNamed.outcome_of (hX : ReturnsStoredVotes X) (h : VerdictsNamed X history w)
    (hsucc : Succeeds X env c w w') {k o : Nat} {m' : Market} (hm' : w'.markets.market.lookup k = some m')
    (ho : m'.winningOutcome = some o) : AdminNamed X (history ++ [⟨w, .call env c, w'⟩]) k o := by
  have hchange := hsucc.effect.marketChange h.registered k
  rw [hm'] at hchange
  generalize hpre : w.markets.market.lookup k = before at hchange
  cases hchange with
  | same => exact (h.outcomes k m' o hpre ho).concat _
  | created => cases ho
  | bet b m fee counts => exact (h.outcomes k m o hpre ho).concat _
  | released token m => exact (h.outcomes k m o hpre ho).concat _
  | moved _ f m _ hc move =>
      cases move with
      | answer outcome active due fresh answered =>
          -- taken from the first oracle's result, which is the admin's
          obtain rfl := Option.some.inj ho
          obtain rfl := kind_attemptOracleResolution hc
          exact .inr ⟨history, _, [], rfl, h.results k 0 _ answered, env, rfl, callOk_of_succeeds hsucc, answered⟩
      | confirm t outcome pending => exact (h.outcomes k m o hpre ho).concat _
      | decide t outcome disputed since elapsed votes => exact absurd votes (not_votesDecide hX h.noSnapshots)
      | dispute => exact (h.outcomes k m o hpre ho).concat _
      | resolve outcome =>
          obtain ⟨o', rfl⟩ := kind_resolveMarket hc
          obtain ⟨hby, m₀, hm₀, hmarkets⟩ := hsucc.resolveMarket
          -- the record the call wrote is the one that is there
          rw [hmarkets, MarketStore.lookup_updateMarket] at hm'
          obtain rfl : m = m₀ := Option.some.inj (hpre.symm.trans hm₀)
          rw [if_pos (h.registered.keyed k m hpre).symm] at hm'
          have hsame := congrArg Market.winningOutcome (Option.some.inj hm')
          obtain rfl : o' = o := Option.some.inj (hsame.trans ho)
          exact .inl (.last hsucc hby)
      | cancel => exact (h.outcomes k m o hpre ho).concat _
      | voteDown => exact (h.outcomes k m o hpre ho).concat _

end Named

theorem verdictsNamed (X : Externs) (hX : ReturnsStoredVotes X) (b : Address → Address → Nat) (t s : Nat)
    (as : List Action) : VerdictsNamed X (trace (step X) (genesis b t s) as) (run (step X) (genesis b t s) as) := by
  have h0 : VerdictsNamed X [] (genesis b t s) :=
    ⟨.genesis b t s, .genesis b t s, fun _ _ _ h => (by cases h), fun _ _ _ h => (by cases h)⟩
  refine history_call_invariant (VerdictsNamed X) h0 ?_ ?_ as
  · intro history v env c v' h hsucc
    refine ⟨hsucc.effect.registered h.registered, hsucc.effect.noSnapshots h.registered h.noSnapshots, ?_, ?_⟩
    · intro k i o hresult
      rcases hsucc.oracleResults hresult with hbefore | ⟨rfl, hby⟩
      · exact (h.results k i o hbefore).concat _
      · exact .last hsucc hby
    · intro k m' o hm' ho
      exact h.outcome_of hX hsucc hm' ho
  · intro history v a v' h hidle
    obtain ⟨_, _, _, rfl⟩ := hidle.frame
    exact ⟨h.registered.of_markets rfl, ⟨h.noSnapshots.snapshot, h.noSnapshots.voting⟩,
      fun k i o hresult => (h.results k i o hresult).concat _, fun k m o hm ho => (h.outcomes k m o hm ho).concat _⟩

/-- **The admin's verdict wins.**  After every run, the outcome that a stored market
names, pending, disputed or resolved, is one the admin signed for that market:
as the argument of a successful `resolve_market`, or as a result of its first
oracle that a later `attempt_oracle_resolution` took.  No vote ever decides a
market: each finalisation of the run confirms what a pending market names. -/
theorem verdicts_are_the_admins (X : Externs) (hX : ReturnsStoredVotes X) (b : Address → Address → Nat)
    (t s : Nat) (as : List Action) :
    (∀ k o m, (run (step X) (genesis b t s) as).markets.market.lookup k = some m → m.winningOutcome = some o →
        AdminNamed X (trace (step X) (genesis b t s) as) k o)
      ∧ ∀ tr ∈ trace (step X) (genesis b t s) as, ConfirmsOnly X tr := by
  refine ⟨fun k o m hm ho => (verdictsNamed X hX b t s as).outcomes k m o hm ho, ?_⟩
  intro tr htr env k hact hok
  obtain ⟨bs, cs, _, hpre, hpost⟩ := mem_trace (step X) htr
  -- no votes are stored where the step begins
  have hbefore := verdictsNamed X hX b t s bs
  rw [← hpre] at hbefore
  have hsucc : Succeeds X env (.finalizeResolution k) tr.pre tr.post := by
    rw [hpost, hact]
    refine callOk_iff.mp (?_ : callOk X ⟨tr.pre, .call env (.finalizeResolution k), tr.post⟩ = true)
    rw [← hact]
    exact hok
  exact hsucc.confirms hX hbefore.registered hbefore.noSnapshots

/-- The admin's answer is 1; it is taken, and confirmed at the end. -/
theorem verdicts_are_the_admins_sample :
    AdminNamed sampleExterns (trace (step sampleExterns) sampleGenesis (sampleOracleRun 1)) 1 1
      ∧ ∃ m m', (sampleRun ((sampleOracleRun 1).take 7)).markets.market.lookup 1 = some m
        ∧ m.status = .pendingResolution ∧ (sampleRun (sampleOracleRun 1)).markets.market.lookup 1 = some m'
        ∧ m'.winningOutcome = m.winningOutcome := by
  have h := verdicts_are_the_admins sampleExterns storedVotes_returns sampleBalances 0 0 (sampleOracleRun 1)
  have hlook : ((sampleRun (sampleOracleRun 1)).markets.market.lookup 1).map (·.winningOutcome) = some (some 1) := by
    decide
  obtain ⟨m, hm, ho⟩ := Option.map_eq_some_iff.mp hlook
  have hlast := mem_trace_append_cons (step sampleExterns) sampleGenesis ((sampleOracleRun 1).take 7)
    (.call everybody (.finalizeResolution 1)) []
  exact ⟨h.1 1 1 m hm ho, h.2 _ hlast everybody 1 rfl (by decide)⟩

end PredictIQ.Contract
