/-
  PredictIQ.Contract.Oracles: the stored oracle answers of `oracles.rs`.

  An answer is stored under (market, oracle index) by the admin; nothing here
  looks at the market's options.  `validateOracleStaleness` walks the indices
  below the configured quorum and accepts as soon as one of them has reported
  and none that did is stale.
-/
import PredictIQ.Contract.Bets

namespace PredictIQ.Contract

open Foundation Tx

/-! ## §1. The functions. -/

/-- `MAX_STALENESS_SECONDS`. -/
def maxStalenessSeconds : Nat := 60

def effectiveMaxStaleness (config : OracleConfig) : Nat :=
  if config.maxStalenessSeconds < maxStalenessSeconds then config.maxStalenessSeconds
  else maxStalenessSeconds

/-- The loop of `validate_oracle_staleness` over the oracle indices, with the
flag `any_found`. -/
def checkLastUpdates (marketId maxStaleness : Nat) : List Nat → Bool → Body Bool
  | [], anyFound => pure anyFound
  | idx :: rest, anyFound => do
      let now ← reads (·.timestamp)
      let lastUpdate ← reads (·.oracles.lastUpdate.lookup (marketId, idx))
      -- the age saturates at 0 for an answer stamped in the future
      whenever (∃ updateTime ∈ lastUpdate, maxStaleness < now - updateTime) do
        trackError
        abort (.error .stalePrice)
      checkLastUpdates marketId maxStaleness rest (anyFound || lastUpdate.isSome)

def validateOracleStaleness (marketId : Nat) (config : OracleConfig) : Body Unit := do
  let numOracles := config.minResponses.getD 1
  let anyFound ←
    checkLastUpdates marketId (effectiveMaxStaleness config) (List.range numOracles) false
  whenever (anyFound = false) do
    trackError
    abort (.error .oracleFailure)

def getOracleResult (marketId oracleId : Nat) : Body (Option Nat) :=
  reads (·.oracles.result.lookup (marketId, oracleId))

def setOracleResult (marketId oracleId outcome : Nat) : Body Unit := do
  -- `outcome` is stored unchecked, for a market that need not exist
  update fun w => { w with
    oracles.result := w.oracles.result.insert (marketId, oracleId) outcome
    oracles.lastUpdate := w.oracles.lastUpdate.insert (marketId, oracleId) w.timestamp }
  let market ← getMarket marketId
  let oracleAddr := (market.map (·.oracleConfig.oracleAddress)).getD currentContractAddress
  publish (.oracleOk marketId oracleAddr oracleId outcome)

/-! ## §2. What each leaves behind. -/

section Rules

variable {env : Env} {w w' : World} {u : Unit}

/-- No answer stored for one of these indices is older than `maxStaleness`. -/
def NoneStale (w : World) (marketId maxStaleness : Nat) (idxs : List Nat) : Prop :=
  ∀ idx ∈ idxs, ∀ t, w.oracles.lastUpdate.lookup (marketId, idx) = some t →
    w.timestamp - t ≤ maxStaleness

/-- The loop returns only when nothing is stale, and then says whether some
index has reported. -/
theorem checkLastUpdates_ok {marketId maxStaleness : Nat} {idxs : List Nat} {found any : Bool}
    (h : checkLastUpdates marketId maxStaleness idxs found env w = (.ok any, w')) :
    NoneStale w marketId maxStaleness idxs
      ∧ any = (found || idxs.any fun idx =>
          (w.oracles.lastUpdate.lookup (marketId, idx)).isSome)
      ∧ w = w' := by
  induction idxs generalizing found w with
  | nil =>
      -- no index left: the flag is what was found so far
      obtain ⟨rfl, rfl⟩ := pure_eq_ok.mp h
      exact ⟨fun _ hi => absurd hi List.not_mem_nil, by simp, rfl⟩
  | cons idx rest ih =>
      simp only [checkLastUpdates, bind_eq_ok, reads_eq_ok, and_assoc, exists_and_left,
        exists_eq_left'] at h
      obtain ⟨_, _, hstale, h⟩ := h
      -- a stale answer ends the loop with an error, a fresh one is noted
      rcases whenever_eq_ok.mp hstale with ⟨_, hstale⟩ | ⟨hfresh, rfl⟩
      · simp at hstale
      · obtain ⟨hrest, hany, rfl⟩ := ih h
        refine ⟨?_, ?_, rfl⟩
        · intro i hi t ht
          rcases List.mem_cons.mp hi with rfl | hi
          · exact not_lt.mp fun hlt => hfresh ⟨t, ht, hlt⟩
          · exact hrest i hi t ht
        · rw [hany, List.any_cons, Bool.or_assoc]

/-- The staleness check reads only; it passes when some index below the quorum
has an answer and none of those answers is stale. -/
theorem validateOracleStaleness_ok {marketId : Nat} {config : OracleConfig}
    (h : validateOracleStaleness marketId config env w = (.ok u, w')) :
    NoneStale w marketId (effectiveMaxStaleness config)
        (List.range (config.minResponses.getD 1))
      ∧ (∃ idx < config.minResponses.getD 1,
          (w.oracles.lastUpdate.lookup (marketId, idx)).isSome)
      ∧ w = w' := by
  simp only [validateOracleStaleness, bind_eq_ok] at h
  obtain ⟨any, v, hloop, h⟩ := h
  obtain ⟨hfresh, hany, rfl⟩ := checkLastUpdates_ok hloop
  rcases whenever_eq_ok.mp h with ⟨_, h⟩ | ⟨hfound, rfl⟩
  · simp at h
  · rw [Bool.not_eq_false, hany] at hfound
    simp only [Bool.false_or, List.any_eq_true, List.mem_range] at hfound
    exact ⟨hfresh, hfound, rfl⟩

@[simp] theorem getOracleResult_ok {marketId oracleId : Nat} {o : Option Nat} :
    getOracleResult marketId oracleId env w = (.ok o, w') ↔
      w.oracles.result.lookup (marketId, oracleId) = o ∧ w = w' := reads_eq_ok

theorem setOracleResult_ok {marketId oracleId outcome : Nat}
    (h : setOracleResult marketId oracleId outcome env w = (.ok u, w')) :
    ∃ source, w' = { w with
      oracles.result := w.oracles.result.insert (marketId, oracleId) outcome
      oracles.lastUpdate := w.oracles.lastUpdate.insert (marketId, oracleId) w.timestamp
      events := w.events ++ [.oracleOk marketId source oracleId outcome] } := by
  simp only [setOracleResult, bind_eq_ok, update_eq_ok, getMarket_ok, publish_ok, and_assoc,
    exists_and_left, exists_eq_left', exists_eq_left, exists_const] at h
  exact ⟨_, h⟩

end Rules

end PredictIQ.Contract
