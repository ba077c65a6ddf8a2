/-
  PredictIQ.Safety.OracleQuorum: does a resolution rest on a quorum?

  `validate_oracle_staleness` walks the indices below `min_responses`, skips
  those that have not reported and asks for one that has;
  `attempt_oracle_resolution` then takes the answer of index 0.  The function
  that counts the responses and their outcomes, `validate_consensus`, is not
  called.  There is a quorum exactly when reports at higher indices make up
  for the missing ones, and a plurality when index 0 happens to have it.
-/
import PredictIQ.Contract.Lifecycle

namespace PredictIQ.Contract

open Foundation Tx

variable {X : Externs}

/-! ## §1. Reports. -/

/-- How old a report for `m` may be: `min(max_staleness_seconds, 60)`. -/
def reportMaxAge (m : Market) : Nat := min m.oracleConfig.maxStalenessSeconds maxStalenessSeconds

theorem effectiveMaxStaleness_eq (m : Market) :
    effectiveMaxStaleness m.oracleConfig = reportMaxAge m := by
  unfold effectiveMaxStaleness reportMaxAge
  split <;> omega

/-- The oracle index with a stored result for `id` that was updated at most
`maxAge` seconds ago. -/
def isFresh (w : World) (id maxAge : Nat) (k : Nat × Nat) : Prop :=
  k.1 = id ∧ ∃ t ∈ w.oracles.lastUpdate.lookup k, w.timestamp - t ≤ maxAge

instance (w : World) (id maxAge : Nat) (k : Nat × Nat) : Decidable (isFresh w id maxAge k) :=
  inferInstanceAs (Decidable (_ ∧ _))

/-- The indices of the fresh reports for a market, each once. -/
def freshIndices (w : World) (id maxAge : Nat) : List Nat :=
  (w.oracles.result.keys.filter fun k => isFresh w id maxAge k).map (·.2)

/-- How many fresh reports say `outcome`. -/
def reportsOf (w : World) (id maxAge outcome : Nat) : Nat :=
  (freshIndices w id maxAge).countP fun i => w.oracles.result.lookup (id, i) = some outcome

/-- The resolution that led to `w'` had `n` fresh reports, and no outcome has
more of them than the one it stored. -/
structure QuorumHeld (w w' : World) (id n : Nat) (m : Market) : Prop where
  quorum : n ≤ (freshIndices w id (reportMaxAge m)).length
  plurality : ∃ m' outcome, w'.markets.market.lookup id = some m'
    ∧ m'.winningOutcome = some outcome
    ∧ ∀ other, reportsOf w id (reportMaxAge m) other ≤ reportsOf w id (reportMaxAge m) outcome

/-- The indices below `n` that have never reported. -/
def missingIndices (w : World) (id n : Nat) : List Nat :=
  (List.range n).filter fun i => w.oracles.lastUpdate.lookup (id, i) = none

/-- Fresh reports from `n` on make up for the indices missing below it, and no
outcome is reported more often than that of index 0. -/
structure QuorumMadeUp (w : World) (id n : Nat) (m : Market) : Prop where
  missing : (missingIndices w id n).length
    ≤ ((freshIndices w id (reportMaxAge m)).filter (n ≤ ·)).length
  first : ∃ outcome, w.oracles.result.lookup (id, 0) = some outcome
    ∧ ∀ other, reportsOf w id (reportMaxAge m) other ≤ reportsOf w id (reportMaxAge m) outcome

/-! ## §2. Results and their times. -/

/-- A result and the time of its update are stored together. -/
def ReportsStamped (w : World) : Prop :=
  ∀ k, w.oracles.result.lookup k ≠ none ↔ w.oracles.lastUpdate.lookup k ≠ none

/-- Reports are written by `set_oracle_result` alone. -/
theorem Outcome.oracles {env : Env} {w w' : World} {c : Call} (h : Outcome X env w c w') :
    w'.oracles = w.oracles ∨ ∃ k outcome, w'.oracles =
      { result := w.oracles.result.insert k outcome
        lastUpdate := w.oracles.lastUpdate.insert k w.timestamp } := by
  cases h with
  | created _ p dw id _ hc effect =>
      obtain ⟨_, _, _, hw⟩ := effect.frame
      rw [hw]
      exact Or.inl rfl
  | bet b m fee _ effect =>
      obtain ⟨_, hw⟩ := effect.frame
      rw [hw]
      exact Or.inl rfl
  | voted voter id outcome weight v u _ m govToken vote pass effect =>
      obtain ⟨_, _, rfl⟩ := pass.frame
      obtain ⟨_, _, _, _, rfl⟩ := effect.frame
      exact Or.inl rfl
  | disputed disciplinarian id evs v _ pass moves =>
      obtain ⟨_, _, rfl⟩ := pass.frame
      obtain ⟨_, _, _, _, _, rfl⟩ := moves
      exact Or.inl rfl
  | moved _ id f evs _ hc moves =>
      obtain ⟨_, _, _, _, _, rfl⟩ := moves
      exact Or.inl rfl
  | oracleResultSet id oracleId outcome => exact Or.inr ⟨(id, oracleId), outcome, rfl⟩
  | _ => exact Or.inl rfl

theorem ReportsStamped.call {env : Env} {w w' : World} {c : Call} (h : ReportsStamped w)
    (hout : Outcome X env w c w') : ReportsStamped w' := by
  unfold ReportsStamped
  rcases hout.oracles with hsame | ⟨k, outcome, hset⟩
  · rw [hsame]
    exact h
  · rw [hset]
    intro k'
    rw [Store.mem_insert_iff, Store.mem_insert_iff, h k']

/-- **Every stored result has a time** in every reachable state. -/
theorem Reachable.reportsStamped {w : World} (h : Reachable X w) : ReportsStamped w := by
  obtain ⟨b, t, s, as, rfl⟩ := h
  refine run_call_invariant (X := X) ReportsStamped (fun _ => True) ?_
    (fun h _ hsucc => h.call hsucc.outcome) (fun _ _ h => h) (fun _ h => h) as fun _ _ => trivial
  intro k
  exact Iff.rfl

/-! ## §3. Counting. -/

section Counting

variable {w : World} {id maxAge : Nat}

theorem mem_freshIndices {i : Nat} :
    i ∈ freshIndices w id maxAge ↔ w.oracles.result.lookup (id, i) ≠ none
      ∧ ∃ t, w.oracles.lastUpdate.lookup (id, i) = some t ∧ w.timestamp - t ≤ maxAge := by
  simp only [freshIndices, isFresh, List.mem_map, List.mem_filter, decide_eq_true_eq, Prod.exists,
    exists_eq_right, Option.mem_def]
  rw [Option.ne_none_iff_isSome, AList.lookup_isSome]
  constructor
  · intro h
    obtain ⟨_, hkey, rfl, hage⟩ := h
    exact ⟨hkey, hage⟩
  · intro h
    obtain ⟨hkey, hage⟩ := h
    exact ⟨id, hkey, rfl, hage⟩

theorem nodup_freshIndices (w : World) (id maxAge : Nat) : (freshIndices w id maxAge).Nodup := by
  refine List.Nodup.map_on ?_ (w.oracles.result.keys_nodup.filter _)
  intro k hk k' hk' heq
  have hfirst : k.1 = k'.1 := by
    rw [(of_decide_eq_true (List.mem_filter.mp hk).2).1,
      (of_decide_eq_true (List.mem_filter.mp hk').2).1]
  exact Prod.ext hfirst heq

/-- With no stale report below `n`, an index there is fresh or missing. -/
theorem length_freshBelow {n : Nat} (hstamped : ReportsStamped w)
    (hfresh : NoneStale w id maxAge (List.range n)) :
    ((freshIndices w id maxAge).filter (· < n)).length + (missingIndices w id n).length = n := by
  -- the fresh ones are the indices below n that are not missing
  have hperm : ((freshIndices w id maxAge).filter (· < n)).Perm
      ((List.range n).filter fun i => ¬w.oracles.lastUpdate.lookup (id, i) = none) := by
    refine (List.perm_ext_iff_of_nodup ((nodup_freshIndices w id maxAge).filter _)
      (List.nodup_range.filter _)).mpr ?_
    intro i
    rw [List.mem_filter, List.mem_filter, mem_freshIndices, List.mem_range, decide_eq_true_eq,
      decide_eq_true_eq]
    constructor
    · intro h
      obtain ⟨⟨hres, _⟩, hlt⟩ := h
      exact ⟨hlt, (hstamped (id, i)).mp hres⟩
    · intro h
      obtain ⟨hlt, htime⟩ := h
      obtain ⟨t, ht⟩ := Option.ne_none_iff_exists'.mp htime
      exact ⟨⟨(hstamped (id, i)).mpr htime, t, ht, hfresh i (List.mem_range.mpr hlt) t ht⟩, hlt⟩
  have hsplit := List.length_eq_length_filter_add (l := List.range n)
    fun i => decide (w.oracles.lastUpdate.lookup (id, i) = none)
  rw [List.length_range] at hsplit
  rw [hperm.length_eq]
  unfold missingIndices
  simp only [decide_not]
  omega

/-- **The quorum is there** when the reports from `n` on make up for the missing. -/
theorem quorum_iff {n : Nat} (hstamped : ReportsStamped w)
    (hfresh : NoneStale w id maxAge (List.range n)) :
    n ≤ (freshIndices w id maxAge).length
      ↔ (missingIndices w id n).length ≤ ((freshIndices w id maxAge).filter (n ≤ ·)).length := by
  have hbelow := length_freshBelow hstamped hfresh
  have hsplit := List.length_eq_length_filter_add (l := freshIndices w id maxAge)
    fun i => decide (i < n)
  have habove : (freshIndices w id maxAge).filter (fun i => !decide (i < n))
      = (freshIndices w id maxAge).filter (n ≤ ·) := by
    refine List.filter_congr fun i _ => ?_
    rw [← decide_not]
    exact decide_eq_decide.mpr not_lt
  rw [habove] at hsplit
  omega

end Counting

/-! ## §4. Resolutions. -/

/-- **A resolution has its quorum** exactly when, in the state it starts from,
higher indices make up for missing ones and index 0 is not outnumbered. -/
theorem oracle_quorum_iff {env : Env} {w w' : World} {id n : Nat} {m : Market}
    (hw : Reachable X w) (hm : w.markets.market.lookup id = some m)
    (hn : m.oracleConfig.minResponses = some n)
    (h : Succeeds X env (.attemptOracleResolution id) w w') :
    QuorumHeld w w' id n m ↔ QuorumMadeUp w id n m := by
  obtain ⟨r, hr⟩ := h
  obtain ⟨m₀, outcome, hm₀, _, _, hfresh, hres, hpost⟩ :=
    attemptOracleResolution_ok (done_eq_ok.mp hr).1
  obtain rfl := Option.some.inj (hm.symm.trans hm₀)
  rw [effectiveMaxStaleness_eq, hn, Option.getD_some] at hfresh
  have hquorum := quorum_iff hw.reportsStamped hfresh
  -- the stored outcome is that of index 0
  have hkey := hw.registered.keyed id m hm
  have hstored : w'.markets.market.lookup id = some { m with
      status := .pendingResolution
      winningOutcome := some outcome
      pendingResolutionTimestamp := some w.timestamp } := by
    rw [hpost]
    simp [hkey]
  constructor
  · intro hheld
    obtain ⟨m', o, hm', ho, hmost⟩ := hheld.plurality
    obtain rfl := Option.some.inj (hstored.symm.trans hm')
    obtain rfl := Option.some.inj ho
    exact ⟨hquorum.mp hheld.quorum, outcome, hres, hmost⟩
  · intro hmade
    obtain ⟨o, ho, hmost⟩ := hmade.first
    obtain rfl := Option.some.inj (hres.symm.trans ho)
    exact ⟨hquorum.mpr hmade.missing, _, outcome, hstored, rfl, hmost⟩

/-- A market that asks for `n` responses is due, and index 0 alone has reported. -/
def sampleLoneReport (n : Nat) : List Action :=
  [.call everybody (.initializeContract ⟨1⟩ 0),
    .call everybody (.createMarket { sampleMarket ⟨2⟩ ⟨10⟩ with
      oracleConfig := { (sampleMarket ⟨2⟩ ⟨10⟩).oracleConfig with minResponses := some n } }),
    .advance 200000 0,
    .call everybody (.setOracleResult 1 0 1)]

/-- The resolution of that market goes through. -/
def sampleLoneResolution (n : Nat) : World :=
  sampleRun (sampleLoneReport n ++ [.call everybody (.attemptOracleResolution 1)])

/-- **One report resolves a market that asks for three.** -/
theorem sampleLoneReport_resolves :
    ∃ m, (sampleRun (sampleLoneReport 3)).markets.market.lookup 1 = some m
      ∧ m.oracleConfig.minResponses = some 3
      ∧ Reachable sampleExterns (sampleRun (sampleLoneReport 3))
      ∧ Succeeds sampleExterns everybody (.attemptOracleResolution 1)
          (sampleRun (sampleLoneReport 3)) (sampleLoneResolution 3)
      ∧ ¬QuorumHeld (sampleRun (sampleLoneReport 3)) (sampleLoneResolution 3) 1 3 m := by
  refine ⟨_, rfl, rfl, sampleRun_reachable _, ⟨_, rfl⟩, ?_⟩
  intro h
  exact absurd h.quorum (by decide)

/-- Where one response is asked for, the report of index 0 is the quorum. -/
theorem sampleLoneReport_quorum :
    ∃ m, (sampleRun (sampleLoneReport 1)).markets.market.lookup 1 = some m
      ∧ QuorumHeld (sampleRun (sampleLoneReport 1)) (sampleLoneResolution 1) 1 1 m := by
  have hsucc : Succeeds sampleExterns everybody (.attemptOracleResolution 1)
      (sampleRun (sampleLoneReport 1)) (sampleLoneResolution 1) := ⟨_, rfl⟩
  refine ⟨_, rfl, (oracle_quorum_iff (sampleRun_reachable _) rfl rfl hsucc).mpr
    ⟨by decide, 1, rfl, ?_⟩⟩
  -- there is one fresh report, and it says 1
  intro other
  exact List.countP_le_length

end PredictIQ.Contract
