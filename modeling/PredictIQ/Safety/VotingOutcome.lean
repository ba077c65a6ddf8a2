/-
  PredictIQ.Safety.VotingOutcome: which outcome a vote list decides.

  The count keeps one tally for each outcome in order of first appearance, and
  takes the first largest of them for the winner if it holds at least 60% of
  the whole weight, rounded down to basis points.  For positive weights this
  is the exact threshold `10 · weight ≥ 6 · total`: at most one outcome meets
  it, so that neither the order of the votes nor the tie at the top matters.
-/
import PredictIQ.Contract.Resolution
import Mathlib.Algebra.Order.BigOperators.Group.List

namespace PredictIQ.Contract

open Foundation Tx

/-! ## §1. Weights. -/

/-- The weight of all votes. -/
def totalWeight (votes : List Vote) : Int := (votes.map fun v => v.weight).sum

/-- The weight of the votes for `o`. -/
def outcomeWeight (votes : List Vote) (o : Nat) : Int :=
  ((votes.filter fun v => v.outcome = o).map fun v => v.weight).sum

/-- The count overflows nowhere: neither the whole weight nor 10000 times the
largest weight of an outcome. -/
def CountFits (votes : List Vote) : Prop :=
  totalWeight votes < 2 ^ 127 ∧ ∀ o, outcomeWeight votes o * 10000 < 2 ^ 127

/-- There are votes, and at least 60% of the weight is for `o`. -/
def HasMajority (votes : List Vote) (o : Nat) : Prop :=
  votes ≠ [] ∧ 6 * totalWeight votes ≤ 10 * outcomeWeight votes o

section Weights

variable {votes votes' : List Vote} {o o' : Nat}

theorem totalWeight_cons (v : Vote) (votes : List Vote) : totalWeight (v :: votes) = v.weight + totalWeight votes :=
  List.sum_cons

theorem outcomeWeight_cons (v : Vote) (votes : List Vote) (o : Nat) :
    outcomeWeight (v :: votes) o = (if v.outcome = o then v.weight else 0) + outcomeWeight votes o := by
  unfold outcomeWeight
  rw [List.filter_cons]
  by_cases h : v.outcome = o
  · simp [h]
  · simp [h]

theorem totalWeight_append (votes votes' : List Vote) :
    totalWeight (votes ++ votes') = totalWeight votes + totalWeight votes' := by
  unfold totalWeight
  rw [List.map_append, List.sum_append]

theorem outcomeWeight_append (votes votes' : List Vote) (o : Nat) :
    outcomeWeight (votes ++ votes') o = outcomeWeight votes o + outcomeWeight votes' o := by
  unfold outcomeWeight
  rw [List.filter_append, List.map_append, List.sum_append]

theorem totalWeight_nonneg (hpos : ∀ v ∈ votes, 0 < v.weight) : 0 ≤ totalWeight votes := by
  refine List.sum_nonneg fun x hx => ?_
  obtain ⟨v, hv, rfl⟩ := List.mem_map.mp hx
  exact (hpos v hv).le

theorem outcomeWeight_nonneg (hpos : ∀ v ∈ votes, 0 < v.weight) (o : Nat) : 0 ≤ outcomeWeight votes o := by
  refine List.sum_nonneg fun x hx => ?_
  obtain ⟨v, hv, rfl⟩ := List.mem_map.mp hx
  exact (hpos v (List.mem_filter.mp hv).1).le

/-- Two outcomes share the whole weight with what is left. -/
theorem outcomeWeight_add_le (hpos : ∀ v ∈ votes, 0 < v.weight) (hne : o ≠ o') :
    outcomeWeight votes o + outcomeWeight votes o' ≤ totalWeight votes := by
  induction votes with
  | nil => exact le_refl 0
  | cons v votes ih =>
      have hv := hpos v List.mem_cons_self
      have hrest := ih fun v' hv' => hpos v' (List.mem_cons_of_mem _ hv')
      rw [outcomeWeight_cons, outcomeWeight_cons, totalWeight_cons]
      split <;> split <;> omega

theorem outcomeWeight_le_totalWeight (hpos : ∀ v ∈ votes, 0 < v.weight) (o : Nat) :
    outcomeWeight votes o ≤ totalWeight votes := by
  have hother := outcomeWeight_nonneg hpos (o + 1)
  have hle := outcomeWeight_add_le hpos (Nat.succ_ne_self o).symm
  change outcomeWeight votes o + outcomeWeight votes (o + 1) ≤ _ at hle
  omega

theorem outcomeWeight_pos (hpos : ∀ v ∈ votes, 0 < v.weight) {v : Vote} (hv : v ∈ votes) :
    0 < outcomeWeight votes v.outcome := by
  obtain ⟨before, after, rfl⟩ := List.append_of_mem hv
  have hbefore := outcomeWeight_nonneg (fun v' hv' => hpos v' (List.mem_append_left _ hv')) v.outcome
  have hafter := outcomeWeight_nonneg
    (fun v' hv' => hpos v' (List.mem_append_right _ (List.mem_cons_of_mem _ hv'))) v.outcome
  have hweight := hpos v hv
  rw [outcomeWeight_append, outcomeWeight_cons, if_pos rfl]
  omega

/-- An outcome nobody voted for weighs nothing. -/
theorem outcomeWeight_eq_zero (h : ∀ v ∈ votes, v.outcome ≠ o) : outcomeWeight votes o = 0 := by
  have hnone : votes.filter (fun v => v.outcome = o) = [] := by
    refine List.filter_eq_nil_iff.mpr fun v hv => ?_
    simpa using h v hv
  unfold outcomeWeight
  rw [hnone]
  rfl

theorem totalWeight_perm (h : votes.Perm votes') : totalWeight votes = totalWeight votes' :=
  (h.map _).sum_eq

theorem outcomeWeight_perm (h : votes.Perm votes') (o : Nat) : outcomeWeight votes o = outcomeWeight votes' o :=
  ((h.filter _).map _).sum_eq

/-- Two outcomes cannot both hold 60% of a positive weight. -/
theorem HasMajority.unique (hpos : ∀ v ∈ votes, 0 < v.weight) (h : HasMajority votes o) (h' : HasMajority votes o') :
    o = o' := by
  by_contra hne
  obtain ⟨v, hv⟩ := List.exists_mem_of_ne_nil votes h.1
  have hsome := outcomeWeight_pos hpos hv
  have hle := outcomeWeight_le_totalWeight hpos v.outcome
  have hshared := outcomeWeight_add_le hpos hne
  have hmost := h.2
  have hmost' := h'.2
  omega

end Weights

/-! ## §2. The counting loop. -/

section Counting

variable {vote : Vote} {votes : List Vote} {keys : List Nat} {f : Nat → Int}

/-- A vote moves no tally of another outcome. -/
theorem tallies_of_not_mem (hmem : vote.outcome ∉ keys) :
    (keys.map fun o => (o, f o)) = keys.map fun o => (o, f o + if vote.outcome = o then vote.weight else 0) := by
  refine List.map_congr_left fun o ho => ?_
  have hne : vote.outcome ≠ o := fun heq => hmem (by rw [heq]; exact ho)
  rw [if_neg hne, add_zero]

/-- A vote for an outcome that has a tally is added to it. -/
theorem addToTallies_of_mem (hnodup : keys.Nodup) (hmem : vote.outcome ∈ keys)
    (hfits : checkedAdd (f vote.outcome) vote.weight = some (f vote.outcome + vote.weight)) :
    addToTallies vote (keys.map fun o => (o, f o))
      = some (keys.map fun o => (o, f o + if vote.outcome = o then vote.weight else 0)) := by
  induction keys with
  | nil => cases hmem
  | cons k keys ih =>
      rw [List.nodup_cons] at hnodup
      show (if k = vote.outcome then _ else _) = _
      by_cases hk : k = vote.outcome
      · subst hk
        rw [if_pos rfl, hfits]
        -- the rest has no tally of this outcome
        rw [tallies_of_not_mem hnodup.1, List.map_cons, if_pos rfl]
        rfl
      · have hin : vote.outcome ∈ keys := (List.mem_cons.mp hmem).resolve_left fun h => hk h.symm
        rw [if_neg hk, ih hnodup.2 hin, List.map_cons, if_neg fun h => hk h.symm, add_zero]
        rfl

/-- The first vote for an outcome opens a tally. -/
theorem addToTallies_of_not_mem (hmem : vote.outcome ∉ keys) :
    addToTallies vote (keys.map fun o => (o, f o)) = some ((keys.map fun o => (o, f o)) ++ [(vote.outcome, vote.weight)]) := by
  induction keys with
  | nil => rfl
  | cons k keys ih =>
      rw [List.mem_cons, not_or] at hmem
      show (if k = vote.outcome then _ else _) = _
      rw [if_neg fun h => hmem.1 h.symm, ih hmem.2]
      rfl

/-- The running total is the weight so far, and fits. -/
theorem aggregateVotes_total {total : Int} {tallies : List (Nat × Int)} {r : Int × List (Nat × Int)}
    (h : aggregateVotes votes total tallies = some r) (hfits : total < 2 ^ 127) :
    r.1 = total + totalWeight votes ∧ r.1 < 2 ^ 127 := by
  induction votes generalizing total tallies with
  | nil =>
      obtain rfl := Option.some.inj h
      exact ⟨(add_zero total).symm, hfits⟩
  | cons v votes ih =>
      obtain ⟨total', htotal, h⟩ := Option.bind_eq_some_iff.mp h
      obtain ⟨tallies', -, h⟩ := Option.bind_eq_some_iff.mp h
      obtain ⟨hrange, rfl⟩ := inI128_eq_some.mp htotal
      obtain ⟨heq, hlt⟩ := ih h hrange.2
      rw [totalWeight_cons]
      exact ⟨by omega, hlt⟩

/-- The outcomes voted for, in order of first appearance. -/
structure Appear (votes : List Vote) (keys : List Nat) : Prop where
  nodup : keys.Nodup
  mem_iff : ∀ o, o ∈ keys ↔ ∃ v ∈ votes, v.outcome = o

/-- One vote more: the tallies hold the weights again. -/
theorem Appear.add {seen : List Vote} (hpos : ∀ v ∈ seen, 0 < v.weight) (h : Appear seen keys) (hweight : 0 < vote.weight)
    (hfits : totalWeight seen + vote.weight < 2 ^ 127) :
    ∃ keys', Appear (seen ++ [vote]) keys'
      ∧ addToTallies vote (keys.map fun o => (o, outcomeWeight seen o))
        = some (keys'.map fun o => (o, outcomeWeight (seen ++ [vote]) o)) := by
  have hnext : ∀ o, outcomeWeight (seen ++ [vote]) o = outcomeWeight seen o + if vote.outcome = o then vote.weight else 0 := by
    intro o
    rw [outcomeWeight_append, outcomeWeight_cons]
    show _ + (_ + 0) = _
    omega
  have hseen : ∀ o, (∃ v ∈ seen ++ [vote], v.outcome = o) ↔ o ∈ keys ∨ o = vote.outcome := by
    intro o
    rw [h.mem_iff]
    simp only [List.mem_append, List.mem_singleton, or_and_right, exists_or, exists_eq_left, eq_comm (a := o)]
  simp only [hnext]
  by_cases hmem : vote.outcome ∈ keys
  · refine ⟨keys, ⟨h.nodup, fun o => ?_⟩, addToTallies_of_mem h.nodup hmem (inI128_eq_some.mpr ⟨?_, rfl⟩)⟩
    · rw [hseen]
      constructor
      · exact Or.inl
      · intro ho
        rcases ho with ho | rfl
        · exact ho
        · exact hmem
    · have hnn := outcomeWeight_nonneg hpos vote.outcome
      have hle := outcomeWeight_le_totalWeight hpos vote.outcome
      omega
  · refine ⟨keys ++ [vote.outcome], ⟨?_, fun o => ?_⟩, ?_⟩
    · rw [List.nodup_append_comm]
      exact List.nodup_cons.mpr ⟨hmem, h.nodup⟩
    · rw [hseen, List.mem_append, List.mem_singleton]
    · have hzero : outcomeWeight seen vote.outcome = 0 :=
        outcomeWeight_eq_zero fun v hv hout => hmem ((h.mem_iff _).mpr ⟨v, hv, hout⟩)
      rw [addToTallies_of_not_mem hmem, List.map_append, List.map_singleton, hzero, if_pos rfl, zero_add]
      rw [tallies_of_not_mem hmem]

/-- Votes whose weight fits are all counted. -/
theorem Appear.aggregate {seen : List Vote} (hpos : ∀ v ∈ seen ++ votes, 0 < v.weight) (h : Appear seen keys)
    (hfits : totalWeight (seen ++ votes) < 2 ^ 127) :
    ∃ keys', Appear (seen ++ votes) keys'
      ∧ aggregateVotes votes (totalWeight seen) (keys.map fun o => (o, outcomeWeight seen o))
        = some (totalWeight (seen ++ votes), keys'.map fun o => (o, outcomeWeight (seen ++ votes) o)) := by
  induction votes generalizing seen keys with
  | nil =>
      rw [List.append_nil]
      exact ⟨keys, h, rfl⟩
  | cons v votes ih =>
      have hassoc : seen ++ v :: votes = (seen ++ [v]) ++ votes := by simp
      rw [hassoc] at hpos hfits ⊢
      have hpos' : ∀ v' ∈ seen ++ [v], 0 < v'.weight := fun v' hv' => hpos v' (List.mem_append_left _ hv')
      have hseen : ∀ v' ∈ seen, 0 < v'.weight := fun v' hv' => hpos' v' (List.mem_append_left _ hv')
      have hweight : 0 < v.weight := hpos' v (List.mem_append_right _ List.mem_cons_self)
      have hrest := totalWeight_nonneg fun v' hv' => hpos v' (List.mem_append_right _ hv')
      have hnn := totalWeight_nonneg hseen
      have hlast : totalWeight (seen ++ [v]) = totalWeight seen + v.weight := by
        rw [totalWeight_append, totalWeight_cons]
        show _ + (_ + 0) = _
        omega
      have hnow : totalWeight seen + v.weight < 2 ^ 127 := by
        rw [totalWeight_append, hlast] at hfits
        omega
      obtain ⟨keys₁, hkeys₁, hadd⟩ := h.add hseen hweight hnow
      obtain ⟨keys', hkeys', hagg⟩ := ih hpos hkeys₁ hfits
      refine ⟨keys', hkeys', ?_⟩
      have hchecked : checkedAdd (totalWeight seen) v.weight = some (totalWeight (seen ++ [v])) := by
        rw [hlast]
        exact inI128_eq_some.mpr ⟨⟨by omega, hnow⟩, rfl⟩
      rw [← hagg]
      show (checkedAdd (totalWeight seen) v.weight).bind _ = _
      rw [hchecked]
      show (addToTallies v _).bind _ = _
      rw [hadd]
      rfl

end Counting

/-! ## §3. The winner. -/

/-- The comparison of `calculate_voting_outcome`: only a larger tally replaces the best. -/
def better (best tally : Nat × Int) : Nat × Int := if best.2 < tally.2 then tally else best

theorem foldl_better (tallies : List (Nat × Int)) (best : Nat × Int) :
    best.2 ≤ (tallies.foldl better best).2
      ∧ (∀ t ∈ tallies, t.2 ≤ (tallies.foldl better best).2)
      ∧ (tallies.foldl better best = best ∨ tallies.foldl better best ∈ tallies) := by
  induction tallies generalizing best with
  | nil => simp
  | cons tally tallies ih =>
      obtain ⟨hstart, hrest, hfrom⟩ := ih (better best tally)
      have hbetter : best.2 ≤ (better best tally).2 ∧ tally.2 ≤ (better best tally).2
          ∧ (better best tally = best ∨ better best tally = tally) := by
        unfold better
        split
        · exact ⟨by omega, le_refl _, Or.inr rfl⟩
        · exact ⟨le_refl _, by omega, Or.inl rfl⟩
      rw [List.foldl_cons]
      refine ⟨hbetter.1.trans hstart, ?_, ?_⟩
      · rw [List.forall_mem_cons]
        exact ⟨hbetter.2.1.trans hstart, hrest⟩
      · rcases hfrom with hfrom | hfrom
        · rw [hfrom, List.mem_cons]
          rcases hbetter.2.2 with hb | hb
          · exact Or.inl hb
          · exact Or.inr (Or.inl hb)
        · exact Or.inr (List.mem_cons_of_mem _ hfrom)

section Winner

variable {votes : List Vote} {keys : List Nat} {env : Env} {w : World}

/-- The leader is an outcome that was voted for, with the largest weight of all. -/
theorem Appear.leadingOutcome_eq (hpos : ∀ v ∈ votes, 0 < v.weight) (hsome : votes ≠ []) (h : Appear votes keys) :
    ∃ o, leadingOutcome (keys.map fun o => (o, outcomeWeight votes o)) = (o, outcomeWeight votes o)
      ∧ ∀ p, outcomeWeight votes p ≤ outcomeWeight votes o := by
  have hspec := foldl_better (keys.map fun o => (o, outcomeWeight votes o)) (0, 0)
  change _ ∧ (∀ t ∈ _, _ ≤ (leadingOutcome (keys.map fun o => (o, outcomeWeight votes o))).2)
    ∧ (leadingOutcome _ = _ ∨ leadingOutcome _ ∈ _) at hspec
  obtain ⟨-, hlargest, hfrom⟩ := hspec
  have htally : ∀ v ∈ votes, outcomeWeight votes v.outcome
      ≤ (leadingOutcome (keys.map fun o => (o, outcomeWeight votes o))).2 := by
    intro v hv
    exact hlargest (v.outcome, _) (List.mem_map.mpr ⟨v.outcome, (h.mem_iff _).mpr ⟨v, hv, rfl⟩, rfl⟩)
  obtain ⟨v, hv⟩ := List.exists_mem_of_ne_nil votes hsome
  have hv_pos := outcomeWeight_pos hpos hv
  have hv_le := htally v hv
  rcases hfrom with hnone | hmem
  · -- a voted outcome has a positive tally
    rw [hnone] at hv_le
    change _ ≤ (0 : Int) at hv_le
    omega
  · obtain ⟨o, -, ho⟩ := List.mem_map.mp hmem
    rw [← ho] at htally
    refine ⟨o, ho.symm, fun p => ?_⟩
    by_cases hp : ∃ v' ∈ votes, v'.outcome = p
    · obtain ⟨v', hv', rfl⟩ := hp
      exact htally v' hv'
    · rw [outcomeWeight_eq_zero fun v' hv' hout => hp ⟨v', hv', hout⟩]
      exact outcomeWeight_nonneg hpos o

/-- What is done with the leader: the largest weight `most`, out of `total`. -/
theorem calculateVotingOutcome_of_leader {total most : Int} {tallies : List (Nat × Int)} {o : Nat}
    (hagg : aggregateVotes votes 0 [] = some (total, tallies)) (hlead : leadingOutcome tallies = (o, most))
    (htotal : 0 < total) (hmost : 0 ≤ most) :
    calculateVotingOutcome votes env w
      = (if most * 10000 < 2 ^ 127 then
          if 6 * total ≤ 10 * most then .ok o else .error (.error .noMajority)
        else .error (.error .arithmeticOverflow), w) := by
  unfold calculateVotingOutcome
  rw [hagg]
  show (do
      failIf (total = 0) .noVotesCast
      let scaled ← orErr (checkedMul (leadingOutcome tallies).2 10000) .arithmeticOverflow
      let majorityPct ← orErr (checkedDiv scaled total) .arithmeticOverflow
      failIf (majorityPct < majorityThresholdBps) .noMajority
      pure (leadingOutcome tallies).1 : Body Nat) env w = _
  rw [hlead, bind_of_ok ((failIf_ok (u := ())).mpr ⟨htotal.ne', rfl⟩)]
  by_cases hfits : most * 10000 < 2 ^ 127
  · have hmul : checkedMul most 10000 = some (most * 10000) := inI128_eq_some.mpr ⟨⟨by omega, hfits⟩, rfl⟩
    have hdiv : checkedDiv (most * 10000) total = some (most * 10000 / total) :=
      checkedDiv_of_nonneg (by omega) hfits htotal
    -- the truncated percentage reaches the threshold exactly where the quotient does
    have hthreshold : most * 10000 / total < majorityThresholdBps ↔ ¬6 * total ≤ 10 * most := by
      unfold majorityThresholdBps
      rw [Int.ediv_lt_iff_lt_mul htotal]
      omega
    rw [if_pos hfits, bind_of_ok (orErr_ok.mpr ⟨hmul, rfl⟩), bind_of_ok (orErr_ok.mpr ⟨hdiv, rfl⟩)]
    by_cases hmajority : 6 * total ≤ 10 * most
    · rw [if_pos hmajority, bind_of_ok ((failIf_ok (u := ())).mpr ⟨fun h => hthreshold.mp h hmajority, rfl⟩)]
      rfl
    · rw [if_neg hmajority, bind_of_error (failIf_of_pos (hthreshold.mpr hmajority))]
  · have hmul : checkedMul most 10000 = none := by
      unfold checkedMul inI128
      rw [if_neg fun h => hfits h.2]
    rw [if_neg hfits, hmul]
    rfl

/-- Votes whose weight fits have a leader. -/
theorem exists_leader (hpos : ∀ v ∈ votes, 0 < v.weight) (hsome : votes ≠ []) (hfits : totalWeight votes < 2 ^ 127) :
    ∃ tallies o, aggregateVotes votes 0 [] = some (totalWeight votes, tallies)
      ∧ leadingOutcome tallies = (o, outcomeWeight votes o)
      ∧ (∀ p, outcomeWeight votes p ≤ outcomeWeight votes o) ∧ 0 < totalWeight votes := by
  have hnone : Appear [] [] := ⟨List.nodup_nil, by simp⟩
  obtain ⟨keys, hkeys, hagg⟩ := hnone.aggregate hpos hfits
  obtain ⟨o, hlead, hmost⟩ := hkeys.leadingOutcome_eq hpos hsome
  obtain ⟨v, hv⟩ := List.exists_mem_of_ne_nil votes hsome
  have hvoted := outcomeWeight_pos hpos hv
  have hle := outcomeWeight_le_totalWeight hpos v.outcome
  exact ⟨_, o, hagg, hlead, hmost, by omega⟩

/-- Votes that overflow are reported as such. -/
theorem calculateVotingOutcome_of_not_fits (hpos : ∀ v ∈ votes, 0 < v.weight) (hfits : ¬CountFits votes) :
    calculateVotingOutcome votes env w = (.error (.error .arithmeticOverflow), w) := by
  cases hagg : aggregateVotes votes 0 [] with
  | none =>
      unfold calculateVotingOutcome
      rw [hagg]
      rfl
  | some r =>
      -- the total fits, so that it is the percentage that does not
      obtain ⟨htotal, hlt⟩ := aggregateVotes_total hagg (by decide)
      rw [zero_add] at htotal
      rw [htotal] at hlt
      obtain ⟨p, hp⟩ : ∃ p, ¬outcomeWeight votes p * 10000 < 2 ^ 127 := by
        by_contra hall
        exact hfits ⟨hlt, fun p => by_contra fun hp => hall ⟨p, hp⟩⟩
      have hsome : votes ≠ [] := by
        intro hnil
        rw [outcomeWeight_eq_zero (by simp [hnil])] at hp
        exact hp (by decide)
      obtain ⟨tallies, o, hagg', hlead, hmost, hpositive⟩ := exists_leader hpos hsome hlt
      have hp_le := hmost p
      rw [calculateVotingOutcome_of_leader hagg' hlead hpositive (outcomeWeight_nonneg hpos o), if_neg (by omega)]

/-- Votes that fit are decided by an outcome of the largest weight, if it holds 60%. -/
theorem calculateVotingOutcome_of_fits (env : Env) (w : World) (hpos : ∀ v ∈ votes, 0 < v.weight) (hsome : votes ≠ [])
    (hfits : CountFits votes) :
    ∃ o, (∀ p, outcomeWeight votes p ≤ outcomeWeight votes o)
      ∧ calculateVotingOutcome votes env w
        = (if 6 * totalWeight votes ≤ 10 * outcomeWeight votes o then .ok o else .error (.error .noMajority), w) := by
  obtain ⟨tallies, o, hagg, hlead, hmost, hpositive⟩ := exists_leader hpos hsome hfits.1
  refine ⟨o, hmost, ?_⟩
  rw [calculateVotingOutcome_of_leader hagg hlead hpositive (outcomeWeight_nonneg hpos o), if_pos (hfits.2 o)]

theorem calculateVotingOutcome_nil : calculateVotingOutcome [] env w = (.error (.error .noVotesCast), w) := rfl

/-- The winner is the outcome with the majority. -/
theorem calculateVotingOutcome_ok_iff (hpos : ∀ v ∈ votes, 0 < v.weight) (o : Nat) :
    (calculateVotingOutcome votes env w).1 = .ok o ↔ CountFits votes ∧ HasMajority votes o := by
  by_cases hfits : CountFits votes
  · by_cases hsome : votes = []
    · subst hsome
      rw [calculateVotingOutcome_nil]
      exact iff_of_false (fun h => by cases h) fun h => h.2.1 rfl
    · obtain ⟨o', hmost, heq⟩ := calculateVotingOutcome_of_fits env w hpos hsome hfits
      rw [heq]
      split
      · rename_i hmajority
        constructor
        · intro h
          obtain rfl := Except.ok.inj h
          exact ⟨hfits, hsome, hmajority⟩
        · intro h
          rw [HasMajority.unique hpos h.2 ⟨hsome, hmajority⟩]
      · rename_i hminority
        refine iff_of_false (fun h => by cases h) fun h => ?_
        have hle := hmost o
        have hshare := h.2.2
        omega
  · rw [calculateVotingOutcome_of_not_fits hpos hfits]
    exact iff_of_false (fun h => by cases h) fun h => hfits h.1

theorem calculateVotingOutcome_overflow_iff (hpos : ∀ v ∈ votes, 0 < v.weight) :
    (calculateVotingOutcome votes env w).1 = .error (.error .arithmeticOverflow) ↔ ¬CountFits votes := by
  by_cases hfits : CountFits votes
  · refine iff_of_false ?_ fun h => h hfits
    by_cases hsome : votes = []
    · subst hsome
      rw [calculateVotingOutcome_nil]
      intro h
      cases h
    · obtain ⟨o, -, heq⟩ := calculateVotingOutcome_of_fits env w hpos hsome hfits
      rw [heq]
      split <;> intro h <;> cases h
  · rw [calculateVotingOutcome_of_not_fits hpos hfits]
    exact iff_of_true rfl hfits

theorem CountFits.perm {votes' : List Vote} (h : votes.Perm votes') : CountFits votes ↔ CountFits votes' := by
  unfold CountFits
  simp only [totalWeight_perm h, outcomeWeight_perm h]

/-- The order of the votes does not matter, errors included. -/
theorem calculateVotingOutcome_perm {votes' : List Vote} (hpos : ∀ v ∈ votes, 0 < v.weight) (h : votes.Perm votes') :
    calculateVotingOutcome votes env w = calculateVotingOutcome votes' env w := by
  have hpos' : ∀ v ∈ votes', 0 < v.weight := fun v hv => hpos v (h.mem_iff.mpr hv)
  by_cases hfits : CountFits votes
  · by_cases hsome : votes = []
    · subst hsome
      rw [h.nil_eq]
    · have hsome' : votes' ≠ [] := fun hnil => hsome (by rw [hnil] at h; exact h.eq_nil)
      obtain ⟨o, hmost, heq⟩ := calculateVotingOutcome_of_fits env w hpos hsome hfits
      obtain ⟨o', hmost', heq'⟩ :=
        calculateVotingOutcome_of_fits env w hpos' hsome' ((CountFits.perm h).mp hfits)
      simp only [← totalWeight_perm h, ← outcomeWeight_perm h] at hmost' heq'
      -- both leaders carry the largest weight
      have hequal : outcomeWeight votes o' = outcomeWeight votes o := le_antisymm (hmost o') (hmost' o)
      rw [heq, heq', hequal]
      split
      · rename_i hmajority
        rw [HasMajority.unique hpos ⟨hsome, hmajority⟩ ⟨hsome, hequal ▸ hmajority⟩]
      · rfl
  · rw [calculateVotingOutcome_of_not_fits hpos hfits,
      calculateVotingOutcome_of_not_fits hpos' fun hfits' => hfits ((CountFits.perm h).mpr hfits')]

/-- Where two outcomes share the largest weight there is no majority. -/
theorem not_hasMajority_of_tie (hpos : ∀ v ∈ votes, 0 < v.weight) {o o' p : Nat} (hne : o ≠ o')
    (htie : outcomeWeight votes o = outcomeWeight votes o') (hmost : ∀ p, outcomeWeight votes p ≤ outcomeWeight votes o) :
    ¬HasMajority votes p := by
  intro h
  obtain ⟨v, hv⟩ := List.exists_mem_of_ne_nil votes h.1
  have hvoted := outcomeWeight_pos hpos hv
  have hv_le := hmost v.outcome
  have hp_le := hmost p
  have hshared := outcomeWeight_add_le hpos hne
  have hshare := h.2
  omega

end Winner

/-- **The votes decide on the outcome with 60% of their weight.**  For positive
weights the count returns `o` exactly where nothing overflows and `o` holds the
majority; no other outcome can, the order of the votes does not matter, a tie
at the top decides nothing, and overflow is reported as such. -/
theorem voting_outcome (votes : List Vote) (hpos : ∀ v ∈ votes, 0 < v.weight) (env : Env) (w : World) :
    (∀ o, (calculateVotingOutcome votes env w).1 = .ok o ↔ CountFits votes ∧ HasMajority votes o)
      ∧ (∀ o o', HasMajority votes o → HasMajority votes o' → o = o')
      ∧ (∀ votes', votes.Perm votes' → calculateVotingOutcome votes env w = calculateVotingOutcome votes' env w)
      ∧ (∀ o o', o ≠ o' → outcomeWeight votes o = outcomeWeight votes o' →
          (∀ p, outcomeWeight votes p ≤ outcomeWeight votes o) → ∀ p, (calculateVotingOutcome votes env w).1 ≠ .ok p)
      ∧ ((calculateVotingOutcome votes env w).1 = .error (.error .arithmeticOverflow) ↔ ¬CountFits votes) := by
  refine ⟨?_, ?_, ?_, ?_, ?_⟩
  · intro o
    exact calculateVotingOutcome_ok_iff hpos o
  · intro o o' h h'
    exact h.unique hpos h'
  · intro votes' h
    exact calculateVotingOutcome_perm hpos h
  · intro o o' hne htie hmost p h
    exact not_hasMajority_of_tie hpos hne htie hmost ((calculateVotingOutcome_ok_iff hpos p).mp h).2
  · exact calculateVotingOutcome_overflow_iff hpos

/-- Three of five for outcome 1. -/
def sampleCount : List Vote := [⟨1, ⟨3⟩, 1, 2⟩, ⟨1, ⟨4⟩, 0, 2⟩, ⟨1, ⟨5⟩, 1, 1⟩]

theorem voting_outcome_sample : CountFits sampleCount ∧ HasMajority sampleCount 1 :=
  ((voting_outcome sampleCount (by decide) { authorized := fun _ => true } {}).1 1).mp rfl

end PredictIQ.Contract
