/-
  PredictIQ.Safety.GuardianMajority: when is the guardian majority exact?

  `is_majority_met` and `emergency_pause` add voting powers in `u32`, and the
  former multiplies by 100 in `u32` before it divides; the release profile
  turns an overflow into a trap.  Nobody bounds the powers.  The check is
  exact as long as the numbers fit, and a vote that does not fit cannot be
  cast at all.
-/
import PredictIQ.Safety.EmergencyBallot

namespace PredictIQ.Contract

open Foundation Tx

variable {X : Externs}

/-! ## §1. The property. -/

/-- The check and both sums of `emergency_pause` come out, and the check says
whether the voters hold 51 percent of a positive total. -/
structure MajorityExact (guardians : List Guardian) (votes : List Address) : Prop where
  checks : isMajorityMet guardians votes ≠ none
  sums : sumPowers (guardians.map (·.votingPower)) 0 ≠ none
  tallies : pausePower guardians votes ≠ none
  exact : isMajorityMet guardians votes = some true ↔
    51 * totalPower guardians ≤ 100 * powerHeld guardians votes ∧ 0 < totalPower guardians

/-- The total fits, and unless it is 0 so does a hundred times the votes. -/
def PowersFit (guardians : List Guardian) (votes : List Address) : Prop :=
  totalPower guardians < 2 ^ 32
    ∧ (totalPower guardians = 0 ∨ 100 * powerHeld guardians votes < 2 ^ 32)

/-! ## §2. The sums. -/

theorem inU32_ne_none {n : Nat} : inU32 n ≠ none ↔ n < 2 ^ 32 := by
  unfold inU32
  split <;> simp_all

theorem totalPower_sum (guardians : List Guardian) :
    sumPowers (guardians.map (·.votingPower)) 0 = inU32 (totalPower guardians) := by
  rw [sumPowers_eq (by norm_num), Nat.zero_add]
  rfl

/-- Voters hold no more than everybody. -/
theorem powerHeld_le_totalPower (guardians : List Guardian) (votes : List Address) :
    powerHeld guardians votes ≤ totalPower guardians :=
  (List.filter_sublist.map _).sum_le_sum fun _ _ => Nat.zero_le _

/-! ## §3. The check. -/

section Check

variable {guardians : List Guardian} {votes : List Address}

/-- Without power there is no majority. -/
theorem isMajorityMet_of_zero (h : totalPower guardians = 0) :
    isMajorityMet guardians votes = some false := by
  unfold isMajorityMet
  split
  · rfl
  · rw [totalPower_sum, h]
    rfl

/-- Distinct voters of a set with a positive total that fits: the product
decides whether the check comes out. -/
theorem isMajorityMet_eq (hguardians : (guardians.map (·.address)).Nodup) (hvotes : votes.Nodup)
    (hpos : 0 < totalPower guardians) (hfits : totalPower guardians < 2 ^ 32) :
    isMajorityMet guardians votes
      = (mulU32 (powerHeld guardians votes) 100).map fun scaled =>
          decide (51 ≤ scaled / totalPower guardians) := by
  have hne : guardians ≠ [] := by
    rintro rfl
    exact absurd hpos (by decide)
  have hheld := powerHeld_le_totalPower guardians votes
  unfold isMajorityMet
  rw [if_neg hne, totalPower_sum, (tallies_agree hguardians hvotes).1]
  simp only [inU32, if_pos hfits, if_pos (lt_of_le_of_lt hheld hfits), Option.bind_eq_bind,
    Option.bind_some, if_neg (Nat.ne_of_gt hpos)]
  cases mulU32 (powerHeld guardians votes) 100 with
  | none => rfl
  | some scaled => rfl

end Check

/-- **Guardian majority is exact** exactly where the powers fit. -/
theorem majority_exact_iff (guardians : List Guardian) (votes : List Address)
    (hguardians : (guardians.map (·.address)).Nodup) (hvotes : votes.Nodup) :
    MajorityExact guardians votes ↔ PowersFit guardians votes := by
  have hheld := powerHeld_le_totalPower guardians votes
  constructor
  · intro h
    have hfits : totalPower guardians < 2 ^ 32 := by
      refine inU32_ne_none.mp ?_
      rw [← totalPower_sum]
      exact h.sums
    refine ⟨hfits, ?_⟩
    by_cases hzero : totalPower guardians = 0
    · exact Or.inl hzero
    · have hchecks := h.checks
      rw [isMajorityMet_eq hguardians hvotes (by omega) hfits] at hchecks
      refine Or.inr ?_
      by_contra hover
      rw [mulU32, if_neg (by omega)] at hchecks
      exact hchecks rfl
  · intro h
    obtain ⟨hfits, hscaled⟩ := h
    have hsums : sumPowers (guardians.map (·.votingPower)) 0 ≠ none := by
      rw [totalPower_sum]
      exact inU32_ne_none.mpr hfits
    have htallies : pausePower guardians votes ≠ none := by
      rw [pausePower_eq]
      exact inU32_ne_none.mpr (lt_of_le_of_lt hheld hfits)
    by_cases hzero : totalPower guardians = 0
    · have hmet : isMajorityMet guardians votes = some false := isMajorityMet_of_zero hzero
      refine ⟨by rw [hmet]; simp, hsums, htallies, ?_⟩
      rw [hmet, hzero]
      simp
    · have hmet := isMajorityMet_eq hguardians hvotes (by omega) hfits
      rw [mulU32, if_pos (by omega), Option.map_some] at hmet
      refine ⟨by rw [hmet]; simp, hsums, htallies, ?_⟩
      rw [hmet, Option.some.injEq, decide_eq_true_eq, Nat.le_div_iff_mul_le (by omega),
        Nat.mul_comm (powerHeld guardians votes)]
      exact ⟨fun hle => ⟨hle, by omega⟩, fun hle => hle.1⟩

/-- Three guardians of weights 40, 30 and 30, two of them in favour. -/
theorem majority_exact_sample :
    MajorityExact [⟨⟨2⟩, 40⟩, ⟨⟨3⟩, 30⟩, ⟨⟨4⟩, 30⟩] [⟨2⟩, ⟨3⟩] :=
  (majority_exact_iff [⟨⟨2⟩, 40⟩, ⟨⟨3⟩, 30⟩, ⟨⟨4⟩, 30⟩] [⟨2⟩, ⟨3⟩] (by decide) (by decide)).mpr
    (by
      show 100 < 2 ^ 32 ∧ (100 = 0 ∨ 100 * 70 < 2 ^ 32)
      decide)

/-- The only guardian, of weight fifty million, cannot vote. -/
theorem heavy_guardian_traps :
    ¬∀ (as : List Action) (votes : List Address), GuardiansDistinct (sampleRun as) → votes.Nodup →
      MajorityExact (sampleRun as).governance.getGuardians votes := by
  intro h
  have hset : (sampleRun (guardianOpening [⟨⟨2⟩, 50000000⟩])).governance.getGuardians
      = [⟨⟨2⟩, 50000000⟩] :=
    guardianOpening_guardians (List.cons_ne_nil _ _) (by decide)
  have hdistinct : GuardiansDistinct (sampleRun (guardianOpening [⟨⟨2⟩, 50000000⟩])) := by
    unfold GuardiansDistinct
    rw [hset]
    decide
  have hmajority := h _ [⟨2⟩] hdistinct (by decide)
  rw [hset] at hmajority
  exact hmajority.checks (by decide)

end PredictIQ.Contract
