import SvpMcp.Lib.LegacyDecOrder
import SvpMcp.Verif.LendoraRisk

/-!
# The order of the risk bands

`projectHF` on all sums below 2²⁵⁵: more collateral and less debt never give a worse band, and the
critical band is exactly the shortfall.
-/

namespace SvpMcp

/-- The bands from the safest to the worst. -/
def RiskLevel.danger : RiskLevel → Nat
  | .low => 0
  | .medium => 1
  | .high => 2
  | .critical => 3

/-- The health factor of two sums. -/
def ratioDec (collateral debt : Nat) : LegacyDec := ⟨LegacyDec.ratio collateral debt⟩

/-- Health factors are compared as ratios. -/
theorem ratioDec_lt (collateral debt units : Nat) :
    (ratioDec collateral debt).lt ⟨units⟩ = decide (LegacyDec.ratio collateral debt < units) := by
  simp only [LegacyDec.lt, ratioDec, Int.ofNat_lt]

/-- The band of two sums with a debt. -/
def bandOf (collateral debt : Nat) : RiskLevel :=
  riskBand true (if (collateral : Int) < debt then 1 else 0) (ratioDec collateral debt)

/-- Without a debt there is no health factor. -/
theorem projectHF_debtless (collateral : Int) : projectHF collateral 0 = .ok ("∞", .low, none) :=
  rfl

/-- With a debt the health factor is the rounded ratio. -/
theorem projectHF_owing {collateral debt : Nat} (owes : 0 < debt) (bounded : collateral < 2 ^ 255) :
    ∃ text warn, projectHF collateral debt = .ok (text, bandOf collateral debt, warn) ∧
      ((ratioDec collateral debt).lt hfWarn = false → warn = none) := by
  have isQuotient : decimal ((LegacyDec.ofBigInt collateral).quo (.ofBigInt debt)) =
      .ok (ratioDec collateral debt) := by
    rw [LegacyDec.quo_ofBigInt, LegacyDec.ofUnits_ratio owes bounded]
    rfl
  have positive : ¬ (debt : Int) ≤ 0 := by omega
  unfold projectHF
  rw [if_neg positive, isQuotient]
  refine ⟨_, _, rfl, ?_⟩
  intro above
  rw [above, if_neg (by simp)]

/-- The critical band is the shortfall. -/
theorem bandOf_critical (collateral debt : Nat) :
    bandOf collateral debt = .critical ↔ collateral < debt := by
  rw [bandOf, riskBand_critical]
  by_cases short : (collateral : Int) < debt
  · rw [if_pos short]
    exact iff_of_true ⟨rfl, Nat.one_pos⟩ (by omega)
  · rw [if_neg short]
    exact iff_of_false (fun both => absurd both.2 (Nat.lt_irrefl 0)) (by omega)

/-- Without a shortfall the band is that of the ratio. -/
theorem bandOf_covered {collateral debt : Nat} (covered : debt ≤ collateral) :
    (bandOf collateral debt).danger =
      if LegacyDec.ratio collateral debt < 1200000000000000000 then 2
      else if LegacyDec.ratio collateral debt < 1500000000000000000 then 1
      else 0 := by
  have notShort : ¬ (collateral : Int) < debt := by omega
  have high : (ratioDec collateral debt).lt hfHighUpper =
      decide (LegacyDec.ratio collateral debt < 1200000000000000000) := ratioDec_lt _ _ _
  have medium : (ratioDec collateral debt).lt hfMediumUpper =
      decide (LegacyDec.ratio collateral debt < 1500000000000000000) := ratioDec_lt _ _ _
  rw [bandOf, if_neg notShort, riskBand, if_neg Bool.noConfusion, if_neg (Nat.lt_irrefl 0), high,
    medium]
  simp only [decide_eq_true_eq]
  split_ifs <;> rfl

/-- More collateral and less debt do not make the band worse. -/
theorem bandOf_mono {c c' b b' : Nat} (more : c' ≤ c) (less : b ≤ b') (owes : 0 < b) :
    (bandOf c b).danger ≤ (bandOf c' b').danger := by
  by_cases short : c' < b'
  · have critical : bandOf c' b' = .critical := (bandOf_critical c' b').mpr short
    rw [critical]
    cases bandOf c b <;> decide
  · -- Neither pair is short, and the thresholds are passed in order.
    have ratios : LegacyDec.ratio c' b' ≤ LegacyDec.ratio c b :=
      LegacyDec.ratio_mono more less owes
    rw [bandOf_covered (show b ≤ c by omega), bandOf_covered (show b' ≤ c' by omega)]
    split_ifs <;> omega

/-- A ratio of at least 1.2 passes the threshold of the warning. -/
theorem ratioDec_warn {collateral debt : Nat} (owes : 0 < debt)
    (safe : 12 * debt ≤ 10 * collateral) : (ratioDec collateral debt).lt hfWarn = false := by
  have atLeast : 1200000000000000000 ≤ LegacyDec.ratio collateral debt := by
    apply LegacyDec.le_ratio owes
    change 1200000000000000000 * debt ≤ collateral * 1000000000000000000
    omega
  exact (ratioDec_lt collateral debt 1200000000000000000).trans
    (decide_eq_false (Nat.not_lt.mpr atLeast))

/-- The projection of two sums: its band is critical exactly when a debt exceeds the collateral, and
there is no warning from the exact ratio of 1.2 on. -/
theorem projectHF_ok {collateral : Nat} (bounded : collateral < 2 ^ 255) (debt : Nat) :
    ∃ text warn, projectHF collateral debt =
        .ok (text, if debt = 0 then .low else bandOf collateral debt, warn) ∧
      (12 * debt ≤ 10 * collateral → warn = none) := by
  by_cases debtless : debt = 0
  · rw [if_pos debtless, debtless]
    exact ⟨_, _, projectHF_debtless collateral, fun _ => rfl⟩
  · have owes : 0 < debt := Nat.pos_of_ne_zero debtless
    obtain ⟨text, warn, projected, quiet⟩ := projectHF_owing owes bounded
    rw [if_neg debtless]
    exact ⟨text, warn, projected, fun safe => quiet (ratioDec_warn owes safe)⟩

/-- Critical is a debt above the collateral. -/
theorem level_critical (collateral debt : Nat) :
    (if debt = 0 then RiskLevel.low else bandOf collateral debt) = .critical ↔
      0 < debt ∧ collateral < debt := by
  by_cases debtless : debt = 0
  · rw [if_pos debtless]
    exact iff_of_false RiskLevel.noConfusion (by omega)
  · rw [if_neg debtless, bandOf_critical]
    omega

/-- Less collateral or more debt is no safer. -/
theorem level_mono {c c' b b' : Nat} (more : c' ≤ c) (less : b ≤ b') :
    (if b = 0 then RiskLevel.low else bandOf c b).danger ≤
      (if b' = 0 then RiskLevel.low else bandOf c' b').danger := by
  by_cases debtless : b = 0
  · rw [if_pos debtless]
    exact Nat.zero_le _
  · have owes : b' ≠ 0 := by omega
    rw [if_neg debtless, if_neg owes]
    exact bandOf_mono more less (Nat.pos_of_ne_zero debtless)

/-- For all sums the projection returns when the collateral is below 2²⁵⁵; with more collateral and
less debt its band is at least as safe; its band is critical exactly when a debt exceeds the
collateral; and there is no warning from the exact ratio of 1.2 on. -/
theorem projectHF_monotone {c1 c2 b1 b2 : Int} (c2Nonneg : 0 ≤ c2) (more : c2 ≤ c1)
    (c1Bound : c1 < 2 ^ 255) (b1Nonneg : 0 ≤ b1) (less : b1 ≤ b2) :
    ∃ text1 level1 warn1 text2 level2 warn2,
      projectHF c1 b1 = .ok (text1, level1, warn1) ∧ projectHF c2 b2 = .ok (text2, level2, warn2) ∧
      level1.danger ≤ level2.danger ∧
      (level1 = .critical ↔ 0 < b1 ∧ c1 < b1) ∧ (level2 = .critical ↔ 0 < b2 ∧ c2 < b2) ∧
      (12 * b1 ≤ 10 * c1 → warn1 = none) ∧ (12 * b2 ≤ 10 * c2 → warn2 = none) := by
  have c1Nonneg : 0 ≤ c1 := by omega
  have b2Nonneg : 0 ≤ b2 := by omega
  lift c1 to Nat using c1Nonneg
  lift c2 to Nat using c2Nonneg
  lift b1 to Nat using b1Nonneg
  lift b2 to Nat using b2Nonneg
  obtain ⟨text1, warn1, projected1, quiet1⟩ :=
    projectHF_ok (show c1 < 2 ^ 255 by omega) b1
  obtain ⟨text2, warn2, projected2, quiet2⟩ :=
    projectHF_ok (show c2 < 2 ^ 255 by omega) b2
  have critical1 := level_critical c1 b1
  have critical2 := level_critical c2 b2
  refine ⟨text1, _, warn1, text2, _, warn2, projected1, projected2,
    level_mono (by omega) (by omega), ?_, ?_, ?_, ?_⟩
  · rw [critical1]
    omega
  · rw [critical2]
    omega
  · intro safe
    exact quiet1 (by omega)
  · intro safe
    exact quiet2 (by omega)

/-- A safe position against one that is short. -/
theorem projectHF_monotone_short :
    ∃ text1 level1 warn1 text2 level2 warn2,
      projectHF 12 10 = .ok (text1, level1, warn1) ∧ projectHF 9 11 = .ok (text2, level2, warn2) ∧
      level1.danger ≤ level2.danger ∧
      (level1 = .critical ↔ (0 : Int) < 10 ∧ (12 : Int) < 10) ∧
      (level2 = .critical ↔ (0 : Int) < 11 ∧ (9 : Int) < 11) ∧
      ((12 : Int) * 10 ≤ 10 * 12 → warn1 = none) ∧ ((12 : Int) * 11 ≤ 10 * 9 → warn2 = none) :=
  projectHF_monotone (by decide) (by decide) (by decide) (by decide) (by decide)

end SvpMcp
