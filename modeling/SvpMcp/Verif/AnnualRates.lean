import SvpMcp.Lib.LegacyDecOrder
import SvpMcp.Model.LendoraStats

/-!
# Yearly rates

`apyFromRatePerBlock` rounds at every product. The result still grows with the rate and the blocks
of a year, and is never below the simple rate.
-/

namespace SvpMcp

open LegacyDec

/-- The daily rate `apyFromRatePerBlock` computes. -/
def dailyRate (ratePerBlock blocksPerYear : Nat) : Option LegacyDec :=
  (decFromMantissa ratePerBlock).mul ((LegacyDec.ofBigInt blocksPerYear).quoInt 365)

/-- A result is a value. -/
theorem decimal_eq_ok {result : Option LegacyDec} {d : LegacyDec} (isOk : decimal result = .ok d) :
    result = some d := by
  cases result with
  | none => cases isOk
  | some d' =>
    cases isOk
    rfl

section Days

variable {r r' y y' : Nat}

/-- The blocks of a day, cut off. -/
theorem blocksPerDay_units (y : Nat) :
    ((LegacyDec.ofBigInt y).quoInt 365).units = ((y * 10 ^ precision / 365 : Nat) : Int) := by
  have scaled : (y : Int) * one = ((y * 10 ^ precision : Nat) : Int) := by
    rw [Int.natCast_mul]
    rfl
  rw [quoInt, ofBigInt, scaled, Int.tdiv_eq_ediv_of_nonneg (Int.natCast_nonneg _)]
  rfl

/-- A longer year has longer days. -/
theorem blocksPerDay_mono (le : y ≤ y') : ((LegacyDec.ofBigInt y).quoInt 365).units ≤
    ((LegacyDec.ofBigInt y').quoInt 365).units := by
  rw [blocksPerDay_units, blocksPerDay_units]
  exact Int.ofNat_le.mpr (Nat.div_le_div_right (Nat.mul_le_mul_right _ le))

/-- A day is not negative. -/
theorem blocksPerDay_nonneg (y : Nat) : 0 ≤ ((LegacyDec.ofBigInt y).quoInt 365).units := by
  rw [blocksPerDay_units]
  exact Int.natCast_nonneg _

/-- A daily rate is not negative. -/
theorem dailyRate_nonneg {d : LegacyDec} (isRate : dailyRate r y = some d) : 0 ≤ d.units :=
  mul_nonneg (Int.natCast_nonneg r) (blocksPerDay_nonneg y) isRate

/-- It grows with the rate and the year. -/
theorem dailyRate_mono {d d' : LegacyDec} (rates : r ≤ r') (years : y ≤ y')
    (isRate : dailyRate r y = some d) (isRate' : dailyRate r' y' = some d') :
    d.units ≤ d'.units :=
  mul_mono (Int.natCast_nonneg r) (Int.ofNat_le.mpr rates) (blocksPerDay_nonneg y)
    (blocksPerDay_mono years) isRate isRate'

/-- Without a rate or without blocks the daily rate is zero. -/
theorem dailyRate_zero (none : r = 0 ∨ y = 0) : dailyRate r y = some ⟨0⟩ := by
  have product : (r : Int) * ((LegacyDec.ofBigInt y).quoInt 365).units = 0 := by
    rcases none with noRate | noBlocks
    · rw [noRate, Nat.cast_zero, Int.zero_mul]
    · rw [blocksPerDay_units, noBlocks, Nat.zero_mul, Nat.zero_div, Nat.cast_zero, Int.mul_zero]
  change ofUnits (chopRound ((r : Int) * ((LegacyDec.ofBigInt y).quoInt 365).units)) = _
  rw [product]
  decide +kernel

end Days

section Years

variable {r r' y y' : Nat} {apy apy' : LegacyDec}

/-- The year's growth of a daily rate, less the start. -/
theorem compounded_ok (isRate : compounded r y = some apy) :
    ∃ d base grown : LegacyDec, dailyRate r y = some d ∧ base.units = one + d.units ∧
      base.power 365 = some grown ∧ apy.units = grown.units - one := by
  unfold compounded at isRate
  obtain ⟨d, isDaily, isRate⟩ := Option.bind_eq_some_iff.mp isRate
  obtain ⟨base, isBase, isRate⟩ := Option.bind_eq_some_iff.mp isRate
  obtain ⟨grown, isGrown, isRate⟩ := Option.bind_eq_some_iff.mp isRate
  exact ⟨d, base, grown, isDaily, ofUnits_units isBase, isGrown, ofUnits_units isRate⟩

/-- A rate is zero, without a rate or without blocks, or it is compounded. -/
theorem apyFromRatePerBlock_ok (isOk : apyFromRatePerBlock r y = .ok apy) :
    (r = 0 ∨ y = 0) ∧ apy = ⟨0⟩ ∨ ¬ (r = 0 ∨ y = 0) ∧ compounded r y = some apy := by
  unfold apyFromRatePerBlock at isOk
  by_cases none : r = 0 ∨ y = 0
  · rw [if_pos none] at isOk
    exact .inl ⟨none, (Except.ok.inj isOk).symm⟩
  · rw [if_neg none] at isOk
    exact .inr ⟨none, decimal_eq_ok isOk⟩

/-- A yearly rate is at least the simple one. -/
theorem apy_simple (isOk : apyFromRatePerBlock r y = .ok apy) :
    ∃ d, dailyRate r y = some d ∧ 365 * d.units ≤ apy.units := by
  rcases apyFromRatePerBlock_ok isOk with ⟨none, isZero⟩ | ⟨_, isRate⟩
  · rw [isZero]
    exact ⟨⟨0⟩, dailyRate_zero none, Int.le_refl 0⟩
  · obtain ⟨d, base, grown, isDaily, isBase, isGrown, isApy⟩ := compounded_ok isRate
    have grows := power_interest (dailyRate_nonneg isDaily) (Int.le_of_eq isBase.symm) isGrown
    exact ⟨d, isDaily, by omega⟩

/-- An annual rate is not negative. -/
theorem apy_nonneg (isOk : apyFromRatePerBlock r y = .ok apy) : 0 ≤ apy.units := by
  obtain ⟨d, isDaily, simple⟩ := apy_simple isOk
  have nonneg := dailyRate_nonneg isDaily
  omega

/-- The yearly rate grows with the rate of a block and with the blocks of a year, and it is at
least 365 times the daily rate, wherever the decimals do not overflow. -/
theorem apy_monotone_above_simple (rates : r ≤ r') (years : y ≤ y')
    (isOk : apyFromRatePerBlock r y = .ok apy) (isOk' : apyFromRatePerBlock r' y' = .ok apy') :
    apy.units ≤ apy'.units ∧ ∃ d, dailyRate r y = some d ∧ 365 * d.units ≤ apy.units := by
  refine ⟨?_, apy_simple isOk⟩
  rcases apyFromRatePerBlock_ok isOk with ⟨_, isZero⟩ | ⟨positive, isRate⟩
  · rw [isZero]
    exact apy_nonneg isOk'
  · have positive' : ¬ (r' = 0 ∨ y' = 0) := by omega
    rcases apyFromRatePerBlock_ok isOk' with ⟨none, _⟩ | ⟨_, isRate'⟩
    · exact absurd none positive'
    · obtain ⟨d, base, grown, isDaily, isBase, isGrown, isApy⟩ := compounded_ok isRate
      obtain ⟨d', base', grown', isDaily', isBase', isGrown', isApy'⟩ := compounded_ok isRate'
      have nonneg := dailyRate_nonneg isDaily
      have daily := dailyRate_mono rates years isDaily isDaily'
      have unit : 0 ≤ one := by decide
      have grows : grown.units ≤ grown'.units :=
        power_mono (by omega) (by omega) isGrown isGrown'
      omega

end Years

/-- A rate of about two and of about four per cent a year, in blocks of twelve seconds. -/
theorem apy_monotone_above_simple_two_four : ∃ apy apy',
    apyFromRatePerBlock 7610350076 2628000 = .ok apy ∧
    apyFromRatePerBlock 15220700152 2628000 = .ok apy' ∧ apy.units ≤ apy'.units ∧
    ∃ d, dailyRate 7610350076 2628000 = some d ∧ 365 * d.units ≤ apy.units := by
  obtain ⟨apy, isOk⟩ := exists_of_isOk
    (show (apyFromRatePerBlock 7610350076 2628000).isOk = true by decide +kernel)
  obtain ⟨apy', isOk'⟩ := exists_of_isOk
    (show (apyFromRatePerBlock 15220700152 2628000).isOk = true by decide +kernel)
  exact ⟨apy, apy', isOk, isOk',
    apy_monotone_above_simple (by decide) (Nat.le_refl _) isOk isOk'⟩

end SvpMcp
