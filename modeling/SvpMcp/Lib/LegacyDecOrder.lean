import Mathlib.Tactic.Ring
import SvpMcp.Lib.LegacyDec

/-!
# The order of decimal quotients, products and powers

Rounding keeps the order, so a quotient grows with its numerator and falls with its
denominator, and a power keeps at least the simple interest.
-/

namespace SvpMcp.LegacyDec

/-- Rounding is monotone. -/
theorem roundHalfEven_mono {n m : Nat} (le : n ≤ m) : roundHalfEven n ≤ roundHalfEven m := by
  have quotients : n / 10 ^ precision ≤ m / 10 ^ precision := Nat.div_le_div_right le
  have splitN := Nat.div_add_mod n (10 ^ precision)
  have splitM := Nat.div_add_mod m (10 ^ precision)
  simp only [roundHalfEven]
  generalize n / 10 ^ precision = quoN at *
  generalize m / 10 ^ precision = quoM at *
  by_cases same : quoN = quoM
  · -- With one quotient the remainders are in order, and both ties go the same way.
    subst same
    have remainders : n % 10 ^ precision ≤ m % 10 ^ precision := by omega
    split_ifs <;> omega
  · have apart : quoN + 1 ≤ quoM := by omega
    split_ifs <;> omega

/-- Whole units are not rounded. -/
theorem roundHalfEven_mul (n : Nat) : roundHalfEven (n * 10 ^ precision) = n := by
  have positive : 0 < 10 ^ precision := by decide
  simp only [roundHalfEven, Nat.mul_mod_left, Nat.mul_div_cancel n positive, Nat.mul_zero,
    if_pos positive]

/-- The units of the quotient of two numbers: cut off at 36 places and rounded to 18. -/
def ratio (n d : Nat) : Nat :=
  roundHalfEven (n * (10 ^ precision * 10 ^ precision) / d)

/-- The quotient of two integers. -/
theorem quo_ofBigInt (n d : Nat) :
    (ofBigInt n).quo (ofBigInt d) = ofUnits (ratio n d) := by
  have unit : (0 : Int) < one := by decide
  have cut : ((n : Int) * one * (one * one)).tdiv (d * one) =
      ((n * (10 ^ precision * 10 ^ precision) / d : Nat) : Int) := by
    have numerator : (n : Int) * one * (one * one) = n * (one * one) * one := by ring
    have nonneg : 0 ≤ (n : Int) * (one * one) :=
      Int.mul_nonneg (Int.natCast_nonneg n) (by decide)
    rw [numerator, Int.mul_tdiv_mul_of_pos_left _ _ unit, Int.tdiv_eq_ediv_of_nonneg nonneg]
    rfl
  rw [quo, ofBigInt, ofBigInt, cut, chopRound, if_neg (Int.not_lt.mpr (Int.natCast_nonneg _)),
    Int.natAbs_natCast]
  rfl

/-- A ratio grows with its terms. -/
theorem ratio_mono {n n' d d' : Nat} (more : n ≤ n') (less : d' ≤ d) (positive : 0 < d') :
    ratio n d ≤ ratio n' d' := by
  apply roundHalfEven_mono
  calc n * (10 ^ precision * 10 ^ precision) / d
      ≤ n' * (10 ^ precision * 10 ^ precision) / d :=
        Nat.div_le_div_right (Nat.mul_le_mul_right _ more)
    _ ≤ n' * (10 ^ precision * 10 ^ precision) / d' := Nat.div_le_div_left less positive

/-- A bound on the exact ratio is a bound on the rounded one. -/
theorem le_ratio {n d units : Nat} (positive : 0 < d) (le : units * d ≤ n * 10 ^ precision) :
    units ≤ ratio n d := by
  have cut : units * 10 ^ precision ≤ n * (10 ^ precision * 10 ^ precision) / d := by
    rw [Nat.le_div_iff_mul_le positive]
    calc units * 10 ^ precision * d = units * d * 10 ^ precision := by ring
      _ ≤ n * 10 ^ precision * 10 ^ precision := Nat.mul_le_mul_right _ le
      _ = n * (10 ^ precision * 10 ^ precision) := by ring
  calc units = roundHalfEven (units * 10 ^ precision) := (roundHalfEven_mul units).symm
    _ ≤ ratio n d := roundHalfEven_mono cut

/-- A ratio is at most its numerator. -/
theorem ratio_le {n d : Nat} (positive : 0 < d) : ratio n d ≤ n * 10 ^ precision := by
  calc ratio n d ≤ ratio n 1 := ratio_mono (Nat.le_refl n) positive Nat.one_pos
    _ = roundHalfEven (n * 10 ^ precision * 10 ^ precision) := by
      rw [ratio, Nat.div_one, Nat.mul_assoc]
    _ = n * 10 ^ precision := roundHalfEven_mul _

/-- The quotient of numbers of 255 bits is within the bound of a decimal. -/
theorem ofUnits_ratio {n d : Nat} (positive : 0 < d) (bounded : n < 2 ^ 255) :
    ofUnits (ratio n d) = some ⟨ratio n d⟩ := by
  have within : n < 2 ^ 256 := by omega
  have below : ratio n d < limit := by
    calc ratio n d ≤ n * 10 ^ precision := ratio_le positive
      _ < limit := Nat.mul_lt_mul_of_pos_right within (by decide)
  rw [ofUnits, fits, Int.natAbs_natCast, if_pos (decide_eq_true below)]

/-- Nothing is chopped below zero. -/
theorem chopRound_natCast (n : Nat) : chopRound n = roundHalfEven n := by
  rw [chopRound, if_neg (Int.not_lt.mpr (Int.natCast_nonneg n)), Int.natAbs_natCast]

/-- Chopping keeps the sign. -/
theorem chopRound_nonneg {n : Int} (nonneg : 0 ≤ n) : 0 ≤ chopRound n := by
  rw [chopRound, if_neg (Int.not_lt.mpr nonneg)]
  exact Int.natCast_nonneg _

/-- Chopping is monotone. -/
theorem chopRound_mono {n m : Int} (nonneg : 0 ≤ n) (le : n ≤ m) : chopRound n ≤ chopRound m := by
  obtain ⟨small, isSmall⟩ := Int.eq_ofNat_of_zero_le nonneg
  obtain ⟨large, isLarge⟩ := Int.eq_ofNat_of_zero_le (Int.le_trans nonneg le)
  rw [isSmall, isLarge] at le
  rw [isSmall, isLarge, chopRound_natCast, chopRound_natCast]
  exact Int.ofNat_le.mpr (roundHalfEven_mono (Int.ofNat_le.mp le))

/-- A product with one is not rounded. -/
theorem chopRound_mul_one {n : Int} (nonneg : 0 ≤ n) : chopRound (n * one) = n := by
  obtain ⟨units, isUnits⟩ := Int.eq_ofNat_of_zero_le nonneg
  have whole : (units : Int) * one = ((units * 10 ^ precision : Nat) : Int) := by
    rw [Int.natCast_mul]
    rfl
  rw [isUnits, whole, chopRound_natCast, roundHalfEven_mul]

/-- The units are those given. -/
theorem ofUnits_units {n : Int} {d : LegacyDec} (isSome : ofUnits n = some d) : d.units = n := by
  unfold ofUnits at isSome
  split at isSome
  · cases isSome
    rfl
  · cases isSome

section Products

variable {d d' e e' r r' : LegacyDec}

/-- The units of a product. -/
theorem mul_units (isProduct : d.mul e = some r) : r.units = chopRound (d.units * e.units) :=
  ofUnits_units isProduct

/-- A product is not negative. -/
theorem mul_nonneg (nonneg : 0 ≤ d.units) (nonneg' : 0 ≤ e.units) (isProduct : d.mul e = some r) :
    0 ≤ r.units := by
  rw [mul_units isProduct]
  exact chopRound_nonneg (Int.mul_nonneg nonneg nonneg')

/-- A product grows with its factors. -/
theorem mul_mono (nonneg : 0 ≤ d.units) (le : d.units ≤ d'.units) (nonneg' : 0 ≤ e.units)
    (le' : e.units ≤ e'.units) (isProduct : d.mul e = some r) (isProduct' : d'.mul e' = some r') :
    r.units ≤ r'.units := by
  rw [mul_units isProduct, mul_units isProduct']
  apply chopRound_mono (Int.mul_nonneg nonneg nonneg')
  exact Int.mul_le_mul le le' nonneg' (Int.le_trans nonneg le)

/-- The interests of two factors add up in the product, and rounding does not take from the sum. -/
theorem mul_interest {a b : Int} (nonneg : 0 ≤ a) (nonneg' : 0 ≤ b) (le : one + a ≤ d.units)
    (le' : one + b ≤ e.units) (isProduct : d.mul e = some r) : one + (a + b) ≤ r.units := by
  have unit : 0 ≤ one := by decide
  have cross : 0 ≤ a * b := Int.mul_nonneg nonneg nonneg'
  have exactly : (one + (a + b)) * one ≤ d.units * e.units := by
    calc (one + (a + b)) * one ≤ (one + a) * (one + b) := by
          have expanded : (one + a) * (one + b) = (one + (a + b)) * one + a * b := by ring
          omega
      _ ≤ d.units * e.units := Int.mul_le_mul le le' (by omega) (by omega)
  calc one + (a + b) = chopRound ((one + (a + b)) * one) :=
        (chopRound_mul_one (by omega)).symm
    _ ≤ chopRound (d.units * e.units) :=
        chopRound_mono (Int.mul_nonneg (by omega) unit) exactly
    _ = r.units := (mul_units isProduct).symm

end Products

section Powers

variable {d d' tmp tmp' r r' : LegacyDec}

/-- One turn of the loop of `Power`. -/
theorem powerLoop_succ {fuel i : Nat} {result : LegacyDec × LegacyDec} (more : ¬ i ≤ 1)
    (isResult : powerLoop (fuel + 1) i d tmp = some result) :
    ∃ gathered squared, (if i % 2 ≠ 0 then tmp.mul d else some tmp) = some gathered ∧
      d.mul d = some squared ∧ powerLoop fuel (i / 2) squared gathered = some result := by
  rw [powerLoop, if_neg more] at isResult
  by_cases isOdd : i % 2 ≠ 0
  · simp only [if_pos isOdd] at isResult ⊢
    obtain ⟨gathered, isGathered, isResult⟩ := Option.bind_eq_some_iff.mp isResult
    obtain ⟨squared, isSquared, isResult⟩ := Option.bind_eq_some_iff.mp isResult
    exact ⟨gathered, squared, isGathered, isSquared, isResult⟩
  · simp only [if_neg isOdd] at isResult ⊢
    obtain ⟨gathered, isGathered, isResult⟩ := Option.bind_eq_some_iff.mp isResult
    obtain ⟨squared, isSquared, isResult⟩ := Option.bind_eq_some_iff.mp isResult
    exact ⟨gathered, squared, isGathered, isSquared, isResult⟩

/-- The loop keeps the order of the base and of the gathered factors. -/
theorem powerLoop_mono {fuel i : Nat} {base gathered base' gathered' : LegacyDec}
    (nonneg : 0 ≤ d.units) (le : d.units ≤ d'.units) (nonneg' : 0 ≤ tmp.units)
    (le' : tmp.units ≤ tmp'.units) (isResult : powerLoop fuel i d tmp = some (base, gathered))
    (isResult' : powerLoop fuel i d' tmp' = some (base', gathered')) :
    0 ≤ base.units ∧ base.units ≤ base'.units ∧ 0 ≤ gathered.units ∧
      gathered.units ≤ gathered'.units := by
  induction fuel generalizing i d d' tmp tmp' with
  | zero =>
    cases isResult
    cases isResult'
    exact ⟨nonneg, le, nonneg', le'⟩
  | succ fuel ih =>
    by_cases done : i ≤ 1
    · rw [powerLoop, if_pos done] at isResult isResult'
      cases isResult
      cases isResult'
      exact ⟨nonneg, le, nonneg', le'⟩
    · obtain ⟨odd, squared, isOdd, isSquared, isResult⟩ := powerLoop_succ done isResult
      obtain ⟨odd', squared', isOdd', isSquared', isResult'⟩ := powerLoop_succ done isResult'
      have squareNonneg := mul_nonneg nonneg nonneg isSquared
      have squareLe := mul_mono nonneg le nonneg le isSquared isSquared'
      by_cases isOddPower : i % 2 ≠ 0
      · rw [if_pos isOddPower] at isOdd isOdd'
        exact ih squareNonneg squareLe (mul_nonneg nonneg' nonneg isOdd)
          (mul_mono nonneg' le' nonneg le isOdd isOdd') isResult isResult'
      · rw [if_neg isOddPower] at isOdd isOdd'
        cases isOdd
        cases isOdd'
        exact ih squareNonneg squareLe nonneg' le' isResult isResult'

/-- A power grows with its base. -/
theorem power_mono {n : Nat} (nonneg : 0 ≤ d.units) (le : d.units ≤ d'.units)
    (isPower : d.power n = some r) (isPower' : d'.power n = some r') : r.units ≤ r'.units := by
  by_cases isZero : n = 0
  · rw [power, if_pos isZero] at isPower isPower'
    cases isPower
    cases isPower'
    exact Int.le_refl _
  · rw [power, if_neg isZero] at isPower isPower'
    obtain ⟨⟨base, gathered⟩, isLoop, isPower⟩ := Option.bind_eq_some_iff.mp isPower
    obtain ⟨⟨base', gathered'⟩, isLoop', isPower'⟩ := Option.bind_eq_some_iff.mp isPower'
    have unit : 0 ≤ oneDec.units := by decide
    obtain ⟨baseNonneg, baseLe, gatheredNonneg, gatheredLe⟩ :=
      powerLoop_mono nonneg le unit (Int.le_refl _) isLoop isLoop'
    exact mul_mono baseNonneg baseLe gatheredNonneg gatheredLe isPower isPower'

/-- The loop loses no interest: what is left of the power times the base's interest, and the
interest gathered, end up in its two results. -/
theorem powerLoop_interest {fuel i : Nat} {a t : Int} {base gathered : LegacyDec} (positive : 1 ≤ i)
    (enough : i ≤ fuel + 1) (nonneg : 0 ≤ a) (nonneg' : 0 ≤ t) (le : one + a ≤ d.units)
    (le' : one + t ≤ tmp.units) (isResult : powerLoop fuel i d tmp = some (base, gathered)) :
    ∃ a' t' : Int, 0 ≤ a' ∧ 0 ≤ t' ∧ a' + t' = i * a + t ∧ one + a' ≤ base.units ∧
      one + t' ≤ gathered.units := by
  induction fuel generalizing i a t d tmp with
  | zero =>
    have single : i = 1 := by omega
    cases isResult
    exact ⟨a, t, nonneg, nonneg', by rw [single]; omega, le, le'⟩
  | succ fuel ih =>
    by_cases done : i ≤ 1
    · have single : i = 1 := by omega
      rw [powerLoop, if_pos done] at isResult
      cases isResult
      exact ⟨a, t, nonneg, nonneg', by rw [single]; omega, le, le'⟩
    · obtain ⟨odd, squared, isOdd, isSquared, isResult⟩ := powerLoop_succ done isResult
      have squareLe := mul_interest nonneg nonneg le le isSquared
      have half : ((i / 2 : Nat) : Int) * (a + a) + (i % 2 : Nat) * a = i * a := by
        have halves : (i : Int) = 2 * (i / 2 : Nat) + (i % 2 : Nat) := by omega
        conv_rhs => rw [halves]
        ring
      by_cases isOddPower : i % 2 ≠ 0
      · have rest : i % 2 = 1 := by omega
        rw [if_pos isOddPower] at isOdd
        obtain ⟨a', t', nonnegA, nonnegT, sum, baseLe, gatheredLe⟩ := ih (by omega) (by omega)
          (by omega) (by omega) squareLe (mul_interest nonneg' nonneg le' le isOdd) isResult
        rw [rest, Nat.cast_one, Int.one_mul] at half
        exact ⟨a', t', nonnegA, nonnegT, by omega, baseLe, gatheredLe⟩
      · have rest : i % 2 = 0 := by omega
        rw [if_neg isOddPower] at isOdd
        cases isOdd
        obtain ⟨a', t', nonnegA, nonnegT, sum, baseLe, gatheredLe⟩ := ih (by omega) (by omega)
          (by omega) nonneg' squareLe le' isResult
        rw [rest, Nat.cast_zero, Int.zero_mul, Int.add_zero] at half
        exact ⟨a', t', nonnegA, nonnegT, by omega, baseLe, gatheredLe⟩

/-- A power is at least the simple interest of its base, as Bernoulli's inequality has it for exact
products. -/
theorem power_interest {n : Nat} {a : Int} (nonneg : 0 ≤ a) (le : one + a ≤ d.units)
    (isPower : d.power n = some r) : one + n * a ≤ r.units := by
  by_cases isZero : n = 0
  · rw [power, if_pos isZero] at isPower
    cases isPower
    rw [isZero, Nat.cast_zero, Int.zero_mul, Int.add_zero]
    exact Int.le_refl _
  · rw [power, if_neg isZero] at isPower
    obtain ⟨⟨base, gathered⟩, isLoop, isPower⟩ := Option.bind_eq_some_iff.mp isPower
    obtain ⟨a', t', nonnegA, nonnegT, sum, baseLe, gatheredLe⟩ :=
      powerLoop_interest (t := 0) (by omega) (by omega) nonneg (Int.le_refl 0) le
        (Int.le_of_eq (Int.add_zero one)) isLoop
    have product := mul_interest nonnegA nonnegT baseLe gatheredLe isPower
    omega

end Powers

end SvpMcp.LegacyDec
