import SvpMcp.Model.Amounts

/-!
# What a human amount is in base units

An accepted amount is exact: the decimal the caller wrote, scaled by the asset's
decimals, is a whole number within the bounds of the arithmetic. Nothing is rounded.
-/

namespace SvpMcp

variable {α : Type} {human : String} {decimals amount : Int} {dec scaled : LegacyDec}

/-- Another error does not change a success. -/
@[simp]
theorem wrapFault_eq_ok {format : String} {result : Except Fault α} {value : α} :
    wrapFault format result = .ok value ↔ result = .ok value :=
  mapError_eq_ok

/-- A decimal is a number of base units at some decimals. -/
structure IsBaseAmount (dec : LegacyDec) (decimals amount : Int) : Prop where
  positive : 0 < dec.units
  places : 0 ≤ decimals
  -- The bounds whose violation panics.
  scaleFits : LegacyDec.fitsInt (10 ^ decimals.toNat) = true
  scaledFits : LegacyDec.fits (dec.units * 10 ^ decimals.toNat) = true
  amountFits : LegacyDec.fitsInt amount = true
  -- The amount is exact.
  units : dec.units * 10 ^ decimals.toNat = amount * LegacyDec.one

/-- The scale is a power of ten that fits. -/
theorem newIntWithDecimal_eq_ok {scale : Int} :
    LegacyDec.newIntWithDecimal decimals = .ok scale ↔
      0 ≤ decimals ∧ LegacyDec.fitsInt (10 ^ decimals.toNat) = true ∧
        scale = 10 ^ decimals.toNat := by
  unfold LegacyDec.newIntWithDecimal
  by_cases negative : decimals < 0
  · rw [if_pos negative]
    refine iff_of_false error_ne_ok ?_
    rintro ⟨places, _⟩
    omega
  · rw [if_neg negative]
    by_cases fits : LegacyDec.fitsInt (10 ^ decimals.toNat) = true
    · rw [if_pos fits]
      constructor
      · intro isScale
        exact ⟨by omega, fits, (Except.ok.inj isScale).symm⟩
      · rintro ⟨_, _, isScale⟩
        rw [isScale]
    · rw [if_neg fits]
      refine iff_of_false error_ne_ok ?_
      rintro ⟨_, fitting, _⟩
      exact fits fitting

/-- Scaling up multiplies, within the bounds. -/
theorem scaleUp_eq_ok : scaleUp dec decimals = .ok scaled ↔
    0 ≤ decimals ∧ LegacyDec.fitsInt (10 ^ decimals.toNat) = true ∧
      LegacyDec.fits (dec.units * 10 ^ decimals.toNat) = true ∧
      scaled.units = dec.units * 10 ^ decimals.toNat := by
  constructor
  · intro isScaled
    obtain ⟨scale, isScale, rest⟩ := bind_eq_ok.mp isScaled
    obtain ⟨places, scaleFits, rfl⟩ := newIntWithDecimal_eq_ok.mp (mapError_eq_ok.mp isScale)
    unfold LegacyDec.mulInt LegacyDec.ofUnits at rest
    by_cases fits : LegacyDec.fits (dec.units * 10 ^ decimals.toNat) = true
    · rw [if_pos fits] at rest
      cases rest
      exact ⟨places, scaleFits, fits, rfl⟩
    · rw [if_neg fits] at rest
      cases rest
  · rintro ⟨places, scaleFits, fits, units⟩
    have isScale := newIntWithDecimal_eq_ok.mpr ⟨places, scaleFits, rfl⟩
    have isScaled : scaled = ⟨dec.units * 10 ^ decimals.toNat⟩ := by
      cases scaled
      cases units
      rfl
    have product : dec.mulInt (10 ^ decimals.toNat) = some scaled := by
      rw [LegacyDec.mulInt, LegacyDec.ofUnits, if_pos fits, isScaled]
    rw [scaleUp, isScale]
    change bind (Except.ok (10 ^ decimals.toNat)) _ = _
    simp only [bind, Except.bind, product]

/-- Only whole units are accepted. -/
theorem wholeUnits_eq_ok : wholeUnits human decimals scaled = .ok amount ↔
    LegacyDec.fitsInt amount = true ∧ scaled.units = amount * LegacyDec.one := by
  have one : LegacyDec.one ≠ 0 := by decide
  unfold wholeUnits LegacyDec.truncateInt
  constructor
  · intro whole
    by_cases isWhole : scaled = scaled.truncateDec
    · rw [if_neg (not_not.mpr isWhole)] at whole
      by_cases fits : LegacyDec.fitsInt (scaled.units.tdiv LegacyDec.one) = true
      · rw [if_pos fits] at whole
        cases whole
        exact ⟨fits, congrArg LegacyDec.units isWhole⟩
      · rw [if_neg fits] at whole
        cases whole
    · rw [if_pos isWhole] at whole
      cases whole
  · rintro ⟨fits, units⟩
    have quotient : scaled.units.tdiv LegacyDec.one = amount := by
      rw [units, Int.mul_tdiv_cancel _ one]
    have isWhole : scaled = scaled.truncateDec := by
      rw [LegacyDec.truncateDec, quotient, ← units]
    rw [if_neg (not_not.mpr isWhole), quotient, if_pos fits]

/-- An amount is accepted exactly when it is a number of base units. -/
theorem humanToBaseUnits_eq_ok : humanToBaseUnits human decimals = .ok amount ↔
    ∃ dec, LegacyDec.ofString human.toList = some dec ∧ IsBaseAmount dec decimals amount := by
  unfold humanToBaseUnits
  cases parsed : LegacyDec.ofString human.toList with
  | none =>
    refine iff_of_false error_ne_ok ?_
    rintro ⟨_, impossible, _⟩
    cases impossible
  | some dec =>
    by_cases refused : dec.isPositive = false
    · simp only [if_pos refused]
      refine iff_of_false error_ne_ok ?_
      rintro ⟨found, isFound, isAmount⟩
      cases isFound
      exact of_decide_eq_false refused isAmount.positive
    · simp only [if_neg refused]
      have positive : 0 < dec.units := by simpa [LegacyDec.isPositive] using refused
      constructor
      · intro accepted
        obtain ⟨scaled, isScaled, whole⟩ := bind_eq_ok.mp accepted
        obtain ⟨places, scaleFits, scaledFits, units⟩ := scaleUp_eq_ok.mp isScaled
        obtain ⟨amountFits, isWhole⟩ := wholeUnits_eq_ok.mp whole
        exact ⟨dec, rfl, positive, places, scaleFits, scaledFits, amountFits, units ▸ isWhole⟩
      · rintro ⟨found, isFound, isAmount⟩
        cases isFound
        have isScaled : scaleUp dec decimals = .ok ⟨dec.units * 10 ^ decimals.toNat⟩ :=
          scaleUp_eq_ok.mpr ⟨isAmount.places, isAmount.scaleFits, isAmount.scaledFits, rfl⟩
        rw [isScaled]
        exact wholeUnits_eq_ok.mpr ⟨isAmount.amountFits, isAmount.units⟩

/-- An accepted amount is positive and fits a word. -/
theorem humanToBaseUnits_bounds (accepted : humanToBaseUnits human decimals = .ok amount) :
    0 < amount ∧ amount < 2 ^ 256 := by
  obtain ⟨dec, _, isAmount⟩ := humanToBaseUnits_eq_ok.mp accepted
  have scaled : 0 < amount * LegacyDec.one :=
    isAmount.units ▸ Int.mul_pos isAmount.positive (Int.pow_pos (by decide))
  have bounded : amount.natAbs < 2 ^ 256 := of_decide_eq_true isAmount.amountFits
  have positive : 0 < amount := Int.pos_of_mul_pos_left scaled (by decide)
  omega

/-- Seventy-seven decimals fit. -/
theorem fitsInt_pow {n : Nat} : LegacyDec.fitsInt (10 ^ n) = true ↔ n ≤ 77 := by
  have largest : (10 : Nat) ^ 77 < 2 ^ 256 := by decide
  have tooLarge : 2 ^ 256 ≤ (10 : Nat) ^ 78 := by decide
  have size : (10 ^ n : Int).natAbs = 10 ^ n := by rw [Int.natAbs_pow]; rfl
  rw [LegacyDec.fitsInt, size, decide_eq_true_eq]
  constructor
  · intro fits
    by_contra above
    have more : (10 : Nat) ^ 78 ≤ 10 ^ n := Nat.pow_le_pow_right (by decide) (by omega)
    omega
  · intro few
    have less : (10 : Nat) ^ n ≤ 10 ^ 77 := Nat.pow_le_pow_right (by decide) few
    omega

/-- An amount keeps its place among the base units when a token has other decimals: at least as
many, and not so many that the arithmetic overflows. -/
def SufficesAt (human : String) (decimals : Int) (tokenDecimals : Nat) : Prop :=
  decimals ≤ tokenDecimals ∧ tokenDecimals ≤ 77 ∧
    ∃ dec, LegacyDec.ofString human.toList = some dec ∧
      LegacyDec.fits (dec.units * 10 ^ tokenDecimals) = true

/-- A whole number of units of a decimal that fits is a number that fits. -/
theorem fitsInt_of_fits {n : Int} (fits : LegacyDec.fits (n * LegacyDec.one) = true) :
    LegacyDec.fitsInt n = true := by
  have one : LegacyDec.one.natAbs = 10 ^ LegacyDec.precision := by decide
  rw [LegacyDec.fits, decide_eq_true_eq, Int.natAbs_mul, one, LegacyDec.limit] at fits
  rw [LegacyDec.fitsInt, decide_eq_true_eq]
  exact Nat.lt_of_mul_lt_mul_right fits

/-- An accepted amount is accepted at the decimals of a token, and is no less there, exactly when
it keeps its place. -/
theorem sufficesAt_iff {tokenDecimals : Nat}
    (accepted : humanToBaseUnits human decimals = .ok amount) :
    (∃ larger, humanToBaseUnits human tokenDecimals = .ok larger ∧ amount ≤ larger) ↔
      SufficesAt human decimals tokenDecimals := by
  obtain ⟨dec, isDec, isAmount⟩ := humanToBaseUnits_eq_ok.mp accepted
  have positive : 0 < LegacyDec.one := by decide
  have places : decimals = decimals.toNat := (Int.toNat_of_nonneg isAmount.places).symm
  constructor
  · rintro ⟨larger, accepted', more⟩
    obtain ⟨dec', isDec', isLarger⟩ := humanToBaseUnits_eq_ok.mp accepted'
    cases isDec.symm.trans isDec'
    refine ⟨?_, fitsInt_pow.mp isLarger.scaleFits, dec, isDec, isLarger.scaledFits⟩
    by_contra fewer
    have fewerPlaces : tokenDecimals < decimals.toNat := by omega
    have powers : (10 : Int) ^ tokenDecimals < 10 ^ decimals.toNat :=
      Int.pow_lt_pow_of_lt (by decide) fewerPlaces
    have scaled : dec.units * 10 ^ tokenDecimals < dec.units * 10 ^ decimals.toNat :=
      Int.mul_lt_mul_of_pos_left powers isAmount.positive
    have isLargerUnits : dec.units * 10 ^ tokenDecimals = larger * LegacyDec.one := isLarger.units
    rw [isLargerUnits, isAmount.units] at scaled
    have less : larger < amount := Int.lt_of_mul_lt_mul_right scaled (Int.le_of_lt positive)
    omega
  · rintro ⟨enough, few, dec', isDec', fits⟩
    cases isDec.symm.trans isDec'
    have split : tokenDecimals = decimals.toNat + (tokenDecimals - decimals.toNat) := by omega
    have units : dec.units * 10 ^ tokenDecimals =
        amount * 10 ^ (tokenDecimals - decimals.toNat) * LegacyDec.one := by
      rw [split, Int.pow_add, ← Int.mul_assoc, isAmount.units, Nat.add_sub_cancel_left,
        Int.mul_right_comm]
    have isLarger : IsBaseAmount dec tokenDecimals
        (amount * 10 ^ (tokenDecimals - decimals.toNat)) :=
      ⟨isAmount.positive, Int.natCast_nonneg _, fitsInt_pow.mpr few, fits,
        fitsInt_of_fits (units ▸ fits), units⟩
    have one : 1 ≤ (10 : Int) ^ (tokenDecimals - decimals.toNat) := Int.pow_pos (by decide)
    have grown : amount * 1 ≤ amount * 10 ^ (tokenDecimals - decimals.toNat) :=
      Int.mul_le_mul_of_nonneg_left one (Int.le_of_lt (humanToBaseUnits_bounds accepted).1)
    rw [Int.mul_one] at grown
    exact ⟨_, humanToBaseUnits_eq_ok.mpr ⟨dec, isDec, isLarger⟩, grown⟩

end SvpMcp
