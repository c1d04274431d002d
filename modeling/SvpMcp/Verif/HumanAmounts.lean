import Mathlib.Tactic.Positivity
import Mathlib.Tactic.Ring
import SvpMcp.Lib.LegacyDecText
import SvpMcp.Verif.Amounts

/-!
# Rendering amounts and reading them back

The renderers write the shortest numeral of an amount, and the parser reads it back. It takes two
minus signs for none, and panics beyond the bounds of the arithmetic.
-/

namespace SvpMcp

variable {r : LegacyDec.Reading} {decimals : Nat} {human : String}

/-- `humanAmount` writes the shortest numeral. -/
theorem humanAmount_eq (few : decimals ≤ 18) (n : Nat) :
    humanAmount n decimals = .ok (String.ofList (Numeral.shortest decimals n).text) := by
  have places : ¬ (LegacyDec.precision : Int) < decimals := by
    change ¬ (18 : Int) < decimals
    omega
  have isDec : LegacyDec.ofIntWithPrec n decimals = .ok ⟨n * 10 ^ (18 - decimals)⟩ := by
    rw [LegacyDec.ofIntWithPrec, if_neg (by omega), if_neg places]
    rfl
  have units : ((n : Int) * 10 ^ (18 - decimals)).natAbs = n * 10 ^ (18 - decimals) := by
    rw [Int.natAbs_mul, Int.natAbs_pow]
    rfl
  have scaled : LegacyDec.precision = decimals + (18 - decimals) := by
    change 18 = _
    omega
  have nonneg : 0 ≤ (n : Int) * 10 ^ (18 - decimals) :=
    Int.mul_nonneg (Int.natCast_nonneg n) (Int.pow_nonneg (by decide))
  rw [humanAmount, isDec]
  change Except.ok (String.ofList _) = _
  rw [LegacyDec.trimmed_print nonneg, units, scaled, Numeral.shortest_scaled]

/-- `baseToHuman` writes the shortest numeral. -/
theorem baseToHuman_eq {decimals : Int64} (nonneg : 0 ≤ decimals.toInt) (n : Nat) :
    baseToHuman n decimals = String.ofList (Numeral.shortest decimals.toInt.toNat n).text := by
  have notNegative : ¬ (n : Int) < 0 := by omega
  unfold baseToHuman
  by_cases none : decimals ≤ 0
  · have zero : decimals.toInt.toNat = 0 := by
      have atMost := Int64.le_iff_toInt_le.mp none
      change decimals.toInt ≤ 0 at atMost
      omega
    have nothing : Numeral.significant 0 n = [] :=
      Numeral.significant_eq_nil.mpr (by rw [Nat.pow_zero, Nat.mod_one])
    rw [if_pos none, zero, Decimal.print, if_neg notNegative]
    simp only [Numeral.text, Numeral.shortest, if_pos nothing, Nat.pow_zero, Nat.div_one,
      Int.natAbs_natCast]
  · rw [if_neg none]
    simp only [if_neg notNegative, Int.natAbs_natCast]
    by_cases whole : n % 10 ^ decimals.toInt.toNat = 0
    · have nothing := Numeral.significant_eq_nil.mpr whole
      rw [if_neg (by omega)]
      simp only [Numeral.text, Numeral.shortest, if_pos nothing]
    · have something := mt Numeral.significant_eq_nil.mp whole
      rw [if_pos (by omega)]
      simp only [Numeral.text, Numeral.shortest, if_neg something]
      rfl

/-- The bound of a decimal, for units that are not negative. -/
theorem fits_natCast {n : Nat} : LegacyDec.fits n = true ↔ n < LegacyDec.limit := by
  rw [LegacyDec.fits, decide_eq_true_eq, Int.natAbs_natCast]

/-- An amount below the bound fits as a decimal. -/
theorem scaled_lt {n : Nat} (bounded : n < 2 ^ 255) : n * 10 ^ 18 < LegacyDec.limit := by
  have within : n < 2 ^ 256 := by omega
  exact Nat.mul_lt_mul_of_pos_right within (by decide)

/-- The reading of a numeral without sign. -/
def unsignedReading (n : Numeral) (leading : n.whole ≠ []) (trailing : n.fraction ≠ some [])
    (places : n.places ≤ LegacyDec.precision) : LegacyDec.Reading where
  negative := false
  sign := .none
  numeral := n
  stripped _ := by simp
  leading := leading
  trailing := trailing
  places := places

/-- The parser reads a rendered amount back. -/
theorem humanToBaseUnits_shortest {decimals n : Nat} (few : decimals ≤ 18) (positive : 1 ≤ n)
    (bounded : n < 2 ^ 255) :
    humanToBaseUnits (String.ofList (Numeral.shortest decimals n).text) decimals = .ok n := by
  obtain ⟨places, number⟩ := Numeral.shortest_number decimals n
  have precise : (Numeral.shortest decimals n).places ≤ LegacyDec.precision :=
    Nat.le_trans places few
  let r :=
    unsignedReading _ (Decimal.digits_ne_nil _) (Numeral.shortest_trailing decimals n) precise
  have scaled : r.magnitude * 10 ^ decimals = n * 10 ^ 18 := by
    change (Numeral.shortest decimals n).number *
      10 ^ (18 - (Numeral.shortest decimals n).places) * 10 ^ decimals = n * 10 ^ 18
    have exponents : 18 - (Numeral.shortest decimals n).places + decimals =
        decimals - (Numeral.shortest decimals n).places + 18 := by
      omega
    rw [Nat.mul_assoc, ← Nat.pow_add, exponents, Nat.pow_add, ← Nat.mul_assoc, number]
  have isUnits : r.units = (r.magnitude : Int) := Int.one_mul _
  have isPower : ((10 : Int) ^ decimals) = ((10 ^ decimals : Nat) : Int) := by push_cast; rfl
  have one : LegacyDec.one = ((10 ^ 18 : Nat) : Int) := rfl
  have units : r.units * 10 ^ decimals = (n : Int) * LegacyDec.one := by
    rw [isUnits, isPower, one, ← Int.natCast_mul, ← Int.natCast_mul, scaled]
  have amountFits : LegacyDec.fits ((n : Int) * LegacyDec.one) = true := by
    rw [one, ← Int.natCast_mul]
    exact fits_natCast.mpr (scaled_lt bounded)
  have smaller : r.magnitude ≤ r.magnitude * 10 ^ decimals :=
    Nat.le_mul_of_pos_right _ (Nat.pow_pos (by decide))
  have magnitudeFits : LegacyDec.fits r.magnitude = true :=
    fits_natCast.mpr (Nat.lt_of_le_of_lt (scaled ▸ smaller) (scaled_lt bounded))
  have nonzero : 0 < r.magnitude := by
    apply Nat.pos_of_ne_zero
    intro zero
    rw [zero, Nat.zero_mul] at scaled
    omega
  rw [humanToBaseUnits_eq_ok]
  refine ⟨⟨r.units⟩,
    LegacyDec.ofString_eq_some.mpr ⟨r, String.toList_ofList, magnitudeFits, rfl⟩, ?_⟩
  exact
    { positive := by rw [isUnits]; exact Int.natCast_pos.mpr nonzero
      places := Int.natCast_nonneg _
      scaleFits := fitsInt_pow.mpr (by omega)
      scaledFits := by rw [Int.toNat_natCast, units]; exact amountFits
      amountFits := fitsInt_of_fits amountFits
      units := units }

/-- Rendering an amount and reading it back returns the amount, and the two renderers write the
same text. -/
theorem amount_rendering_inverse (decimals : Int64) (nonneg : 0 ≤ decimals.toInt)
    (few : decimals.toInt ≤ 18) (n : Int) (atLeast : 0 ≤ n) (bounded : n < 2 ^ 255) :
    (1 ≤ n → ∃ text, humanAmount n decimals.toInt = .ok text ∧
      humanToBaseUnits text decimals.toInt = .ok n) ∧
    humanAmount n decimals.toInt = .ok (baseToHuman n decimals) := by
  obtain ⟨places, isPlaces⟩ := Int.eq_ofNat_of_zero_le nonneg
  obtain ⟨amount, rfl⟩ := Int.eq_ofNat_of_zero_le atLeast
  have rendered := humanAmount_eq (show places ≤ 18 by omega) amount
  have same := baseToHuman_eq nonneg amount
  rw [isPlaces, Int.toNat_natCast] at same
  rw [isPlaces, rendered, same]
  refine ⟨fun positive => ⟨_, rfl, ?_⟩, rfl⟩
  exact humanToBaseUnits_shortest (by omega) (by omega) (by omega)

/-- The renderings of 1.5 USDC. -/
theorem amount_rendering_inverse_usdc :
    (1 ≤ (1500000 : Int) → ∃ text, humanAmount 1500000 (6 : Int64).toInt = .ok text ∧
      humanToBaseUnits text (6 : Int64).toInt = .ok 1500000) ∧
    humanAmount 1500000 (6 : Int64).toInt = .ok (baseToHuman 1500000 6) :=
  amount_rendering_inverse 6 (by decide) (by decide) 1500000 (by decide) (by decide)

/-- The scaling panics exactly when a bound of the arithmetic is exceeded. -/
theorem scaleUp_cases (dec : LegacyDec) (decimals : Nat) :
    (decimals ≤ 77 ∧ LegacyDec.fits (dec.units * 10 ^ decimals) = true ∧
        scaleUp dec decimals = .ok ⟨dec.units * 10 ^ decimals⟩) ∨
      (¬ (decimals ≤ 77 ∧ LegacyDec.fits (dec.units * 10 ^ decimals) = true) ∧
        ∃ reason, scaleUp dec decimals = .error (.panic reason)) := by
  by_cases few : decimals ≤ 77
  · have isScale := newIntWithDecimal_eq_ok.mpr
      ⟨Int.natCast_nonneg decimals, fitsInt_pow.mpr few, rfl⟩
    rw [Int.toNat_natCast] at isScale
    by_cases fits : LegacyDec.fits (dec.units * 10 ^ decimals) = true
    · refine .inl ⟨few, fits, ?_⟩
      exact scaleUp_eq_ok.mpr ⟨Int.natCast_nonneg _, fitsInt_pow.mpr few, fits, rfl⟩
    · refine .inr ⟨fun both => fits both.2, "Int overflow", ?_⟩
      have overflow : dec.mulInt (10 ^ decimals) = none := by
        rw [LegacyDec.mulInt, LegacyDec.ofUnits, if_neg fits]
      rw [scaleUp, isScale]
      change bind (Except.ok (10 ^ decimals)) _ = _
      simp only [bind, Except.bind, overflow]
  · refine .inr ⟨fun both => few both.1, "NewIntWithDecimal() out of bound", ?_⟩
    have tooMany : LegacyDec.newIntWithDecimal decimals =
        .error "NewIntWithDecimal() out of bound" := by
      rw [LegacyDec.newIntWithDecimal, if_neg (by omega), Int.toNat_natCast,
        if_neg (mt fitsInt_pow.mp few)]
    rw [scaleUp, tooMany]
    rfl

/-- The last step does not panic: what fits as a decimal fits as an integer. -/
theorem wholeUnits_total {decimals : Int} {scaled : LegacyDec}
    (fits : LegacyDec.fits scaled.units = true) (reason : String) :
    wholeUnits human decimals scaled ≠ .error (.panic reason) := by
  intro panicked
  by_cases isWhole : scaled = scaled.truncateDec
  · have units : scaled.units = scaled.units.tdiv LegacyDec.one * LegacyDec.one :=
      congrArg LegacyDec.units isWhole
    have accepted : wholeUnits human decimals scaled = .ok (scaled.units.tdiv LegacyDec.one) :=
      wholeUnits_eq_ok.mpr ⟨fitsInt_of_fits (units ▸ fits), units⟩
    rw [accepted] at panicked
    cases panicked
  · rw [wholeUnits, if_pos isWhole] at panicked
    cases panicked

/-- The parser panics exactly on positive decimals that exceed a bound when they are scaled. -/
theorem humanToBaseUnits_panics_iff :
    (∃ reason, humanToBaseUnits human decimals = .error (.panic reason)) ↔
      ∃ dec, LegacyDec.ofString human.toList = some dec ∧ 0 < dec.units ∧
        ¬ (decimals ≤ 77 ∧ LegacyDec.fits (dec.units * 10 ^ decimals) = true) := by
  unfold humanToBaseUnits
  cases parsed : LegacyDec.ofString human.toList with
  | none => simp
  | some dec =>
    by_cases positive : 0 < dec.units
    · have accepted : ¬ dec.isPositive = false := by simpa [LegacyDec.isPositive] using positive
      simp only [if_neg accepted]
      rcases scaleUp_cases dec decimals with ⟨few, fits, scaled⟩ | ⟨exceeds, reason, panicked⟩
      · rw [scaled]
        refine iff_of_false ?_ ?_
        · rintro ⟨reason, panicked⟩
          exact wholeUnits_total fits reason panicked
        · rintro ⟨found, isFound, _, exceeds⟩
          cases isFound
          exact exceeds ⟨few, fits⟩
      · rw [panicked]
        exact iff_of_true ⟨reason, rfl⟩ ⟨dec, rfl, positive, exceeds⟩
    · have refused : dec.isPositive = false := by simpa [LegacyDec.isPositive] using positive
      simp only [if_pos refused]
      refine iff_of_false (by simp) ?_
      rintro ⟨found, isFound, isPositive, _⟩
      cases isFound
      exact positive isPositive

/-- The positive readings: at most a plus sign, or two minus signs. -/
theorem positive_reading (positive : 0 < r.units) :
    r.units = r.magnitude ∧ 0 < r.magnitude ∧
      ((r.negative = false ∧ r.sign.factor = 1) ∨ (r.negative = true ∧ r.sign = .minus)) := by
  have units : r.units = if r.negative then -(r.sign.factor * r.magnitude)
    else r.sign.factor * r.magnitude := rfl
  cases negative : r.negative with
  | false =>
    have factor : r.sign.factor = 1 := by
      cases sign : r.sign with
      | none => rfl
      | plus => rfl
      | minus => exact absurd sign (r.stripped negative)
    rw [negative, factor, Int.one_mul] at units
    simp only [Bool.false_eq_true, if_false] at units
    exact ⟨units, by omega, .inl ⟨rfl, factor⟩⟩
  | true =>
    rw [negative] at units
    simp only [if_true] at units
    cases sign : r.sign with
    | none =>
      rw [sign, Decimal.Sign.factor, Int.one_mul] at units
      omega
    | plus =>
      rw [sign, Decimal.Sign.factor, Int.one_mul] at units
      omega
    | minus =>
      rw [sign, Decimal.Sign.factor, ← Int.neg_eq_neg_one_mul, Int.neg_neg] at units
      exact ⟨units, by omega, .inr ⟨rfl, rfl⟩⟩

/-- Scaled units are a whole number of ones exactly when the scaled numeral is whole. -/
theorem magnitude_dvd_iff (r : LegacyDec.Reading) (decimals : Nat) :
    10 ^ 18 ∣ r.magnitude * 10 ^ decimals ↔
      10 ^ r.numeral.places ∣ r.numeral.number * 10 ^ decimals := by
  have places : r.numeral.places ≤ 18 := r.places
  have power : (10 : Nat) ^ 18 = 10 ^ r.numeral.places * 10 ^ (18 - r.numeral.places) := by
    rw [← Nat.pow_add, Nat.add_sub_cancel' places]
  have magnitude : r.magnitude * 10 ^ decimals =
      r.numeral.number * 10 ^ decimals * 10 ^ (18 - r.numeral.places) :=
    Nat.mul_right_comm _ _ _
  rw [power, magnitude]
  exact Nat.mul_dvd_mul_iff_right (Nat.pow_pos (by decide))

/-- The units of a positive reading. -/
theorem scaled_units (positive : 0 < r.units) (decimals : Nat) :
    r.units * 10 ^ decimals = ((r.magnitude * 10 ^ decimals : Nat) : Int) := by
  rw [(positive_reading positive).1]
  push_cast
  rfl

/-- What is accepted, by the reading of the text. -/
theorem humanToBaseUnits_ok_iff {amount : Int} :
    humanToBaseUnits human decimals = .ok amount ↔
      ∃ r : LegacyDec.Reading, human.toList = r.text ∧ 0 < r.units ∧ r.magnitude < LegacyDec.limit ∧
        decimals ≤ 77 ∧ r.magnitude * 10 ^ decimals < LegacyDec.limit ∧
        ((r.magnitude * 10 ^ decimals : Nat) : Int) = amount * 10 ^ 18 := by
  rw [humanToBaseUnits_eq_ok]
  constructor
  · rintro ⟨dec, isDec, isAmount⟩
    obtain ⟨r, isText, bounded, isUnits⟩ := LegacyDec.ofString_eq_some.mp isDec
    have positive : 0 < r.units := isUnits ▸ isAmount.positive
    have units : dec.units * 10 ^ decimals = amount * LegacyDec.one := isAmount.units
    have fits : LegacyDec.fits (dec.units * 10 ^ decimals) = true := isAmount.scaledFits
    rw [isUnits, scaled_units positive] at units fits
    exact ⟨r, isText, positive, fits_natCast.mp bounded, fitsInt_pow.mp isAmount.scaleFits,
      fits_natCast.mp fits, units⟩
  · rintro ⟨r, isText, positive, bounded, few, fits, units⟩
    have scaledFits := fits_natCast.mpr fits
    refine ⟨⟨r.units⟩, LegacyDec.ofString_eq_some.mpr
      ⟨r, isText, fits_natCast.mpr bounded, rfl⟩, ?_⟩
    exact
      { positive := positive
        places := Int.natCast_nonneg _
        scaleFits := fitsInt_pow.mpr few
        scaledFits := by rw [Int.toNat_natCast, scaled_units positive]; exact scaledFits
        amountFits := fitsInt_of_fits (show LegacyDec.fits (amount * LegacyDec.one) = true from
          units ▸ scaledFits)
        units := by rw [Int.toNat_natCast, scaled_units positive]; exact units }

/-- What an amount should be: the parser returns, and what it accepts is a numeral with at most
one sign that denotes a positive value, scaled exactly. -/
structure ExactAmount (human : String) (decimals : UInt8) : Prop where
  returns : ∀ reason, humanToBaseUnits human decimals.toNat ≠ .error (.panic reason)
  exact : ∀ amount, humanToBaseUnits human decimals.toNat = .ok amount →
    ∃ (sign : Decimal.Sign) (n : Numeral), human.toList = sign.text ++ n.text ∧
      n.whole ≠ [] ∧ n.fraction ≠ some [] ∧ 0 < (sign.factor : ℚ) * n.value ∧
      (amount : ℚ) = sign.factor * n.value * 10 ^ decimals.toNat ∧ amount < 2 ^ 256

/-- The bounds of the arithmetic hold for a text that is read as a positive decimal, and the text
has at most one sign and a digit before the point unless it is too precise. -/
def WithinBounds (human : String) (decimals : UInt8) : Prop :=
  ∀ r : LegacyDec.Reading, human.toList = r.text → r.magnitude < LegacyDec.limit → 0 < r.units →
    decimals.toNat ≤ 77 ∧ r.magnitude * 10 ^ decimals.toNat < LegacyDec.limit ∧
      (r.negative = false ∧ r.numeral.whole ≠ [] ∨
        ¬ 10 ^ r.numeral.places ∣ r.numeral.number * 10 ^ decimals.toNat)

/-- A numeral behind two minus signs is no numeral with at most one sign. -/
theorem two_signs (sign : Decimal.Sign) (n : Numeral) (rest : List Char) :
    '-' :: '-' :: rest ≠ sign.text ++ n.text := by
  intro same
  rw [Numeral.minus_of_head same.symm] at same
  have behind : Decimal.Sign.none.text ++ n.text = '-' :: rest := (List.cons.inj same).2.symm
  cases Numeral.minus_of_head behind

/-- A positive reading of a numeral with at most one sign has not stripped a minus sign. -/
theorem unsigned_of_numeral (positive : 0 < r.units) {sign : Decimal.Sign} {n : Numeral}
    (same : r.text = sign.text ++ n.text) : r.negative = false ∧ r.numeral = n := by
  rcases (positive_reading positive).2.2 with ⟨unsigned, _⟩ | ⟨negative, minus⟩
  · rw [LegacyDec.Reading.text, unsigned] at same
    exact ⟨unsigned, (Numeral.text_inj same).2⟩
  · rw [LegacyDec.Reading.text, if_pos negative, LegacyDec.Reading.rest, minus] at same
    exact absurd same (two_signs sign n _)

/-- The value of a positive reading without a stripped minus sign, and its scaled amount. -/
theorem unsigned_value (positive : 0 < r.units) (unsigned : r.negative = false) {amount : Int}
    (units : ((r.magnitude * 10 ^ decimals : Nat) : Int) = amount * 10 ^ 18) :
    r.sign.factor = 1 ∧ 0 < r.numeral.value ∧
      (amount : ℚ) = r.numeral.value * 10 ^ decimals := by
  obtain ⟨_, nonzero, signs⟩ := positive_reading positive
  have factor : r.sign.factor = 1 := by
    rcases signs with ⟨_, one⟩ | ⟨negative, _⟩
    · exact one
    · rw [unsigned] at negative
      cases negative
  have value : r.numeral.value * 10 ^ 18 = r.magnitude := Numeral.value_eq r.places rfl
  have isPositive : 0 < r.numeral.value := by
    have scaled : 0 < r.numeral.value * 10 ^ 18 := by
      rw [value]
      exact_mod_cast nonzero
    exact (mul_pos_iff_of_pos_right (by positivity)).mp scaled
  have isAmount : (amount : ℚ) = r.numeral.value * 10 ^ decimals := by
    have scaled : (r.magnitude : ℚ) * 10 ^ decimals = amount * 10 ^ 18 := by
      exact_mod_cast units
    rw [← value] at scaled
    have scale : (10 : ℚ) ^ 18 ≠ 0 := by positivity
    apply mul_right_cancel₀ scale
    rw [← scaled]
    ring
  exact ⟨factor, isPositive, isAmount⟩

/-- The parser returns exactly when the bounds of the arithmetic hold for what it reads. -/
theorem humanToBaseUnits_returns_iff :
    (∀ reason, humanToBaseUnits human decimals ≠ .error (.panic reason)) ↔
      ∀ r : LegacyDec.Reading, human.toList = r.text → r.magnitude < LegacyDec.limit → 0 < r.units →
        decimals ≤ 77 ∧ r.magnitude * 10 ^ decimals < LegacyDec.limit := by
  constructor
  · intro returns r isText bounded positive
    have isDec : LegacyDec.ofString human.toList = some ⟨r.units⟩ :=
      LegacyDec.ofString_eq_some.mpr ⟨r, isText, fits_natCast.mpr bounded, rfl⟩
    rw [← fits_natCast, ← scaled_units positive]
    by_contra exceeds
    obtain ⟨reason, panicked⟩ := humanToBaseUnits_panics_iff.mpr ⟨_, isDec, positive, exceeds⟩
    exact returns reason panicked
  · intro within reason panicked
    obtain ⟨dec, isDec, positive, exceeds⟩ := humanToBaseUnits_panics_iff.mp ⟨reason, panicked⟩
    obtain ⟨r, isText, bounded, isUnits⟩ := LegacyDec.ofString_eq_some.mp isDec
    rw [isUnits] at positive exceeds
    rw [scaled_units positive, fits_natCast] at exceeds
    exact exceeds (within r isText (fits_natCast.mp bounded) positive)

/-- The parser is exact on exactly the texts and decimals within the bounds. -/
theorem humanToBaseUnits_exact_iff (human : String) (decimals : UInt8) :
    ExactAmount human decimals ↔ WithinBounds human decimals := by
  constructor
  · intro isExact r isText bounded positive
    obtain ⟨few, fits⟩ :=
      humanToBaseUnits_returns_iff.mp isExact.returns r isText bounded positive
    refine ⟨few, fits, ?_⟩
    by_cases whole : 10 ^ r.numeral.places ∣ r.numeral.number * 10 ^ decimals.toNat
    · left
      -- The text is accepted, so it is a numeral with at most one sign.
      obtain ⟨amount, isAmount⟩ := (magnitude_dvd_iff r decimals.toNat).mpr whole
      have accepted : humanToBaseUnits human decimals.toNat = .ok (amount : Int) := by
        rw [humanToBaseUnits_ok_iff]
        refine ⟨r, isText, positive, bounded, few, fits, ?_⟩
        rw [isAmount, Nat.mul_comm]
        push_cast
        rfl
      obtain ⟨sign, n, sameText, digits, _⟩ := isExact.exact amount accepted
      obtain ⟨unsigned, sameNumeral⟩ := unsigned_of_numeral positive (isText.symm.trans sameText)
      exact ⟨unsigned, sameNumeral ▸ digits⟩
    · exact .inr whole
  · intro within
    constructor
    · rw [humanToBaseUnits_returns_iff]
      intro r isText bounded positive
      obtain ⟨few, fits, _⟩ := within r isText bounded positive
      exact ⟨few, fits⟩
    · intro amount accepted
      have bounds := humanToBaseUnits_bounds accepted
      obtain ⟨r, isText, positive, bounded, few, fits, units⟩ := humanToBaseUnits_ok_iff.mp accepted
      have divides : 10 ^ r.numeral.places ∣ r.numeral.number * 10 ^ decimals.toNat := by
        rw [← magnitude_dvd_iff]
        exact Int.natCast_dvd_natCast.mp ⟨amount, by rw [units, Int.mul_comm]; rfl⟩
      obtain ⟨_, _, ⟨unsigned, digits⟩ | imprecise⟩ := within r isText bounded positive
      · obtain ⟨factor, isPositive, isAmount⟩ := unsigned_value positive unsigned units
        refine ⟨r.sign, r.numeral, ?_, digits, r.trailing, ?_, ?_, bounds.2⟩
        · rw [isText, LegacyDec.Reading.text, unsigned]
          rfl
        · rw [factor, Int.cast_one, one_mul]
          exact isPositive
        · rw [factor, Int.cast_one, one_mul]
          exact isAmount
      · exact absurd divides imprecise

/-- Two minus signs are taken for none, and a token with 78 decimals makes the parser panic. -/
theorem two_signs_accepted :
    humanToBaseUnits "--5" (6 : UInt8).toNat = .ok 5000000 ∧
      (¬ ∃ (sign : Decimal.Sign) (n : Numeral), "--5".toList = sign.text ++ n.text) ∧
      humanToBaseUnits "1" (78 : UInt8).toNat =
        .error (.panic "NewIntWithDecimal() out of bound") := by
  refine ⟨by decide +kernel, ?_, by decide +kernel⟩
  rintro ⟨sign, n, same⟩
  exact two_signs sign n ['5'] same

end SvpMcp
