import SvpMcp.Model.Units

/-!
# When sizes and prices are converted exactly

The conversions cut the scaled value before they test it, so a residue below one unit is dropped.
The exponent is computed in 32 bits, and may wrap.
-/

namespace SvpMcp

open Rounding (scaledQuo scaledQuo_nonneg_iff scaledQuo_toNat zpow_gap)

variable {setString : String → Option ℚ} {exponent : Int} {scale : UnitScale} {x : ℚ}
  {human : String}

/-- A rational stays within the unsigned 64 bits once it is scaled and cut. -/
def InRange (x : ℚ) (exponent : Int) : Prop :=
  1 / (x.den : ℚ) ≤ x * 10 ^ exponent + 1 ∧ x * 10 ^ exponent < 2 ^ 64

/-- The cut value is in range and aligned to the step. -/
def Passes (x : ℚ) (exponent : Int) (step : Nat) : Prop :=
  InRange x exponent ∧ (0 < step → step ∣ ⌊x * 10 ^ exponent⌋₊)

/-- The scaling is that of the library. -/
theorem scaleRat_eq (x : ℚ) (exponent : Int32) :
    scaleRat x exponent = scaledQuo x exponent.toInt := rfl

/-- A floor fits exactly when the value does. -/
theorem floor_lt_iff {v : ℚ} : ⌊v⌋₊ < 2 ^ 64 ↔ v < 2 ^ 64 := by
  rw [Nat.floor_lt' (by decide)]
  norm_num

/-- The machine word of a scaled rational is its natural part. -/
theorem toUint64_scaleRat {exponent : Int32} {units : UInt64} :
    toUint64 (scaleRat x exponent) = some units ↔
      InRange x exponent.toInt ∧ units.toNat = ⌊x * 10 ^ exponent.toInt⌋₊ := by
  rw [scaleRat_eq, toUint64, InRange, ← scaledQuo_nonneg_iff]
  by_cases negative : scaledQuo x exponent.toInt < 0
  · rw [if_pos (Or.inl negative)]
    constructor
    · intro isSome
      cases isSome
    · rintro ⟨⟨nonneg, _⟩, _⟩
      omega
  · have isNat := scaledQuo_toNat (Int.not_lt.mp negative)
    by_cases large : 2 ^ 64 ≤ scaledQuo x exponent.toInt
    · rw [if_pos (Or.inr large)]
      constructor
      · intro isSome
        cases isSome
      · rintro ⟨⟨_, below⟩, _⟩
        have small := floor_lt_iff.mpr below
        omega
    · rw [if_neg (by omega), Option.some_inj, ← UInt64.toNat_inj, isNat, Int.toNat_natCast,
        UInt64.toNat_ofNat_of_lt' (show _ < 2 ^ 64 by omega)]
      have small : x * 10 ^ exponent.toInt < 2 ^ 64 := floor_lt_iff.mp (by omega)
      constructor
      · intro same
        exact ⟨⟨by omega, small⟩, same.symm⟩
      · rintro ⟨_, same⟩
        exact same.symm

/-- The word of a rational in range. -/
theorem InRange.exists_word (inRange : InRange x exponent) :
    ∃ units : UInt64, units.toNat = ⌊x * 10 ^ exponent⌋₊ := by
  have small : ⌊x * 10 ^ exponent⌋₊ < 2 ^ 64 := floor_lt_iff.mpr inRange.2
  exact ⟨_, UInt64.toNat_ofNat_of_lt' small⟩

/-- What a conversion accepts of a text that denotes a number, and with which result. -/
theorem humanToUnits_of_some (isRead : setString human = some x) {units : UInt64} :
    humanToUnits setString scale human = .ok units ↔
      Passes x scale.exponent.toInt scale.step.toNat ∧
        units.toNat = ⌊x * 10 ^ scale.exponent.toInt⌋₊ := by
  unfold humanToUnits Passes
  simp only [isRead]
  cases isWord : toUint64 (scaleRat x scale.exponent) with
  | none =>
    constructor
    · intro isOk
      cases isOk
    · rintro ⟨⟨inRange, _⟩, isFloor⟩
      have isSome := toUint64_scaleRat.mpr ⟨inRange, isFloor⟩
      rw [isWord] at isSome
      cases isSome
  | some found =>
    obtain ⟨inRange, isFloor⟩ := toUint64_scaleRat.mp isWord
    have aligned : ¬ (0 < scale.step ∧ found % scale.step ≠ 0) ↔
        (0 < scale.step.toNat → scale.step.toNat ∣ found.toNat) := by
      rw [Nat.dvd_iff_mod_eq_zero, ← UInt64.toNat_mod, ← UInt64.toNat_zero, UInt64.toNat_inj,
        ← UInt64.lt_iff_toNat_lt]
      tauto
    rw [← isFloor, ← aligned]
    by_cases refused : 0 < scale.step ∧ found % scale.step ≠ 0
    · simp only [if_pos refused]
      constructor
      · intro isOk
        cases isOk
      · rintro ⟨⟨_, passed⟩, _⟩
        exact absurd refused passed
    · simp only [if_neg refused, Except.ok.injEq]
      rw [← UInt64.toNat_inj]
      constructor
      · intro same
        exact ⟨⟨inRange, refused⟩, same.symm⟩
      · rintro ⟨_, same⟩
        exact same.symm

/-- `-AtomicResolution`, as an integer. -/
def MarketMeta.sizePower (market : MarketMeta) : Int := -market.atomicResolution.toInt

/-- `-QuantumConversionExponent + AtomicResolution + 6`, as an integer. -/
def MarketMeta.pricePower (market : MarketMeta) : Int :=
  -market.quantumConversionExponent.toInt + market.atomicResolution.toInt + 6

/-- An exponent as the code computes it. -/
def wrapped (exponent : Int) : Int := exponent.bmod (2 ^ 32)

/-- The exponent of a size, in 32 bits. -/
theorem sizeScale_exponent (market : MarketMeta) :
    (sizeScale market).exponent.toInt = wrapped market.sizePower :=
  Int32.toInt_neg market.atomicResolution

/-- The exponent of a price, in 32 bits. -/
theorem priceExponent_toInt (market : MarketMeta) :
    (priceExponent market).toInt = wrapped market.pricePower := by
  have quote : quoteCurrencyAtomicResolution.toInt = -6 := by decide
  rw [priceExponent, Int32.toInt_sub, Int32.toInt_add, Int32.toInt_neg, quote,
    Int.bmod_sub_bmod, Int.sub_neg, Int.add_assoc, Int.bmod_add_bmod, ← Int.add_assoc]
  rfl

/-- A wrapped exponent is far from the exact one. -/
theorem wrapped_cases (exponent : Int) :
    wrapped exponent = exponent ∨ wrapped exponent + 2 ^ 32 ≤ exponent ∨
      exponent + 2 ^ 32 ≤ wrapped exponent := by
  rw [wrapped, Int.bmod_def]
  split
  · omega
  · omega

/-- A conversion reports only the exact value of a text, and reports it whenever it is aligned
and in range. -/
structure ConvertsExactly (denoted : Option ℚ) (exponent : Int) (step : Nat)
    (result : Except Err UInt64) : Prop where
  exact : ∀ units, result = .ok units →
    ∃ x, denoted = some x ∧ x * 10 ^ exponent = units.toNat ∧ (0 < step → step ∣ units.toNat)
  accepts : ∀ x, denoted = some x → ∀ n : Nat, x * 10 ^ exponent = n → (0 < step → step ∣ n) →
    n < 2 ^ 64 → ∃ units, result = .ok units

/-- The inputs at which nothing is lost: the exact value is a whole number of units, or the cut
value is refused. Where the exponent wraps, only zero and what is refused on both sides. -/
def LosesNothing (x : ℚ) (exponent : Int) (step : Nat) : Prop :=
  if wrapped exponent = exponent then
    (∃ n : Nat, x * 10 ^ exponent = n) ∨ ¬ Passes x exponent step
  else
    x = 0 ∨ (¬ Passes x (wrapped exponent) step ∧
      ¬ ∃ n : Nat, x * 10 ^ exponent = n ∧ (0 < step → step ∣ n) ∧ n < 2 ^ 64)

/-- A whole number of units in range passes. -/
theorem passes_of_eq {step n : Nat} (isNat : x * 10 ^ exponent = n)
    (aligned : 0 < step → step ∣ n) (small : n < 2 ^ 64) : Passes x exponent step := by
  have share := Rounding.one_div_den_le_one x
  have nonneg : (0 : ℚ) ≤ n := Nat.cast_nonneg n
  refine ⟨⟨?_, ?_⟩, ?_⟩
  · rw [isNat]
    linarith
  · rw [isNat]
    exact_mod_cast small
  · rw [isNat, Nat.floor_natCast]
    exact aligned

/-- The exact value is never the natural part under another exponent, except at zero. -/
theorem floor_ne_of_apart {exponent other : Int} (nonzero : x ≠ 0)
    (apart : exponent + 1 ≤ other ∨ other + 1 ≤ exponent) :
    x * 10 ^ exponent ≠ (⌊x * 10 ^ other⌋₊ : ℚ) := by
  intro same
  have power : (0 : ℚ) < 10 ^ exponent := by positivity
  have nonneg : 0 ≤ x := by
    have value : 0 ≤ x * 10 ^ exponent := same ▸ Nat.cast_nonneg _
    exact nonneg_of_mul_nonneg_left value power
  have positive : 0 < x := lt_of_le_of_ne nonneg nonzero.symm
  have here : 0 < x * 10 ^ exponent := by positivity
  have there : 0 < x * 10 ^ other := by positivity
  rcases apart with below | above
  · have gap := zpow_gap 1 below nonneg
    have part : x * 10 ^ other < (⌊x * 10 ^ other⌋₊ : ℚ) + 1 := Nat.lt_floor_add_one _
    have atLeast : (1 : ℚ) ≤ (⌊x * 10 ^ other⌋₊ : ℚ) := by
      rw [same] at here
      exact_mod_cast here
    rw [same] at gap
    linarith
  · have gap := zpow_gap 1 above nonneg
    have part : (⌊x * 10 ^ other⌋₊ : ℚ) ≤ x * 10 ^ other := Nat.floor_le there.le
    linarith

/-- Exactness at a text that denotes a number: what passes under the wrapped exponent is the exact
value, and the exact values pass. -/
theorem convertsExactly_some (isWrapped : scale.exponent.toInt = wrapped exponent)
    (isRead : setString human = some x) :
    ConvertsExactly (setString human) exponent scale.step.toNat
        (humanToUnits setString scale human) ↔
      (Passes x (wrapped exponent) scale.step.toNat →
        x * 10 ^ exponent = (⌊x * 10 ^ wrapped exponent⌋₊ : ℚ)) ∧
      ∀ n : Nat, x * 10 ^ exponent = n → (0 < scale.step.toNat → scale.step.toNat ∣ n) →
        n < 2 ^ 64 → Passes x (wrapped exponent) scale.step.toNat := by
  have isOk : ∀ units, humanToUnits setString scale human = .ok units ↔
      Passes x (wrapped exponent) scale.step.toNat ∧
        units.toNat = ⌊x * 10 ^ wrapped exponent⌋₊ := by
    intro units
    rw [← isWrapped]
    exact humanToUnits_of_some isRead
  constructor
  · rintro ⟨exact, accepts⟩
    constructor
    · intro passes
      obtain ⟨units, isFloor⟩ := passes.1.exists_word
      obtain ⟨found, isFound, value, _⟩ := exact units ((isOk units).mpr ⟨passes, isFloor⟩)
      rw [isRead] at isFound
      cases isFound
      rw [value, isFloor]
    · intro n isNat aligned small
      obtain ⟨units, accepted⟩ := accepts x isRead n isNat aligned small
      exact ((isOk units).mp accepted).1
  · rintro ⟨exact, accepts⟩
    constructor
    · intro units accepted
      obtain ⟨passes, isFloor⟩ := (isOk units).mp accepted
      refine ⟨x, isRead, ?_, ?_⟩
      · rw [exact passes, isFloor]
      · rw [isFloor]
        exact passes.2
    · intro found isFound n isNat aligned small
      rw [isRead] at isFound
      cases isFound
      have passes := accepts n isNat aligned small
      obtain ⟨units, isFloor⟩ := passes.1.exists_word
      exact ⟨units, (isOk units).mpr ⟨passes, isFloor⟩⟩

/-- The inputs that lose nothing, as the two directions of exactness. -/
theorem losesNothing_iff (x : ℚ) (exponent : Int) (step : Nat) :
    LosesNothing x exponent step ↔
      (Passes x (wrapped exponent) step →
        x * 10 ^ exponent = (⌊x * 10 ^ wrapped exponent⌋₊ : ℚ)) ∧
      ∀ n : Nat, x * 10 ^ exponent = n → (0 < step → step ∣ n) → n < 2 ^ 64 →
        Passes x (wrapped exponent) step := by
  unfold LosesNothing
  by_cases fits : wrapped exponent = exponent
  · rw [if_pos fits, fits]
    constructor
    · rintro (⟨n, isNat⟩ | refused)
      · refine ⟨fun _ => ?_, fun m isNat' aligned small => passes_of_eq isNat' aligned small⟩
        rw [isNat, Nat.floor_natCast]
      · exact ⟨fun passes => absurd passes refused,
          fun m isNat aligned small => passes_of_eq isNat aligned small⟩
    · rintro ⟨exact, _⟩
      by_cases passes : Passes x exponent step
      · exact Or.inl ⟨_, exact passes⟩
      · exact Or.inr passes
  · rw [if_neg fits]
    by_cases zero : x = 0
    · have isZero : ∀ e : Int, x * 10 ^ e = ((0 : Nat) : ℚ) := by
        intro e
        rw [zero, zero_mul, Nat.cast_zero]
      constructor
      · intro _
        refine ⟨fun _ => ?_, fun _ _ _ _ => ?_⟩
        · rw [isZero, isZero, Nat.floor_natCast]
        · exact passes_of_eq (isZero _) (fun _ => Nat.dvd_zero step) (by decide)
      · intro _
        exact Or.inl zero
    · have differs : x * 10 ^ exponent ≠ (⌊x * 10 ^ wrapped exponent⌋₊ : ℚ) :=
        floor_ne_of_apart zero (by omega)
      constructor
      · rintro (isZero | ⟨refused, unaligned⟩)
        · exact absurd isZero zero
        · exact ⟨fun passes => absurd passes refused,
            fun n isNat aligned small => absurd ⟨n, isNat, aligned, small⟩ unaligned⟩
      · rintro ⟨exact, accepts⟩
        have refused : ¬ Passes x (wrapped exponent) step := fun passes => differs (exact passes)
        refine Or.inr ⟨refused, ?_⟩
        rintro ⟨n, isNat, aligned, small⟩
        exact refused (accepts n isNat aligned small)

/-- A conversion that computes its exponent in 32 bits is exact at the inputs that lose nothing. -/
theorem convertsExactly_iff (isWrapped : scale.exponent.toInt = wrapped exponent) :
    ConvertsExactly (setString human) exponent scale.step.toNat
        (humanToUnits setString scale human) ↔
      ∀ x, setString human = some x → LosesNothing x exponent scale.step.toNat := by
  cases isRead : setString human with
  | some x =>
    rw [← isRead, convertsExactly_some isWrapped isRead, ← losesNothing_iff, isRead]
    simp only [Option.some_inj, forall_eq']
  | none =>
    constructor
    · intro _ x isFound
      cases isFound
    · intro _
      constructor
      · intro units accepted
        rw [humanToUnits, isRead] at accepted
        cases accepted
      · intro x isFound
        cases isFound

/-- Sizes and prices are converted without loss exactly at the inputs that lose nothing. -/
theorem conversions_exact_iff (setString : String → Option ℚ) (human : String)
    (market : MarketMeta) :
    (ConvertsExactly (setString human) market.sizePower market.stepBaseQuantums.toNat
        (sizeToQuantums setString human market) ↔
      ∀ x, setString human = some x →
        LosesNothing x market.sizePower market.stepBaseQuantums.toNat) ∧
    (ConvertsExactly (setString human) market.pricePower market.subticksPerTick.toNat
        (priceToSubticks setString human market) ↔
      ∀ x, setString human = some x →
        LosesNothing x market.pricePower market.subticksPerTick.toNat) := by
  have tick : (priceScale market).step.toNat = market.subticksPerTick.toNat :=
    UInt32.toNat_toUInt64 _
  constructor
  · exact convertsExactly_iff (sizeScale_exponent market)
  · rw [← tick]
    exact convertsExactly_iff (priceExponent_toInt market)

/-- A sign and a decimal numeral, of the forms `big.Rat.SetString` reads. -/
def plainDecimal (text : String) : Option ℚ :=
  let (whole, fraction, _) := Strings.cut '.' text.toList
  if fraction.all Char.isDigit then
    (Decimal.read (whole ++ fraction)).map fun number => mkRat number (10 ^ fraction.length)
  else none

/-- The market `btcMeta` of the package's tests. -/
def btcMarket : MarketMeta where
  ticker := "BTC-USD"
  clobPairID := 0
  atomicResolution := -10
  quantumConversionExponent := -9
  stepBaseQuantums := 1000000
  subticksPerTick := 1000

/-- A tenth of a quantum and a tenth of a subtick are dropped. -/
theorem residue_dropped :
    sizeToQuantums plainDecimal "0.00010000001" btcMarket = .ok 1000000 ∧
    ¬ ConvertsExactly (plainDecimal "0.00010000001") btcMarket.sizePower
      btcMarket.stepBaseQuantums.toNat
      (sizeToQuantums plainDecimal "0.00010000001" btcMarket) ∧
    priceToSubticks plainDecimal "65000.000001" btcMarket = .ok 6500000000 ∧
    ¬ ConvertsExactly (plainDecimal "65000.000001") btcMarket.pricePower
      btcMarket.subticksPerTick.toNat
      (priceToSubticks plainDecimal "65000.000001" btcMarket) := by
  have size : sizeToQuantums plainDecimal "0.00010000001" btcMarket = .ok 1000000 := by
    decide +kernel
  have price : priceToSubticks plainDecimal "65000.000001" btcMarket = .ok 6500000000 := by
    decide +kernel
  have sizeRead : plainDecimal "0.00010000001" = some (mkRat 10000001 (10 ^ 11)) := by
    decide +kernel
  have priceRead : plainDecimal "65000.000001" = some (mkRat 65000000001 (10 ^ 6)) := by
    decide +kernel
  refine ⟨size, ?_, price, ?_⟩
  · rintro ⟨exact, _⟩
    obtain ⟨x, isRead, value, _⟩ := exact _ size
    rw [sizeRead] at isRead
    cases isRead
    revert value
    decide +kernel
  · rintro ⟨exact, _⟩
    obtain ⟨x, isRead, value, _⟩ := exact _ price
    rw [priceRead] at isRead
    cases isRead
    revert value
    decide +kernel

end SvpMcp
