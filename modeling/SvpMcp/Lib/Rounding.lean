import Mathlib.Algebra.Order.Field.Power
import Mathlib.Algebra.Order.Floor.Semifield
import Mathlib.Data.Nat.Cast.Order.Field
import Mathlib.Data.Rat.Floor
import Mathlib.Tactic.FieldSimp
import Mathlib.Tactic.Linarith
import Mathlib.Tactic.NormNum

/-!
# Rounding to integers and to ticks

A rational is scaled and cut to an integer, an integer is moved to a multiple of a tick, and a
rational has a nearest integer, the even one of two.
-/

namespace SvpMcp.Rounding

/-- An integer times a power of ten, rounded down. -/
def mulPow10 (v e : Int) : Int :=
  if 0 ≤ e then v * 10 ^ e.toNat else v / 10 ^ (-e).toNat

/-- A rational times a power of ten, cut to an integer in two steps. -/
def scaledQuo (x : ℚ) (e : Int) : Int := (mulPow10 x.num e).tdiv x.den

/-- Scaling rounds down. -/
theorem mulPow10_eq_floor (v e : Int) : mulPow10 v e = ⌊(v : ℚ) * 10 ^ e⌋ := by
  rw [mulPow10]
  by_cases nonneg : 0 ≤ e
  · have power : (10 : ℚ) ^ e = ((10 ^ e.toNat : Int) : ℚ) := by
      rw [Int.cast_pow, Int.cast_ofNat, ← zpow_natCast, Int.toNat_of_nonneg nonneg]
    rw [if_pos nonneg, power, ← Int.cast_mul, Int.floor_intCast]
  · have power : (v : ℚ) * 10 ^ e = (v : ℚ) / ((10 ^ (-e).toNat : Nat) : ℚ) := by
      rw [Nat.cast_pow, Nat.cast_ofNat, ← zpow_natCast, Int.toNat_of_nonneg (by omega),
        zpow_neg, div_inv_eq_mul]
    rw [if_neg nonneg, power, Rat.floor_intCast_div_natCast]
    norm_cast

/-- The denominator divides the scaled numerator like the rational itself. -/
theorem scaled_num (x : ℚ) (e : Int) : (x.num : ℚ) * 10 ^ e / x.den = x * 10 ^ e := by
  have whole : (x.num : ℚ) / x.den = x := x.num_div_den
  rw [mul_div_right_comm, whole]

/-- So does the scaled quotient. -/
theorem scaledQuo_eq_floor {x : ℚ} (nonneg : 0 ≤ x) (e : Int) :
    scaledQuo x e = ⌊x * 10 ^ e⌋ := by
  have numerator : 0 ≤ mulPow10 x.num e := by
    have isNonneg : (0 : ℚ) ≤ x.num := by exact_mod_cast Rat.num_nonneg.mpr nonneg
    rw [mulPow10_eq_floor]
    exact Int.floor_nonneg.mpr (by positivity)
  rw [scaledQuo, Int.tdiv_eq_ediv_of_nonneg numerator, mulPow10_eq_floor,
    ← Int.floor_div_natCast, scaled_num]

/-- The truncated quotient of a negative integer is not negative when the integer is above the
negated divisor. -/
theorem tdiv_nonneg_iff {m : Int} {d : Nat} (negative : m < 0) (pos : 0 < d) :
    (0 ≤ m.tdiv d ↔ 1 - (d : Int) ≤ m) ∧ m.tdiv d ≤ 0 := by
  have split : m.tdiv d = -((m.natAbs / d : Nat) : Int) := by
    have negated : m = -(m.natAbs : Int) := by omega
    conv_lhs => rw [negated]
    rw [Int.neg_tdiv, Int.tdiv_eq_ediv_of_nonneg (by omega)]
    norm_cast
  have small : m.natAbs / d = 0 ↔ m.natAbs < d := Nat.div_eq_zero_iff_lt pos
  rw [split]
  generalize m.natAbs / d = quotient at small
  omega

/-- A negative number stays negative. -/
theorem mulPow10_neg {x : ℚ} (negative : x < 0) (e : Int) : mulPow10 x.num e < 0 := by
  have numerator : (x.num : ℚ) < 0 := by exact_mod_cast Rat.num_neg.mpr negative
  rw [mulPow10_eq_floor, Int.floor_lt, Int.cast_zero]
  exact mul_neg_of_neg_of_pos numerator (by positivity)

/-- The step of a ratio is at most one. -/
theorem one_div_den_le_one (x : ℚ) : 1 / (x.den : ℚ) ≤ 1 := by
  rw [one_div]
  exact Nat.cast_inv_le_one x.den

/-- The cut value is not negative when the scaled rational is at most one below zero, by a
margin the denominator leaves. -/
theorem scaledQuo_nonneg_iff (x : ℚ) (e : Int) :
    0 ≤ scaledQuo x e ↔ 1 / (x.den : ℚ) ≤ x * 10 ^ e + 1 := by
  have denPos : (0 : ℚ) < x.den := by exact_mod_cast x.den_pos
  by_cases nonneg : 0 ≤ x
  · have value : (0 : ℚ) ≤ x * 10 ^ e := by positivity
    have share := one_div_den_le_one x
    rw [scaledQuo_eq_floor nonneg]
    constructor
    · intro _
      linarith
    · intro _
      exact Int.floor_nonneg.mpr value
  · have negative := mulPow10_neg (not_le.mp nonneg) e
    rw [scaledQuo, (tdiv_nonneg_iff negative x.den_pos).1, mulPow10_eq_floor, Int.le_floor,
      ← scaled_num x e, div_add_one denPos.ne', div_le_div_iff_of_pos_right denPos]
    push_cast
    constructor
    · intro above
      linarith
    · intro above
      linarith

/-- A cut value that is not negative is the natural part of the scaled rational. -/
theorem scaledQuo_toNat {x : ℚ} {e : Int} (nonneg : 0 ≤ scaledQuo x e) :
    scaledQuo x e = (⌊x * 10 ^ e⌋₊ : Int) := by
  by_cases sign : 0 ≤ x
  · have value : (0 : ℚ) ≤ x * 10 ^ e := by positivity
    rw [scaledQuo_eq_floor sign, ← Int.natCast_floor_eq_floor value]
  · have value : x * 10 ^ e ≤ 0 :=
      (mul_neg_of_neg_of_pos (not_le.mp sign) (by positivity)).le
    have atMost : scaledQuo x e ≤ 0 :=
      (tdiv_nonneg_iff (mulPow10_neg (not_le.mp sign) e) x.den_pos).2
    rw [Nat.floor_of_nonpos value]
    omega

/-- Another exponent changes a value at least by the factor of the difference. -/
theorem zpow_gap {e e' : Int} (gap : Nat) (apart : e + gap ≤ e') {x : ℚ} (nonneg : 0 ≤ x) :
    x * 10 ^ e * 10 ^ gap ≤ x * 10 ^ e' := by
  have power : (10 : ℚ) ^ e * 10 ^ gap ≤ 10 ^ e' := by
    rw [← zpow_natCast, ← zpow_add₀ (by norm_num)]
    exact zpow_le_zpow_right₀ (by norm_num) apart
  rw [mul_assoc]
  exact mul_le_mul_of_nonneg_left power nonneg

/-- The multiple of a tick at or below a number. -/
def snapDown (tick n : Nat) : Nat := n / tick * tick

/-- The multiple of a tick at or above a number. -/
def snapUp (tick n : Nat) : Nat :=
  if n % tick = 0 then n else n + (tick - n % tick)

variable {tick : Nat}

/-- The result is on the grid. -/
theorem dvd_snapDown (tick n : Nat) : tick ∣ snapDown tick n := Nat.dvd_mul_left tick _

/-- It is not above the number. -/
theorem snapDown_le (tick n : Nat) : snapDown tick n ≤ n := Nat.div_mul_le_self n tick

/-- It is less than a tick below. -/
theorem lt_snapDown_add (pos : 0 < tick) (n : Nat) : n < snapDown tick n + tick :=
  Nat.lt_div_mul_add pos

/-- A number on the grid stays. -/
theorem snapDown_of_dvd {n : Nat} (multiple : tick ∣ n) : snapDown tick n = n :=
  Nat.div_mul_cancel multiple

/-- Rounding down is monotone. -/
theorem snapDown_mono {n m : Nat} (le : n ≤ m) : snapDown tick n ≤ snapDown tick m :=
  Nat.mul_le_mul_right tick (Nat.div_le_div_right le)

/-- A number snaps down to zero exactly below the tick. -/
theorem snapDown_eq_zero (pos : 0 < tick) (n : Nat) : snapDown tick n = 0 ↔ n < tick := by
  have below := lt_snapDown_add pos n
  constructor
  · intro isZero
    omega
  · intro small
    rw [snapDown, Nat.div_eq_of_lt small, Nat.zero_mul]

/-- A whole tick is kept. -/
theorem snapDown_pos (pos : 0 < tick) {n : Nat} (reached : tick ≤ n) : 0 < snapDown tick n := by
  rw [Nat.pos_iff_ne_zero, Ne, snapDown_eq_zero pos]
  omega

/-- A number on the grid stays. -/
theorem snapUp_of_dvd {n : Nat} (multiple : tick ∣ n) : snapUp tick n = n :=
  if_pos (Nat.mod_eq_zero_of_dvd multiple)

/-- The result is not below the number. -/
theorem le_snapUp (tick n : Nat) : n ≤ snapUp tick n := by
  rw [snapUp]
  split
  · exact Nat.le_refl n
  · exact Nat.le_add_right n _

/-- It is less than a tick above. -/
theorem snapUp_lt (pos : 0 < tick) (n : Nat) : snapUp tick n < n + tick := by
  rw [snapUp]
  split
  · omega
  · omega

/-- It is on the grid. -/
theorem dvd_snapUp (pos : 0 < tick) (n : Nat) : tick ∣ snapUp tick n := by
  rw [snapUp]
  split
  case isTrue whole => exact Nat.dvd_of_mod_eq_zero whole
  case isFalse =>
    have below := Nat.mod_lt n pos
    have parts := Nat.div_add_mod n tick
    refine ⟨n / tick + 1, ?_⟩
    rw [Nat.mul_add, Nat.mul_one]
    omega

/-- A number that is no multiple moves. -/
theorem lt_snapUp (pos : 0 < tick) {n : Nat} (apart : ¬ tick ∣ n) : n < snapUp tick n := by
  have below := Nat.mod_lt n pos
  rw [snapUp, if_neg (fun whole => apart (Nat.dvd_of_mod_eq_zero whole))]
  omega

/-- A multiple of the tick is an upper bound of a number and of what it snaps up to alike. -/
theorem snapUp_le_iff (pos : 0 < tick) {n m : Nat} (multiple : tick ∣ m) :
    snapUp tick n ≤ m ↔ n ≤ m := by
  constructor
  · exact fun snapped => Nat.le_trans (le_snapUp tick n) snapped
  · intro le
    by_contra above
    -- Two multiples of the tick that differ are a tick apart.
    have gap := Nat.le_of_dvd (by omega) (Nat.dvd_sub (dvd_snapUp pos n) multiple)
    have bound := snapUp_lt pos n
    omega

/-- Rounding up is monotone. -/
theorem snapUp_mono (pos : 0 < tick) {n m : Nat} (le : n ≤ m) :
    snapUp tick n ≤ snapUp tick m :=
  (snapUp_le_iff pos (dvd_snapUp pos m)).mpr (Nat.le_trans le (le_snapUp tick m))

/-- Only zero is rounded to zero. -/
theorem snapUp_eq_zero (pos : 0 < tick) (n : Nat) : snapUp tick n = 0 ↔ n = 0 := by
  have bound := snapUp_le_iff pos (n := n) (Nat.dvd_zero tick)
  omega

/-- The integer nearest to a rational, the even one of two. -/
structure NearestEven (x : ℚ) (n : Int) : Prop where
  near : |(n : ℚ) - x| ≤ 1 / 2
  tie : |(n : ℚ) - x| = 1 / 2 → n % 2 = 0

/-- Rounding is symmetric. -/
theorem nearestEven_neg {x : ℚ} {n : Int} (nearest : NearestEven x n) : NearestEven (-x) (-n) := by
  have distance : |((-n : Int) : ℚ) - -x| = |(n : ℚ) - x| := by
    rw [Int.cast_neg, neg_sub_neg, abs_sub_comm]
  refine ⟨distance ▸ nearest.near, fun isTie => ?_⟩
  have even := nearest.tie (distance ▸ isTie)
  omega

/-- There is one nearest integer. -/
theorem nearestEven_unique {x : ℚ} {n m : Int} (nearest : NearestEven x n)
    (nearest' : NearestEven x m) : n = m := by
  by_contra apart
  wlog less : n < m generalizing n m
  · exact this nearest' nearest (Ne.symm apart) (by omega)
  -- Two integers within a half of one number are neighbours, each of them half away.
  have next : (n : ℚ) + 1 ≤ m := by exact_mod_cast less
  obtain ⟨below, _⟩ := abs_le.mp nearest.near
  obtain ⟨_, above⟩ := abs_le.mp nearest'.near
  have even := nearest.tie ((abs_eq (by norm_num)).mpr (.inr (by linarith)))
  have even' := nearest'.tie ((abs_eq (by norm_num)).mpr (.inl (by linarith)))
  have neighbour : (m : ℚ) = n + 1 := by linarith
  have isNext : m = n + 1 := by exact_mod_cast neighbour
  omega

/-- The nearest integer to a quotient, by its remainder. -/
theorem nearestEven_div {m k unit : Nat} (pos : 0 < unit) (below : 2 * m ≤ 2 * (k * unit) + unit)
    (above : 2 * (k * unit) ≤ 2 * m + unit)
    (even : 2 * m = 2 * (k * unit) + unit ∨ 2 * (k * unit) = 2 * m + unit → k % 2 = 0) :
    NearestEven ((m : ℚ) / unit) k := by
  have posQ : (0 : ℚ) < unit := by exact_mod_cast pos
  have belowQ : (2 * m : ℚ) ≤ 2 * (k * unit) + unit := by exact_mod_cast below
  have aboveQ : (2 * (k * unit) : ℚ) ≤ 2 * m + unit := by exact_mod_cast above
  have atMost : (m : ℚ) / unit ≤ k + 1 / 2 := (div_le_iff₀ posQ).mpr (by linarith)
  have atLeast : (k : ℚ) - 1 / 2 ≤ m / unit := (le_div_iff₀ posQ).mpr (by linarith)
  rw [show ((k : Nat) : ℚ) = ((k : Int) : ℚ) by norm_cast] at atMost atLeast
  refine ⟨abs_le.mpr ⟨by linarith, by linarith⟩, fun isTie => ?_⟩
  have tied : k % 2 = 0 := by
    apply even
    rcases (abs_eq (by norm_num)).mp isTie with more | less
    · have quotient : (m : ℚ) / unit = k - 1 / 2 := by
        rw [Int.cast_natCast] at more
        linarith
      rw [div_eq_iff posQ.ne'] at quotient
      right
      have doubled : (2 * (k * unit) : ℚ) = 2 * m + unit := by linarith
      exact_mod_cast doubled
    · have quotient : (m : ℚ) / unit = k + 1 / 2 := by
        rw [Int.cast_natCast] at less
        linarith
      rw [div_eq_iff posQ.ne'] at quotient
      left
      have doubled : (2 * m : ℚ) = 2 * (k * unit) + unit := by linarith
      exact_mod_cast doubled
  omega

end SvpMcp.Rounding
