import SvpMcp.Lib.Decimal
import SvpMcp.Lib.Strings

/-!
# Fixed-point decimals

`math.LegacyDec`: an integer of units of 10⁻¹⁸, with a bound on its size. An
operation whose result exceeds the bound panics, which is `none` here.
-/

namespace SvpMcp

/-- A decimal, in units of 10⁻¹⁸. -/
structure LegacyDec where
  units : Int
deriving DecidableEq, Repr

namespace LegacyDec

/-- `LegacyPrecision`. -/
def precision : Nat := 18

/-- The units of one. -/
def one : Int := 10 ^ precision

variable (d : LegacyDec) (n : Int)

/-- The bound on an integer: `MaxBitLen` bits. -/
def fitsInt : Bool := n.natAbs < 2 ^ 256

/-- The first units beyond `upperLimit`. -/
def limit : Nat := 2 ^ 256 * 10 ^ precision

/-- `IsInValidRange`. -/
def fits : Bool := n.natAbs < limit

/-- The decimal of some units, if they are within the bound. -/
def ofUnits : Option LegacyDec :=
  if fits n then some ⟨n⟩ else none

/-- `LegacyNewDecFromStr` — an optional minus sign, and digits with at most one point that has
digits on both sides and at most 18 behind it. -/
def ofString (text : List Char) : Option LegacyDec :=
  let (negative, text) := match text with
    | '-' :: rest => (true, rest)
    | text => (false, text)
  if text = [] then none
  else
    let (whole, fraction, hasFraction) := Strings.cut '.' text
    let places := Strings.byteLength fraction
    if hasFraction ∧ (whole = [] ∨ fraction = [] ∨ '.' ∈ fraction) then none
    else if places > precision then none
    else
      match Decimal.read (whole ++ fraction ++ List.replicate (precision - places) '0') with
      | none => none
      | some n => if fits n then some ⟨if negative then -n else n⟩ else none

/-- `NewIntWithDecimal(1, decimals)`. -/
def newIntWithDecimal (decimals : Int) : Except String Int :=
  if decimals < 0 then .error "NewIntWithDecimal() decimal is negative"
  else if fitsInt (10 ^ decimals.toNat) then .ok (10 ^ decimals.toNat)
  else .error "NewIntWithDecimal() out of bound"

/-- `LegacyNewDecFromIntWithPrec`. -/
def ofIntWithPrec (n prec : Int) : Except String LegacyDec :=
  if prec < 0 then .error "negative precision"
  else if precision < prec then .error "too much precision"
  else .ok ⟨n * 10 ^ (precision - prec.toNat)⟩

/-- `String` — the whole part, a point and 18 digits. -/
def print : List Char :=
  let magnitude := d.units.natAbs
  let digits := Decimal.digits (magnitude / 10 ^ precision) ++
    '.' :: Decimal.padded precision (magnitude % 10 ^ precision)
  if d.units < 0 then '-' :: digits else digits

/-- `IsPositive`. -/
def isPositive : Bool := 0 < d.units

/-- `MulInt`. -/
def mulInt : Option LegacyDec :=
  ofUnits (d.units * n)

/-- The division by one with ties to the even quotient. -/
def roundHalfEven (n : Nat) : Nat :=
  let (quo, rem) := (n / 10 ^ precision, n % 10 ^ precision)
  if 2 * rem < 10 ^ precision then quo
  else if 10 ^ precision < 2 * rem then quo + 1
  else if quo % 2 = 0 then quo
  else quo + 1

/-- `chopPrecisionAndRound`. -/
def chopRound : Int :=
  if n < 0 then -(roundHalfEven n.natAbs : Int) else roundHalfEven n.natAbs

/-- `RoundInt` — the nearest whole number, which must fit an integer. -/
def roundInt : Option Int :=
  if fitsInt (chopRound d.units) then some (chopRound d.units) else none

/-- `LegacyNewDecFromBigInt`. -/
def ofBigInt : LegacyDec := ⟨n * one⟩

/-- `LegacyZeroDec`. -/
def zero : LegacyDec := ⟨0⟩

/-- `LegacyOneDec`. -/
def oneDec : LegacyDec := ⟨one⟩

/-- `Add`. -/
def add (d d2 : LegacyDec) : Option LegacyDec :=
  ofUnits (d.units + d2.units)

/-- `Sub`. -/
def sub (d d2 : LegacyDec) : Option LegacyDec :=
  ofUnits (d.units - d2.units)

/-- `Mul` — rounded. -/
def mul (d d2 : LegacyDec) : Option LegacyDec :=
  ofUnits (chopRound (d.units * d2.units))

/-- `Quo` by a decimal that is not zero — cut off at twice the precision and rounded. -/
def quo (d d2 : LegacyDec) : Option LegacyDec :=
  ofUnits (chopRound ((d.units * (one * one)).tdiv d2.units))

/-- `QuoInt64` — cut off, without a check of the size. -/
def quoInt : LegacyDec :=
  ⟨d.units.tdiv n⟩

/-- The loop of `Power`: the base is squared and the odd factors are gathered, while more than one
factor is left. -/
def powerLoop : Nat → Nat → LegacyDec → LegacyDec → Option (LegacyDec × LegacyDec)
  | 0, _, d, tmp => some (d, tmp)
  | fuel + 1, i, d, tmp =>
    if i ≤ 1 then some (d, tmp)
    else do
      let tmp ← if i % 2 ≠ 0 then tmp.mul d else some tmp
      let d ← d.mul d
      powerLoop fuel (i / 2) d tmp

/-- `Power` — by repeated squaring; the loop halves the power, so the power itself is enough
fuel. -/
def power (n : Nat) : Option LegacyDec :=
  if n = 0 then some oneDec
  else do
    let (d, tmp) ← powerLoop n n d oneDec
    d.mul tmp

/-- `LT`. -/
def lt (d d2 : LegacyDec) : Bool := d.units < d2.units

/-- `TruncateDec` — the whole part as a decimal. -/
def truncateDec : LegacyDec :=
  ⟨d.units.tdiv one * one⟩

/-- `TruncateInt` — the whole part, which must fit an integer. -/
def truncateInt : Option Int :=
  if fitsInt (d.units.tdiv one) then some (d.units.tdiv one) else none

end LegacyDec

end SvpMcp
