import SvpMcp.Lib.LegacyDec
import SvpMcp.Model.Transaction

/-!
# Human amounts and base units

The two conversions of `tools/account.go` between the decimal amounts callers write
and the integers the chain moves.
-/

namespace SvpMcp

/-- The wrapping of an error under a prefix; a panic passes through. -/
def wrapFault {α : Type} (format : String) (result : Except Fault α) : Except Fault α :=
  result.mapError fun
    | .error e => .error (.wrap format [] e)
    | .panic reason => .panic reason

/-- `humanAmount` — the decimal of a base amount without trailing zeros; more than 18 decimals
panic. -/
def humanAmount (amount decimals : Int) : Except Fault String := do
  let dec ← (LegacyDec.ofIntWithPrec amount decimals).mapError .panic
  -- The printed decimal always has a point.
  return String.ofList (Strings.trimRight (Strings.trimRight dec.print '0') '.')

/-- `math.NewIntFromBigInt` of an amount, and `humanAmount` of it. -/
def humanOut (amount decimals : Int) : Except Fault String :=
  if LegacyDec.fitsInt amount then humanAmount amount decimals
  else .error (.panic "NewIntFromBigInt() out of bound")

/-- The scaling of `humanToBaseUnits`, with the panics of the arithmetic. -/
def scaleUp (dec : LegacyDec) (decimals : Int) : Except Fault LegacyDec := do
  let scale ← (LegacyDec.newIntWithDecimal decimals).mapError .panic
  match dec.mulInt scale with
  | some scaled => .ok scaled
  | none => .error (.panic "Int overflow")

/-- The end of `humanToBaseUnits`: the scaled amount must be whole. -/
def wholeUnits (human : String) (decimals : Int) (scaled : LegacyDec) : Except Fault Int :=
  if scaled ≠ scaled.truncateDec then
    .error (.error (.errorf ⟨"amount %q has more precision than %d decimals allow",
      [human, String.ofList (Decimal.print decimals)]⟩))
  else
    match scaled.truncateInt with
    | none => .error (.panic "NewIntFromBigInt() out of bound")
    | some amount => .ok amount

/-- `humanToBaseUnits` — the scaled amount; too large a value panics. -/
def humanToBaseUnits (human : String) (decimals : Int) : Except Fault Int :=
  match LegacyDec.ofString human.toList with
  | none => .error (.error (.wrap "invalid amount %q: %w" [human] (.external "invalid decimal")))
  | some dec =>
    if dec.isPositive = false then .error (.error (.errorf ⟨"amount must be > 0", []⟩))
    else do
      let scaled ← scaleUp dec decimals
      wholeUnits human decimals scaled

end SvpMcp
