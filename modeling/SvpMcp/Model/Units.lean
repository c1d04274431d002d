import SvpMcp.Lib.Rounding
import SvpMcp.Model.Markets

/-!
# Order sizes and prices in the chain's units

The package `units`: sizes become quantums, prices become subticks, and a market order's limit
price is snapped to a tick. `big.Rat.SetString` is a parameter.
-/

namespace SvpMcp

/-- The resolution of the quote currency. -/
def quoteCurrencyAtomicResolution : Int32 := -6

/-- `lib.BigIntMulPow10`, rounding down. -/
def bigIntMulPow10 (val : Int) (exponent : Int32) : Int :=
  Rounding.mulPow10 val exponent.toInt

/-- The scaled numerator, divided by the denominator with `Quo`. -/
def scaleRat (rat : ℚ) (exponent : Int32) : Int :=
  (bigIntMulPow10 rat.num exponent).tdiv rat.den

/-- The checks `Sign` and `IsUint64`, and `Uint64`. -/
def toUint64 (result : Int) : Option UInt64 :=
  if result < 0 ∨ 2 ^ 64 ≤ result then none else some (UInt64.ofNat result.toNat)

/-- The words and numbers in which the conversions of sizes and of prices differ. -/
structure UnitScale where
  /-- What is converted. -/
  noun : String
  /-- The chain's unit. -/
  unit : String
  stepName : String
  exponent : Int32
  /-- The step the result must be a multiple of, if it is positive. -/
  step : UInt64

section
variable (setString : String → Option ℚ)

/-- The conversion both functions of `units.go` are. -/
def humanToUnits (scale : UnitScale) (human : String) : Except Err UInt64 :=
  match setString human with
  | none => .error (.errorf ⟨"invalid " ++ scale.noun ++ " %q", [human]⟩)
  | some rat =>
    match toUint64 (scaleRat rat scale.exponent) with
    | none =>
      .error (.errorf ⟨scale.noun ++ " %q out of uint64 range after conversion", [human]⟩)
    | some units =>
      if 0 < scale.step ∧ units % scale.step ≠ 0 then
        .error (.errorf ⟨scale.noun ++ " %q (%d " ++ scale.unit ++ ") is not a multiple of " ++
          scale.stepName ++ " (%d)", [human, String.ofList (Decimal.digits units.toNat),
            String.ofList (Decimal.digits scale.step.toNat)]⟩)
      else .ok units

/-- What `SizeToQuantums` converts with. -/
def sizeScale (market : MarketMeta) : UnitScale where
  noun := "size"
  unit := "quantums"
  stepName := "StepBaseQuantums"
  exponent := -market.atomicResolution
  step := market.stepBaseQuantums

/-- The exponent of `PriceToSubticks` and of `AggressiveSubticks`, in 32 bits. -/
def priceExponent (market : MarketMeta) : Int32 :=
  -market.quantumConversionExponent + market.atomicResolution - quoteCurrencyAtomicResolution

/-- What `PriceToSubticks` converts with. -/
def priceScale (market : MarketMeta) : UnitScale where
  noun := "price"
  unit := "subticks"
  stepName := "SubticksPerTick"
  exponent := priceExponent market
  step := market.subticksPerTick.toUInt64

/-- The quantums of a size. -/
def sizeToQuantums (humanSize : String) (market : MarketMeta) : Except Err UInt64 :=
  humanToUnits setString (sizeScale market) humanSize

/-- The subticks of a price. -/
def priceToSubticks (humanPrice : String) (market : MarketMeta) : Except Err UInt64 :=
  humanToUnits setString (priceScale market) humanPrice

/-- The factor of `AggressiveSubticks` for a side that was checked. -/
def slippageFactor (side : String) (slippageBps : UInt32) : Except Err ℚ :=
  if side = "BUY" then .ok ((10000 + slippageBps.toNat : ℚ) / 10000)
  else if 10000 ≤ slippageBps.toNat then
    .error (.errorf ⟨"slippage_bps %d would push worst price negative for SELL",
      [String.ofList (Decimal.digits slippageBps.toNat)]⟩)
  else .ok ((10000 - slippageBps.toNat : ℚ) / 10000)

/-- The snap to a multiple of the tick: down for a purchase, up for a sale. -/
def snapSubticks (side : String) (subticksPerTick : UInt32) (subticks : UInt64) : UInt64 :=
  if 0 < subticksPerTick then
    let tick := subticksPerTick.toUInt64
    if side = "BUY" then subticks / tick * tick
    else
      let rem := subticks % tick
      if rem ≠ 0 then subticks + (tick - rem) else subticks
  else subticks

/-- The worst price of a market order, in subticks. -/
def aggressiveSubticks (side oraclePx : String) (slippageBps : UInt32) (market : MarketMeta) :
    Except Err UInt64 :=
  let bps := String.ofList (Decimal.digits slippageBps.toNat)
  if side ≠ "BUY" ∧ side ≠ "SELL" then
    .error (.errorf ⟨"invalid side %q (want BUY or SELL)", [side]⟩)
  else
    match setString oraclePx with
    | none => .error (.errorf ⟨"invalid oracle price %q", [oraclePx]⟩)
    | some rat => do
      let factor ← slippageFactor side slippageBps
      match toUint64 (scaleRat (rat * factor) (priceExponent market)) with
      | none =>
        .error (.errorf
          ⟨"aggressive subticks out of uint64 range for oracle=%q slippage=%d bps",
            [oraclePx, bps]⟩)
      | some subticks =>
        let snapped := snapSubticks side market.subticksPerTick subticks
        if snapped = 0 then
          .error (.errorf ⟨"aggressive subticks rounded to 0 (oracle=%q slippage=%d bps " ++
            "too small relative to SubticksPerTick=%d)",
              [oraclePx, bps, String.ofList (Decimal.digits market.subticksPerTick.toNat)]⟩)
        else .ok snapped

end

end SvpMcp
