import SvpMcp.Model.LendoraViews

/-!
# Leaving a Lendora market

The tools of `tools/lendora_ops.go` that take collateral away: a withdrawal, and the switch that
enters or exits a market.
-/

namespace SvpMcp

open Handler

/-- The calldata of `redeem`. -/
def packRedeem (tokens : Int) : Bytes := Abi.pack "redeem(uint256)" [.uint tokens]

/-- The calldata of `redeemUnderlying`. -/
def packRedeemUnderlying (amount : Int) : Bytes :=
  Abi.pack "redeemUnderlying(uint256)" [.uint amount]

/-- The arguments of a withdrawal. -/
structure LendoraWithdrawInput where
  asset : String
  /-- The amount, in human units; empty is everything. -/
  amount : String
  full : Bool
  clientID : String
deriving DecidableEq, Repr

/-- What a withdrawal encodes, what it burns, and its label. -/
structure WithdrawPlan where
  data : Bytes
  /-- The cTokens burned. -/
  redeemTokens : Nat
  amountLabel : String
deriving DecidableEq

variable (op : OpContext)

/-- The withdrawal of the whole balance of cTokens. -/
def withdrawFull : Handler WithdrawPlan := do
  let cBal ← erc20Balance op.market.cToken op.owner
  require (cBal ≠ 0) (.errorf ⟨"you have no supplied %s to withdraw", [op.market.symbol]⟩)
  return ⟨packRedeem cBal, cBal, "full"⟩

/-- The withdrawal of an amount of the underlying. -/
def withdrawPart (human : String) : Handler WithdrawPlan := do
  let amount ← baseAmount "amount" human op.market.underlyingDecimals
  let exRate ← exchangeRateStored op.market.cToken
  require (exRate ≠ 0) (.errorf ⟨"market %s has a zero exchange rate", [op.market.symbol]⟩)
  return ⟨packRedeemUnderlying amount, amount.toNat * e18 / exRate, human⟩

/-- The amount of a withdrawal. -/
def withdrawPlan (input : LendoraWithdrawInput) : Handler WithdrawPlan :=
  if input.full ∨ input.amount = "" then withdrawFull op else withdrawPart op input.amount

/-- The tool `lendora_build_withdraw_tx`. -/
def lendoraBuildWithdrawTx (deps : Deps) (evm : EvmDeps) (ctx : Context)
    (input : LendoraWithdrawInput) : Handler LendoraTxOutput := do
  let op ← opCommon deps evm ctx "lendora_build_withdraw_tx" input.asset
  let plan ← withdrawPlan op input
  let (liq, short) ← hypotheticalLiquidity op.owner op.market.cToken plan.redeemTokens 0
  require (short = 0) (.errorf ⟨"withdrawing %s %s would make your position undercollateralized " ++
    "(health factor below 1.0) — withdraw less or repay debt first",
    [plan.amountLabel, op.market.symbol]⟩)
  let postCollateral : Int := (liq - short : Int) + op.risk.sumBorrowNat
  let sim ← ofCall (simulation "withdraw" op.market.symbol plan.amountLabel op.risk postCollateral
    op.risk.sumBorrowNat)
  finishOp deps op.ownerBech op.market.cToken plan.data input.clientID "lendora_build_withdraw_tx"
    ("withdraw " ++ plan.amountLabel ++ " " ++ op.market.symbol ++ " from Lendora") sim

/-- The calldata of `enterMarkets`. -/
def packEnterMarkets (cTokens : List Address) : Bytes :=
  Abi.pack "enterMarkets(address[])" [.addresses cTokens]

/-- The calldata of `exitMarket`. -/
def packExitMarket (cToken : Address) : Bytes := Abi.pack "exitMarket(address)" [.address cToken]

/-- The arguments of a change of collateral. -/
structure LendoraCollateralInput where
  asset : String
  /-- Whether the market is entered or exited. -/
  action : String
  clientID : String
deriving DecidableEq, Repr

/-- What entering the market adds and exiting it takes away, as the tool values it. -/
def contribution : Handler Nat :=
  match op.risk.marketPosition op.market.cToken with
  | some pos => do
    let price ← cTokenUnderlyingPriceNativeVia op.market.cToken
    return weightedNative price pos.suppliedUnderlying pos.collateralFactor
  | none => return 0

/-- The call data and the collateral that follows from entering the market. -/
def enableCollateral (contributed : Nat) : Bytes × Int :=
  (packEnterMarkets [op.market.cToken],
    if op.enteredPosition then op.risk.sumCollateralNat
    else op.risk.sumCollateralNat + contributed)

/-- The call data and the collateral that follow from exiting the market, if it is let through. -/
def disableCollateral (contributed : Nat) : Except Err (Bytes × Int) := do
  refuseIf (0 < op.debt) (.errorf ⟨"cannot disable %s as collateral while it has an outstanding " ++
    "borrow — repay it first", [op.market.symbol]⟩)
  if op.enteredPosition then do
    let postCollateral := op.risk.sumCollateralNat - contributed
    refuseIf (op.risk.hasDebt ∧ postCollateral < op.risk.sumBorrowNat) (.errorf
      ⟨"disabling %s as collateral would make your position undercollateralized (health factor " ++
        "below 1.0) — repay debt or disable a different market", [op.market.symbol]⟩)
    return (packExitMarket op.market.cToken, postCollateral)
  else return (packExitMarket op.market.cToken, op.risk.sumCollateralNat)

/-- The call data and the collateral of an action. -/
def switchCollateral (action : String) (contributed : Nat) : Except Err (Bytes × Int) :=
  if action = "enable" then .ok (enableCollateral op contributed)
  else if action = "disable" then disableCollateral op contributed
  else .error (.errorf ⟨"action must be \"enable\" or \"disable\", got %q", [action]⟩)

/-- `LendoraBuildCollateralTx` — the transaction goes to the Comptroller. -/
def lendoraBuildCollateralTx (deps : Deps) (evm : EvmDeps) (ctx : Context)
    (input : LendoraCollateralInput) : Handler LendoraTxOutput := do
  let op ← opCommon deps evm ctx "lendora_build_collateral_tx" input.asset
  let contributed ← contribution op
  let (data, postCollateral) ← ofResult (switchCollateral op input.action contributed)
  let action := if input.action = "disable" then "disable_collateral" else "enable_collateral"
  let sim ← ofCall
    (simulation action op.market.symbol "" op.risk postCollateral op.risk.sumBorrowNat)
  finishOp deps op.ownerBech (evm.comptroller.getD .zero) data input.clientID
    "lendora_build_collateral_tx"
    (input.action ++ " " ++ op.market.symbol ++ " as Lendora collateral") sim

end SvpMcp
