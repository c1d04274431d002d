import SvpMcp.Model.LendoraRisk

/-!
# The Lendora operations

The part of `tools/lendora_ops.go` every operation shares, and the tools that build a borrow, a
supply and a repay.
-/

namespace SvpMcp

open Handler

/-- `LendoraSimulation`; the mark of the band follows from the band. -/
structure LendoraSimulation where
  blockNumber : UInt64
  action : String
  asset : String
  amount : String
  currentHealthFactor : String
  projectedHealthFactor : String
  projectedRiskLevel : RiskLevel
  warnings : List String
deriving DecidableEq, Repr

/-- The health factor below which an operation is refused. -/
def hfBlock : LegacyDec := ⟨LegacyDec.one⟩

/-- The health factor below which an operation is warned of. -/
def hfWarn : LegacyDec := ⟨1200000000000000000⟩

/-- `projectHF` — the health factor, the band and the warning of two sums. -/
def projectHF (postCollateral postBorrow : Int) :
    Except Fault (String × RiskLevel × Option String) :=
  if postBorrow ≤ 0 then .ok ("∞", .low, none)
  else do
    let hf ← decimal ((LegacyDec.ofBigInt postCollateral).quo (.ofBigInt postBorrow))
    let text := String.ofList hf.print
    let level := riskBand true (if postCollateral < postBorrow then 1 else 0) hf
    let warn :=
      if hf.lt hfBlock = false ∧ hf.lt hfWarn then
        some ("projected health factor " ++ text ++
          " is close to the 1.0 liquidation threshold — leave a larger buffer")
      else none
    return (text, level, warn)

/-- The health factor as text. -/
def healthFactorString (r : RiskResult) : String :=
  if r.hasDebt then String.ofList r.healthFactor.print else "∞"

/-- What an operation does to the account. -/
def simulation (action asset amount : String) (r : RiskResult) (postCollateral postBorrow : Int) :
    Except Fault LendoraSimulation := do
  let (hf, level, warn) ← projectHF postCollateral postBorrow
  return {
    blockNumber := r.blockNumber
    action, asset, amount
    currentHealthFactor := healthFactorString r
    projectedHealthFactor := hf
    projectedRiskLevel := level
    warnings := warn.toList }

/-- The approval an operation waits for. -/
structure LendoraApproval where
  tool : String
  token : String
  spender : String
  minAmount : String
  retryTool : String
  message : String
deriving DecidableEq, Repr

/-- What an operation returns. -/
structure LendoraTxOutput where
  simulation : LendoraSimulation
  /-- The payload, unless an approval must come first. -/
  payload : Option EVMTxPayload
  approvalRequired : Option LendoraApproval
deriving DecidableEq, Repr

variable (deps : Deps) (op : OpContext) (evm : EvmDeps)

/-- `requireLendora`; the cache is there when the Comptroller is configured. -/
def requireLendora : Handler Unit := do
  requireEVM deps
  require evm.comptroller.isSome (.errorf
    ⟨"Lendora is not enabled on this server (no evm_lendora_comptroller_addr configured)", []⟩)

/-- `LoadMarket` — a market that is not in the cache. -/
def loadUncached (cToken : Address) : Handler (Option Market) := do
  let (cache : LendoraCache) ← call .lendoraCache
  let cEther ← resolveCEther cache.oracle
  let loaded ← attempt (loadMarket cToken cEther)
  return loaded.toOption

/-- The error of an asset that is no market. -/
def unknownAsset (asset : String) : Err :=
  .errorf ⟨"unknown Lendora asset %q — pass an underlying symbol (e.g. \"USDC\") or a market " ++
    "0x address", [asset]⟩

/-- The market of an asset that the cache does not know. -/
def resolveUncached (asset : String) : Handler Market := do
  let t := Strings.trimSpace asset.toList
  if Address.isHex t then
    let loaded ← loadUncached (.ofHex (String.ofList t))
    match loaded with
    | some m => return m
    | none => fail (unknownAsset asset)
  else fail (unknownAsset asset)

/-- The market of an asset. -/
def resolveAsset (asset : String) : Handler Market := do
  let (cache : LendoraCache) ← call .lendoraCache
  match cache.resolve asset with
  | some m => return m
  | none => resolveUncached asset

/-- The operations that refuse the native market. -/
def nativeUnsupportedOps : List (String × String) :=
  [("lendora_build_supply_tx", "supplying"), ("lendora_build_repay_tx", "repaying")]

/-- The check of `opCommon` on the native market. -/
def checkNative (tool : String) (m : Market) : Except Err Unit :=
  match nativeUnsupportedOps.lookup tool with
  | some verb => refuseIf m.isCEther (.errorf
      ⟨"%s %s is not supported yet: %s is the native market and its cToken takes a value rather " ++
        "than an amount argument — borrowing, withdrawing, and enabling/disabling collateral do " ++
        "work on %s", [verb, m.symbol, m.symbol, m.symbol]⟩)
  | none => .ok ()

/-- What every operation starts from. -/
structure OpContext where
  owner : Address
  ownerBech : String
  market : Market
  risk : RiskResult

variable (ctx : Context)

/-- What every operation starts with. -/
def opCommon (tool asset : String) :
    Handler OpContext := do
  let tp ← authorize ctx tool
  requireLendora deps evm
  let market ← resolveAsset asset
  ofResult (checkNative tool market)
  let owner ← ofResult (ownerEthAddress deps.codec tp.owner)
  let risk ← computeRisk owner
  return ⟨owner, tp.owner, market, risk⟩

/-- The liquidity after a change. -/
def hypotheticalLiquidity (owner cToken : Address) (redeemTokens borrowAmount : Int) :
    Handler (Nat × Nat) := do
  let answer ← lendoraRead
    (.getHypotheticalAccountLiquidity owner cToken redeemTokens borrowAmount)
    "getHypotheticalAccountLiquidity" none
  ofResult (accountLiquidity "getHypotheticalAccountLiquidity" answer)

/-- Assemble the payload of an operation. -/
def finishOp (ownerBech : String) (recipient : Address) (data : Bytes)
    (clientID tool description : String) (sim : LendoraSimulation) : Handler LendoraTxOutput := do
  let payload ← assembleERC deps homeClient ownerBech recipient data clientID tool description
  return ⟨sim, some payload, none⟩

/-- The calldata of `borrow`. -/
def packBorrow (amount : Int) : Bytes := Abi.pack "borrow(uint256)" [.uint amount]

/-- The arguments of a loan. -/
structure LendoraBorrowInput where
  /-- The underlying, by symbol or address. -/
  asset : String
  amount : String
  clientID : String
deriving DecidableEq, Repr

/-- The tool `lendora_build_borrow_tx`. -/
def lendoraBuildBorrowTx (input : LendoraBorrowInput) : Handler LendoraTxOutput := do
  let op ← opCommon deps evm ctx "lendora_build_borrow_tx" input.asset
  let amount ← baseAmount "amount" input.amount op.market.underlyingDecimals
  let (liq, short) ← hypotheticalLiquidity op.owner op.market.cToken 0 amount
  require (short = 0) (.errorf ⟨"borrowing %s %s would make your position undercollateralized " ++
    "(health factor below 1.0) — borrow less or supply more collateral",
    [input.amount, op.market.symbol]⟩)
  let price ← cTokenUnderlyingPriceNativeVia op.market.cToken
  let postBorrow : Int := op.risk.sumBorrowNat + nativeValue price amount.toNat
  let postCollateral : Int := (liq - short : Int) + postBorrow
  let sim ← ofCall
    (simulation "borrow" op.market.symbol input.amount op.risk postCollateral postBorrow)
  finishOp deps op.ownerBech op.market.cToken (packBorrow amount) input.clientID
    "lendora_build_borrow_tx"
    ("borrow " ++ input.amount ++ " " ++ op.market.symbol ++ " from Lendora") sim

/-- `checkLendoraAllowance` — the approval that is missing, if any. -/
def checkLendoraAllowance (m : Market) (owner : Address) (amount : Int)
    (amountHuman retryTool : String) : Handler (Option LendoraApproval) := do
  let (out : Bytes) ← evmRead homeClient
    (.callContract m.underlying (packERC20Allowance owner m.cToken))
    "read allowance for %s: %w" [m.underlying.hex]
  let allowance ← ofResult (unpacked "allowance" (Abi.unpackUint out))
  if (allowance : Int) < amount then
    return some {
      tool := "build_erc20_approve", token := m.underlying.hex, spender := m.cToken.hex
      minAmount := amountHuman, retryTool
      message := "the market's allowance on " ++ m.underlying.hex ++
        " is insufficient — call build_erc20_approve (token " ++ m.underlying.hex ++
        ", spender " ++ m.cToken.hex ++ ", amount >= " ++ amountHuman ++
        ") first, then retry " ++ retryTool }
  else return none

/-- The end of a supply and of a repay: the allowance of what is pulled, then the payload. -/
def finishWithAllowance (pull : Int) (data : Bytes) (amountLabel clientID tool description : String)
    (sim : LendoraSimulation) :
    Handler LendoraTxOutput := do
  let missing ← checkLendoraAllowance op.market op.owner pull amountLabel tool
  match missing with
  | some approval => return ⟨sim, none, some approval⟩
  | none => finishOp deps op.ownerBech op.market.cToken data clientID tool description sim

/-- The collateral an amount adds. -/
def weightedNative (price amount cf : Nat) : Nat := cf * nativeValue price amount / e18

/-- The calldata of `mint`. -/
def packMint (amount : Int) : Bytes := Abi.pack "mint(uint256)" [.uint amount]

/-- The arguments of a supply. -/
structure LendoraSupplyInput where
  /-- The underlying, by symbol or address. -/
  asset : String
  amount : String
  clientID : String
deriving DecidableEq, Repr

/-- The warning of a supply to a market that is not entered. -/
def supplyWarn : String :=
  "this market is not enabled as collateral, so supplying does not change your health factor — " ++
    "enable it with lendora_build_collateral_tx (action=enable)"

/-- Whether the owner has a position in the market and has entered it. -/
def OpContext.enteredPosition : Bool :=
  match op.risk.marketPosition op.market.cToken with
  | some pos => pos.collateralEnabled
  | none => false

/-- The collateral a supply adds, and its warning. -/
def addedCollateral (amount : Int) : Handler (Nat × List String) :=
  if op.enteredPosition then do
    let price ← cTokenUnderlyingPriceNativeVia op.market.cToken
    let cf ← cTokenCollateralFactor op.market.cToken
    return (weightedNative price amount.toNat cf, [])
  else return (0, [supplyWarn])

/-- The tool `lendora_build_supply_tx`. -/
def lendoraBuildSupplyTx (input : LendoraSupplyInput) : Handler LendoraTxOutput := do
  let op ← opCommon deps evm ctx "lendora_build_supply_tx" input.asset
  let amount ← baseAmount "amount" input.amount op.market.underlyingDecimals
  let (added, warnings) ← addedCollateral op amount
  let sim ← ofCall (simulation "supply" op.market.symbol input.amount op.risk
    (op.risk.sumCollateralNat + added) op.risk.sumBorrowNat)
  finishWithAllowance deps op amount (packMint amount) input.amount input.clientID
    "lendora_build_supply_tx"
    ("supply " ++ input.amount ++ " " ++ op.market.symbol ++ " to Lendora")
    { sim with warnings := sim.warnings ++ warnings }

/-- The calldata of `repayBorrow`. -/
def packRepayBorrow (amount : Int) : Bytes := Abi.pack "repayBorrow(uint256)" [.uint amount]

/-- The arguments of a repayment. -/
structure LendoraRepayInput where
  /-- The underlying, by symbol or address. -/
  asset : String
  /-- The amount, in human units; empty is the whole debt. -/
  amount : String
  full : Bool
  clientID : String
deriving DecidableEq, Repr

/-- What a repay encodes, what it pulls, and its label. -/
structure RepayPlan where
  /-- The argument of the call. -/
  packAmount : Int
  /-- The underlying that is pulled. -/
  pull : Int
  amountLabel : String
deriving DecidableEq, Repr

/-- The debt of the owner in the market. -/
def OpContext.debt : Nat :=
  match op.risk.marketPosition op.market.cToken with
  | some pos => pos.borrowedUnderlying
  | none => 0

/-- The repay of the whole debt, with the sentinel. -/
def repayFull : Except Fault RepayPlan :=
  if op.debt = 0 then
    .error (.error (.errorf ⟨"you have no outstanding %s borrow to repay", [op.market.symbol]⟩))
  else .ok ⟨maxUint256, op.debt, "full"⟩

/-- The amount of a repay. -/
def repayPlan (input : LendoraRepayInput) : Except Fault RepayPlan :=
  if input.full ∨ input.amount = "" then repayFull op
  else do
    let amount ← wrapFault "amount: %w"
      (humanToBaseUnits input.amount op.market.underlyingDecimals)
    if (op.debt : Int) ≤ amount then repayFull op else return ⟨amount, amount, input.amount⟩

/-- The tool `lendora_build_repay_tx`. -/
def lendoraBuildRepayTx (input : LendoraRepayInput) : Handler LendoraTxOutput := do
  let op ← opCommon deps evm ctx "lendora_build_repay_tx" input.asset
  let plan ← ofCall (repayPlan op input)
  let price ← cTokenUnderlyingPriceNativeVia op.market.cToken
  let reduced : Int := op.risk.sumBorrowNat - nativeValue price plan.pull.toNat
  let postBorrow := if reduced < 0 then 0 else reduced
  let sim ← ofCall (simulation "repay" op.market.symbol plan.amountLabel op.risk
    op.risk.sumCollateralNat postBorrow)
  finishWithAllowance deps op plan.pull (packRepayBorrow plan.packAmount) plan.amountLabel
    input.clientID "lendora_build_repay_tx"
    ("repay " ++ plan.amountLabel ++ " " ++ op.market.symbol ++ " to Lendora") sim

end SvpMcp
