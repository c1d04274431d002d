import SvpMcp.Model.AccountReads
import SvpMcp.Model.LendoraOps

/-!
# The Lendora account views

The tools of `tools/lendora_read.go` that read one account: the address given, checked against the
tenant, or the tenant's owner.
-/

namespace SvpMcp

open Handler

/-- The groups of `groupThousands` after the first, each behind a comma. -/
def commaGroups : List Char → List Char
  | a :: b :: c :: rest => ',' :: a :: b :: c :: commaGroups rest
  | _ => []

/-- Digits in groups of three. -/
def groupThousands (digits : List Char) : List Char :=
  let n := digits.length
  if n ≤ 3 then digits
  else
    let lead := if n % 3 = 0 then 3 else n % 3
    digits.take lead ++ commaGroups (digits.drop lead)

/-- The digits of an amount in cents, at least three. -/
def centDigits (cents : Nat) : List Char :=
  let s := Decimal.digits cents
  List.replicate (3 - s.length) '0' ++ s

/-- `RoundInt`, with its panic. -/
def rounded (d : LegacyDec) : Except Fault Nat :=
  match d.roundInt with
  | some n => .ok n.natAbs
  | none => .error (.panic "NewIntFromBigInt() out of bound")

/-- An amount as dollars and cents, rounded to the nearest cent with ties to the even one. -/
def formatUSD (d : LegacyDec) : Except Fault String := do
  let scaled ← decimal (LegacyDec.mulInt ⟨d.units.natAbs⟩ 100)
  let s := centDigits (← rounded scaled)
  let whole := groupThousands (s.take (s.length - 2))
  let sign := if d.units < 0 then "-" else ""
  return sign ++ "$" ++ String.ofList (whole ++ '.' :: s.drop (s.length - 2))

/-- `formatUSD` of an amount that may be missing, which is the empty text. -/
def formatOptionalUSD : Option LegacyDec → Except Fault String
  | none => .ok ""
  | some d => formatUSD d

/-- A position as text. -/
structure PositionDTO where
  symbol : String
  cToken : String
  supplied : String
  borrowed : String
  suppliedUSD : String
  borrowedUSD : String
  collateralEnabled : Bool
  isNative : Bool
deriving DecidableEq, Repr

/-- Print a position. -/
def positionDTO (p : MarketPosition) : Except Fault PositionDTO := do
  let supplied ← humanOut p.suppliedUnderlying p.underlyingDecimals
  let borrowed ← humanOut p.borrowedUnderlying p.underlyingDecimals
  let suppliedUSD ← formatOptionalUSD (if p.feedOK then some p.suppliedUSD else none)
  let borrowedUSD ← formatOptionalUSD (if p.feedOK then some p.borrowedUSD else none)
  return ⟨p.symbol, p.cToken.hex, supplied, borrowed, suppliedUSD, borrowedUSD,
    p.collateralEnabled, p.isCEther⟩

/-- The owner a view is about. -/
structure ViewOwner where
  owner : String
  eth : Address

variable (deps : Deps) (evm : EvmDeps) (ctx : Context)

/-- `lendoraOwner` — an omitted address is the tenant's owner. -/
def lendoraOwner (tool addrArg : String) :
    Handler ViewOwner := do
  let tp ← authorize ctx tool
  let named := String.ofList (Strings.trimSpace addrArg.toList)
  if named = "" then
    let eth ← ofResult (ownerEthAddress deps.codec tp.owner)
    return ⟨tp.owner, eth⟩
  else
    checkOwner tp.tenantID named
    let eth ← ofResult (ownerEthAddress deps.codec named)
    return ⟨named, eth⟩

/-- The steps the views of the risk engine share. -/
def riskView (tool addrArg : String) :
    Handler (String × RiskResult) := do
  let account ← lendoraOwner deps ctx tool addrArg
  requireLendora deps evm
  let r ← computeRisk account.eth
  return (account.owner, r)

/-- `LendoraGetAccountSummaryOutput`. -/
structure LendoraSummary where
  blockNumber : UInt64
  owner : String
  totalSuppliedUSD : String
  totalBorrowedUSD : String
  healthFactor : String
  riskLevel : String
  riskEmoji : String
  maxBorrowableUSD : String
  marketsWithPosition : Nat
deriving DecidableEq, Repr

/-- The summary of a risk analysis. -/
def summaryOf (owner : String) (r : RiskResult) : Except Fault LendoraSummary := do
  let totalSuppliedUSD ← formatUSD r.totalSuppliedUSD
  let totalBorrowedUSD ← formatUSD r.totalBorrowedUSD
  let maxBorrowableUSD ← formatOptionalUSD r.maxBorrowableUSD
  return {
    blockNumber := r.blockNumber
    owner, totalSuppliedUSD, totalBorrowedUSD
    healthFactor := healthFactorString r
    riskLevel := r.riskLevel.text
    riskEmoji := r.riskLevel.emoji
    maxBorrowableUSD
    marketsWithPosition := r.positions.length }

/-- The tool `lendora_get_account_summary`. -/
def lendoraGetAccountSummary (addrArg : String) : Handler LendoraSummary := do
  let (owner, r) ← riskView deps evm ctx "lendora_get_account_summary" addrArg
  ofCall (summaryOf owner r)

/-- `LendoraGetAccountPositionsOutput`. -/
structure LendoraPositions where
  blockNumber : UInt64
  owner : String
  positions : List PositionDTO
deriving DecidableEq, Repr

/-- The positions of a risk analysis. -/
def positionsOf (owner : String) (r : RiskResult) : Except Fault LendoraPositions := do
  let positions ← r.positions.mapM positionDTO
  return ⟨r.blockNumber, owner, positions⟩

/-- The tool `lendora_get_account_positions`. -/
def lendoraGetAccountPositions (addrArg : String) : Handler LendoraPositions := do
  let (owner, r) ← riskView deps evm ctx "lendora_get_account_positions" addrArg
  ofCall (positionsOf owner r)

/-- `LendoraAssessRiskOutput`. -/
structure LendoraAssessment where
  blockNumber : UInt64
  owner : String
  healthFactor : String
  riskLevel : String
  riskEmoji : String
  hasDebt : Bool
  totalSuppliedUSD : String
  totalBorrowedUSD : String
  maxBorrowableUSD : String
  shortfall : Bool
  positions : List PositionDTO
deriving DecidableEq, Repr

/-- The risk report of a risk analysis. -/
def assessmentOf (owner : String) (r : RiskResult) : Except Fault LendoraAssessment := do
  let totalSuppliedUSD ← formatUSD r.totalSuppliedUSD
  let totalBorrowedUSD ← formatUSD r.totalBorrowedUSD
  let maxBorrowableUSD ← formatOptionalUSD r.maxBorrowableUSD
  let positions ← r.positions.mapM positionDTO
  return {
    blockNumber := r.blockNumber
    owner
    healthFactor := healthFactorString r
    riskLevel := r.riskLevel.text
    riskEmoji := r.riskLevel.emoji
    hasDebt := r.hasDebt
    totalSuppliedUSD, totalBorrowedUSD, maxBorrowableUSD
    shortfall := 0 < r.shortfallNat
    positions }

/-- The tool `lendora_assess_risk`. -/
def lendoraAssessRisk (addrArg : String) : Handler LendoraAssessment := do
  let (owner, r) ← riskView deps evm ctx "lendora_assess_risk" addrArg
  ofCall (assessmentOf owner r)

/-- `nativeGasBalance` — zero if the bank does not answer. -/
def nativeGasBalance (owner : String) : Handler String := do
  let (answer : Except String (List BankCoin)) ← call (.allBalances owner)
  match (answer.toOption.getD []).lookup "asvp" with
  | some amount => ofCall (humanAmount amount 18)
  | none => return "0"

/-- The balance of an account in cTokens; a failed call is reported as it is. -/
def cTokenBalance (cToken account : Address) : Handler Nat := do
  let (answer : Except String Bytes) ←
    call (.evm homeClient (.callContract cToken (packBalanceOf account)))
  let out ← ofResult (answer.mapError .external)
  ofResult (unpacked "balanceOf" (Abi.unpackUint out))

/-- The calldata of `exchangeRateStored`. -/
def packExchangeRateStored : Bytes := Abi.pack "exchangeRateStored()" []

/-- `cTokenUint` of the exchange rate. -/
def exchangeRateStored (cToken : Address) : Handler Nat := do
  let (out : Bytes) ← evmRead homeClient (.callContract cToken packExchangeRateStored)
    "read %s for %s: %w" ["exchangeRateStored", cToken.hex]
  ofResult (unpacked "exchangeRateStored" (Abi.unpackUint out))

/-- The balances of a token as text. -/
structure WalletBalanceDTO where
  symbol : String
  wallet : String
  supplied : String
  walletUSD : String
deriving DecidableEq, Repr

/-- What the account has supplied to a market, in the underlying. -/
def suppliedUnderlying (cToken : Address) (cBal : Nat) : Handler Nat :=
  if cBal = 0 then return 0
  else do
    let exRate ← exchangeRateStored cToken
    return cBal * exRate / e18

/-- The value of a wallet balance; the empty text if there is no price. -/
def walletValue (oracle : Address) (m : Market) (walletBal : Nat) : Handler String := do
  let price ← attempt (underlyingUsdPrice oracle m.cToken)
  match price with
  | .ok (some (answer, feedDec)) => ofCall do
    let usd ← usdFromFeed walletBal m.underlyingDecimals answer feedDec
    formatUSD usd
  | _ => return ""

/-- One turn of the loop of `LendoraGetBalances`. -/
def addWalletBalance (oracle owner : Address) (m : Market) (out : List WalletBalanceDTO) :
    Handler (List WalletBalanceDTO) :=
  if m.isCEther then return out
  else do
    let walletBal ← erc20Balance m.underlying owner
    let cBal ← cTokenBalance m.cToken owner
    if walletBal = 0 ∧ cBal = 0 then return out
    else
      let suppliedBal ← suppliedUnderlying m.cToken cBal
      let wallet ← ofCall (humanOut walletBal m.underlyingDecimals)
      let supplied ← ofCall (humanOut suppliedBal m.underlyingDecimals)
      let walletUSD ← walletValue oracle m walletBal
      return out ++ [⟨m.symbol, wallet, supplied, walletUSD⟩]

/-- The loop of `LendoraGetBalances`. -/
def addWalletBalances (oracle owner : Address) :
    List Market → List WalletBalanceDTO → Handler (List WalletBalanceDTO)
  | [], out => return out
  | m :: rest, out => do
    let out ← addWalletBalance oracle owner m out
    addWalletBalances oracle owner rest out

/-- `LendoraGetBalancesOutput`. -/
structure LendoraBalances where
  blockNumber : UInt64
  owner : String
  gasToken : String
  balances : List WalletBalanceDTO
deriving DecidableEq, Repr

/-- `LendoraGetBalances` — the markets are visited by symbol. -/
def lendoraGetBalances (addrArg : String) : Handler LendoraBalances := do
  let account ← lendoraOwner deps ctx "lendora_get_balances" addrArg
  requireLendora deps evm
  let oracle ← lendoraOracle
  let blockNumber ← evmBlockNumber
  let gasToken ← nativeGasBalance account.owner
  let (cache : LendoraCache) ← call .lendoraCache
  let markets := cache.ordered.mergeSort fun a b => a.symbol ≤ b.symbol
  let balances ← addWalletBalances oracle account.eth markets []
  return ⟨blockNumber, account.owner, gasToken, balances⟩

end SvpMcp
