import SvpMcp.Model.LendoraViews

/-!
# The Lendora market list and dashboard

`lendora_get_all_markets` and `lendora_get_protocol_dashboard` of `tools/lendora_read.go`, with the
rates and percentages of `tools/lendora_format.go`.
-/

namespace SvpMcp

open Handler

/-- `decFromMantissa` — eighteen places. -/
def decFromMantissa (mantissa : Nat) : LegacyDec := ⟨mantissa⟩

/-- The arithmetic of `apyFromRatePerBlock`. -/
def compounded (ratePerBlock blocksPerYear : Nat) : Option LegacyDec := do
  let blocksPerDay := (LegacyDec.ofBigInt blocksPerYear).quoInt 365
  let dailyRate ← (decFromMantissa ratePerBlock).mul blocksPerDay
  let base ← LegacyDec.oneDec.add dailyRate
  let grown ← base.power 365
  grown.sub .oneDec

/-- The annual yield of a rate per block. -/
def apyFromRatePerBlock (ratePerBlock blocksPerYear : Nat) : Except Fault LegacyDec :=
  if ratePerBlock = 0 ∨ blocksPerYear = 0 then .ok .zero
  else decimal (compounded ratePerBlock blocksPerYear)

/-- A fraction as a percentage with two places, rounded like the cents of `formatUSD`. -/
def formatPercent (fraction : LegacyDec) : Except Fault String := do
  let pct ← decimal (fraction.mulInt 100)
  let hundredths ← decimal (LegacyDec.mulInt ⟨pct.units.natAbs⟩ 100)
  let s := centDigits (← rounded hundredths)
  let sign := if pct.units < 0 then "-" else ""
  return sign ++ String.ofList (s.take (s.length - 2) ++ '.' :: s.drop (s.length - 2)) ++ "%"

/-- `cTokenUint` of a method without arguments. -/
def cTokenUint (cToken : Address) (method : String) : Handler Nat := do
  let (out : Bytes) ← evmRead homeClient (.callContract cToken (Abi.pack (method ++ "()") []))
    "read %s for %s: %w" [method, cToken.hex]
  ofResult (unpacked method (Abi.unpackUint out))

/-- The blocks a year of a market's rate model. -/
def marketBlocksPerYear (cToken : Address) : Handler Nat := do
  let (modelOut : Bytes) ←
    evmRead homeClient (.callContract cToken (Abi.pack "interestRateModel()" []))
      "read interestRateModel for %s: %w" [cToken.hex]
  let model ← ofResult (unpacked "interestRateModel" (Abi.unpackAddress modelOut))
  let (bpyOut : Bytes) ← evmRead homeClient (.callContract model (Abi.pack "blocksPerYear()" []))
    "read blocksPerYear for model %s: %w" [model.hex]
  ofResult (unpacked "blocksPerYear" (Abi.unpackUint bpyOut))

/-- `comptrollerBool`, whose errors are dropped: false then. -/
def comptrollerBool (comptroller : Address) (method : String) (cToken : Address) :
    Handler Bool := do
  let (answer : Except String Bytes) ← call (.evm homeClient
    (.callContract comptroller (Abi.pack (method ++ "(address)") [.address cToken])))
  return (answer.toOption.bind Abi.unpackBool).getD false

/-- The figures of a market. -/
structure MarketStats where
  symbol : String
  cToken : Address
  underlying : Address
  underlyingDecimals : Int
  isCEther : Bool
  supplyAPY : LegacyDec
  borrowAPY : LegacyDec
  totalSupplyUnderlying : Nat
  totalBorrowUnderlying : Nat
  cashUnderlying : Nat
  reservesUnderlying : Nat
  utilization : LegacyDec
  collateralFactor : LegacyDec
  reserveFactor : LegacyDec
  mintPaused : Bool
  borrowPaused : Bool
  feedOK : Bool
  supplyUSD : LegacyDec
  borrowUSD : LegacyDec
deriving DecidableEq

/-- The utilization of a supply; zero without one. -/
def utilizationOf (borrows supply : Nat) : Except Fault LegacyDec :=
  if supply = 0 then .ok .zero
  else decimal ((LegacyDec.ofBigInt borrows).quo (.ofBigInt supply))

/-- The part of `loadMarketStats` before the value in USD. -/
def marketRates (evm : EvmDeps) (m : Market) : Handler MarketStats := do
  let cash ← cTokenUint m.cToken "getCash"
  let borrows ← cTokenUint m.cToken "totalBorrows"
  let reserves ← cTokenUint m.cToken "totalReserves"
  -- A negative supply becomes zero.
  let supply := cash + borrows - reserves
  let utilization ← ofCall (utilizationOf borrows supply)
  let supplyRate ← cTokenUint m.cToken "supplyRatePerBlock"
  let borrowRate ← cTokenUint m.cToken "borrowRatePerBlock"
  let blocksPerYear ← marketBlocksPerYear m.cToken
  let supplyAPY ← ofCall (apyFromRatePerBlock supplyRate blocksPerYear)
  let borrowAPY ← ofCall (apyFromRatePerBlock borrowRate blocksPerYear)
  let cf ← cTokenCollateralFactor m.cToken
  let rf ← attempt (cTokenUint m.cToken "reserveFactorMantissa")
  let mintPaused ← comptrollerBool (evm.comptroller.getD .zero) "mintGuardianPaused" m.cToken
  let borrowPaused ← comptrollerBool (evm.comptroller.getD .zero) "borrowGuardianPaused" m.cToken
  return {
    symbol := m.symbol
    cToken := m.cToken
    underlying := m.underlying
    underlyingDecimals := m.underlyingDecimals
    isCEther := m.isCEther
    supplyAPY, borrowAPY
    totalSupplyUnderlying := supply
    totalBorrowUnderlying := borrows
    cashUnderlying := cash
    reservesUnderlying := reserves
    utilization
    collateralFactor := decFromMantissa cf
    reserveFactor := decFromMantissa (rf.toOption.getD 0)
    mintPaused, borrowPaused
    feedOK := false
    supplyUSD := .zero
    borrowUSD := .zero }

/-- The end of `loadMarketStats`: the supply and the debt valued at a feed's price. -/
def valueMarket (st : MarketStats) (feed : Option (Int × Int)) : Except Fault MarketStats :=
  match feed with
  | none => .ok st
  | some (answer, feedDec) => do
    let supplyUSD ← usdFromFeed st.totalSupplyUnderlying st.underlyingDecimals answer feedDec
    let borrowUSD ← usdFromFeed st.totalBorrowUnderlying st.underlyingDecimals answer feedDec
    return { st with feedOK := true, supplyUSD, borrowUSD }

/-- Read the figures of a market. -/
def loadMarketStats (evm : EvmDeps) (oracle : Address) (m : Market) : Handler MarketStats := do
  let st ← marketRates evm m
  let feed ← underlyingUsdPrice oracle m.cToken
  ofCall (valueMarket st feed)

/-- A market as text. -/
structure MarketDTO where
  symbol : String
  cToken : String
  underlying : String
  supplyAPY : String
  borrowAPY : String
  totalSupply : String
  totalBorrow : String
  totalSupplyUSD : String
  totalBorrowUSD : String
  utilization : String
  collateralFactor : String
  mintPaused : Bool
  borrowPaused : Bool
  isNative : Bool
deriving DecidableEq, Repr

/-- `marketDTO`, with its texts in the order they are made. -/
def marketDTO (st : MarketStats) : Except Fault MarketDTO := do
  let supplyAPY ← formatPercent st.supplyAPY
  let borrowAPY ← formatPercent st.borrowAPY
  let totalSupply ← humanOut st.totalSupplyUnderlying st.underlyingDecimals
  let totalBorrow ← humanOut st.totalBorrowUnderlying st.underlyingDecimals
  let utilization ← formatPercent st.utilization
  let collateralFactor ← formatPercent st.collateralFactor
  let totalSupplyUSD ← formatOptionalUSD (if st.feedOK then some st.supplyUSD else none)
  let totalBorrowUSD ← formatOptionalUSD (if st.feedOK then some st.borrowUSD else none)
  return {
    symbol := st.symbol
    cToken := st.cToken.hex
    underlying := st.underlying.hex
    supplyAPY, borrowAPY, totalSupply, totalBorrow, totalSupplyUSD, totalBorrowUSD
    utilization, collateralFactor
    mintPaused := st.mintPaused
    borrowPaused := st.borrowPaused
    isNative := st.isCEther }

/-- `LendoraGetAllMarketsOutput`. -/
structure LendoraAllMarkets where
  blockNumber : UInt64
  markets : List MarketDTO
deriving DecidableEq, Repr

/-- One turn of the loop of `LendoraGetAllMarkets`. -/
def addMarketRow (evm : EvmDeps) (oracle : Address) (m : Market) (rows : List MarketDTO) :
    Handler (List MarketDTO) := do
  let st ← loadMarketStats evm oracle m
  let row ← ofCall (marketDTO st)
  return rows ++ [row]

/-- The loop of `LendoraGetAllMarkets`. -/
def addMarketRows (evm : EvmDeps) (oracle : Address) :
    List Market → List MarketDTO → Handler (List MarketDTO)
  | [], rows => return rows
  | m :: rest, rows => do
    let rows ← addMarketRow evm oracle m rows
    addMarketRows evm oracle rest rows

/-- The tool `lendora_get_all_markets`. -/
def lendoraGetAllMarkets (deps : Deps) (evm : EvmDeps) (ctx : Context) :
    Handler LendoraAllMarkets := do
  let _ ← authorize ctx "lendora_get_all_markets"
  requireLendora deps evm
  let oracle ← lendoraOracle
  let blockNumber ← evmBlockNumber
  let (cache : LendoraCache) ← call .lendoraCache
  let markets ← addMarketRows evm oracle cache.ordered []
  return ⟨blockNumber, markets⟩

/-- `marketUSD` — the supply and the debt of a market in USD. -/
def marketUSD (oracle : Address) (m : Market) : Handler (LegacyDec × LegacyDec) := do
  let cash ← cTokenUint m.cToken "getCash"
  let borrows ← cTokenUint m.cToken "totalBorrows"
  let reserves ← cTokenUint m.cToken "totalReserves"
  -- A negative supply becomes zero.
  let supply := cash + borrows - reserves
  let feed ← underlyingUsdPrice oracle m.cToken
  match feed with
  | none => return (.zero, .zero)
  | some (answer, feedDec) => do
    let supplyUSD ← ofCall (usdFromFeed supply m.underlyingDecimals answer feedDec)
    let borrowUSD ← ofCall (usdFromFeed borrows m.underlyingDecimals answer feedDec)
    return (supplyUSD, borrowUSD)

/-- One turn of the loop of `LendoraGetProtocolDashboard`. -/
def addMarketUSD (oracle : Address) (m : Market) (totals : LegacyDec × LegacyDec) :
    Handler (LegacyDec × LegacyDec) := do
  let (s, b) ← marketUSD oracle m
  let supplyUSD ← ofCall (decimal (totals.1.add s))
  let borrowUSD ← ofCall (decimal (totals.2.add b))
  return (supplyUSD, borrowUSD)

/-- The loop of `LendoraGetProtocolDashboard`. -/
def addMarketsUSD (oracle : Address) :
    List Market → LegacyDec × LegacyDec → Handler (LegacyDec × LegacyDec)
  | [], totals => return totals
  | m :: rest, totals => do
    let totals ← addMarketUSD oracle m totals
    addMarketsUSD oracle rest totals

/-- `LendoraGetProtocolDashboardOutput`. -/
structure LendoraDashboard where
  blockNumber : UInt64
  marketCount : Nat
  totalSupplyUSD : String
  totalBorrowUSD : String
  totalLiquidityUSD : String
deriving DecidableEq, Repr

/-- The tool `lendora_get_protocol_dashboard`. -/
def lendoraGetProtocolDashboard (deps : Deps) (evm : EvmDeps) (ctx : Context) :
    Handler LendoraDashboard := do
  let _ ← authorize ctx "lendora_get_protocol_dashboard"
  requireLendora deps evm
  let oracle ← lendoraOracle
  let (cache : LendoraCache) ← call .lendoraCache
  let (supplyUSD, borrowUSD) ← addMarketsUSD oracle cache.ordered (.zero, .zero)
  let blockNumber ← evmBlockNumber
  let totalSupplyUSD ← ofCall (formatUSD supplyUSD)
  let totalBorrowUSD ← ofCall (formatUSD borrowUSD)
  let liquidityUSD ← ofCall (decimal (supplyUSD.sub borrowUSD))
  let totalLiquidityUSD ← ofCall (formatUSD liquidityUSD)
  return ⟨blockNumber, cache.ordered.length, totalSupplyUSD, totalBorrowUSD, totalLiquidityUSD⟩

end SvpMcp
