import SvpMcp.Model.EvmTools

/-!
# The Lendora risk engine

The reads of `tools/lendora.go` and the analysis of `tools/lendora_risk.go`: the margin is the
Comptroller's, the debt is summed over the cached markets.
-/

namespace SvpMcp

open Handler

/-- A panic of the decimal arithmetic. -/
def decimal (result : Option LegacyDec) : Except Fault LegacyDec :=
  match result with
  | some d => .ok d
  | none => .error (.panic "Int overflow")

/-- A failed read as an error: a decoder names its method, a call is reported under a prefix, if
there is one. -/
def readError (method : String) (context : Option (String × List String)) : ReadFault → Err
  | .decode text => .wrap ("decode " ++ method ++ ": %w") [] (.external text)
  | .call text =>
    match context with
    | some (format, operands) => .wrap format operands (.external text)
    | none => .external text

/-- A read of a Lendora contract. -/
def lendoraRead (query : LendoraQuery) (method : String)
    (context : Option (String × List String)) : Handler (LendoraAnswer query) := do
  let answer ← call (.lendora query)
  ofResult (answer.mapError (readError method context))

/-- The check of a contract's error code. -/
def checkCode (method : String) (code : Nat) : Except Err Unit :=
  refuseIf (code ≠ 0)
    (.errorf ⟨method ++ " returned error code %s", [String.ofList (Decimal.digits code)]⟩)

/-- `UnpackAccountLiquidity` of a read. -/
def accountLiquidity (method : String) (answer : LiquidityAnswer) : Except Err (Nat × Nat) := do
  checkCode method answer.error
  return (answer.liquidity, answer.shortfall)

/-- `UnpackGetAccountSnapshot` of a read. -/
def accountSnapshot (answer : SnapshotAnswer) : Except Err SnapshotAnswer := do
  checkCode "getAccountSnapshot" answer.error
  return answer

/-- `evmBlockNumber` — zero if the node does not answer. -/
def evmBlockNumber : Handler UInt64 := do
  let (answer : Except String UInt64) ← call (.evm homeClient .blockNumber)
  return answer.toOption.getD 0

/-- The cached oracle, or the Comptroller's. -/
def lendoraOracle : Handler Address := do
  let (cache : LendoraCache) ← call .lendoraCache
  if cache.oracleSet then return cache.oracle
  else lendoraRead .oracle "oracle" (some ("read comptroller.oracle(): %w", []))

/-- The markets an account has entered. -/
def lendoraAssetsInSet (owner : Address) : Handler (List Address) :=
  lendoraRead (.getAssetsIn owner) "getAssetsIn" none

/-- The price an oracle reports. -/
def cTokenUnderlyingPriceNative (oracle cToken : Address) : Handler Nat :=
  lendoraRead (.getUnderlyingPrice oracle cToken) "getUnderlyingPrice" none

/-- The price at the oracle in use. -/
def cTokenUnderlyingPriceNativeVia (cToken : Address) : Handler Nat := do
  let oracle ← lendoraOracle
  cTokenUnderlyingPriceNative oracle cToken

/-- The collateral factor of a market. -/
def cTokenCollateralFactor (cToken : Address) : Handler Nat :=
  lendoraRead (.markets cToken) "markets" none

/-- The reads of `underlyingUsdPrice` on a feed. -/
def feedPrice (feed : Address) : Handler (Option (Int × Int)) := do
  let (feedDec : Nat) ← lendoraRead (.decimals feed) "decimals"
    (some ("read decimals for feed %s: %w", [feed.hex]))
  let (answer : Int) ← lendoraRead (.latestRoundData feed) "latestRoundData"
    (some ("read latestRoundData for feed %s: %w", [feed.hex]))
  return if answer ≤ 0 then none else some (answer, feedDec)

/-- `underlyingUsdPrice` — the price and its decimals, if there is a feed. -/
def underlyingUsdPrice (oracle cToken : Address) : Handler (Option (Int × Int)) := do
  let (feed : Address) ← lendoraRead (.cTokenToFeed oracle cToken) "cTokenToFeed"
    (some ("read cTokenToFeed(%s): %w", [cToken.hex]))
  if feed = .zero then return none else feedPrice feed

/-- The decimals of a token. -/
def readDecimals (token : Address) : Handler Int := do
  let (dec : Nat) ← lendoraRead (.decimals token) "decimals"
    (some ("read decimals() for %s: %w", [token.hex]))
  return dec

/-- The symbol of a token. -/
def readSymbol (token : Address) : Handler String :=
  lendoraRead (.symbol token) "symbol" (some ("read symbol() for %s: %w", [token.hex]))

/-- `strings.TrimPrefix(text, "c")`. -/
def trimC (text : String) : String :=
  match text.toList with
  | 'c' :: rest => String.ofList rest
  | _ => text

/-- The end of `loadMarket` for a market with an ERC-20 underlying. -/
def loadERC20Market (cToken : Address) (cTokenDec : Int) : Handler Market := do
  let (underlying : Address) ← lendoraRead (.underlying cToken) "underlying"
    (some ("read underlying() for %s: %w", [cToken.hex]))
  let underDec ← readDecimals underlying
  let underSym ← readSymbol underlying
  return ⟨Strings.toUpper underSym, cToken, underlying, cTokenDec, underDec, false⟩

/-- Read a market from its contracts. -/
def loadMarket (cToken cEther : Address) : Handler Market := do
  let cTokenDec ← readDecimals cToken
  let cTokenSym ← readSymbol cToken
  if cEther ≠ .zero ∧ cToken = cEther then
    return ⟨Strings.toUpper (trimC cTokenSym), cToken, .zero, cTokenDec, 18, true⟩
  else loadERC20Market cToken cTokenDec

/-- `resolveCEther` — zero if the oracle does not say. -/
def resolveCEther (oracle : Address) : Handler Address :=
  if oracle = .zero then return .zero
  else do
    let (answer : Except ReadFault Address) ← call (.lendora (.cEtherAddress oracle))
    return answer.toOption.getD .zero

/-- Continue with the result of a handler, whether it returned or failed; it must not panic. -/
def attempt {α : Type} (h : Handler α) : Handler (Except Fault α) :=
  ExceptT.mk (h.run.bind fun result => .done (.ok result))

/-- The loop of `Refresh`: a market that cannot be read is dropped. -/
def loadMarkets (cEther : Address) : List Address → LendoraCache → Handler LendoraCache
  | [], cache => return cache
  | cToken :: rest, cache => do
    let loaded ← attempt (loadMarket cToken cEther)
    match loaded with
    | .ok m => loadMarkets cEther rest (cache.add m)
    | .error _ => loadMarkets cEther rest cache

/-- `Refresh` — the table it swaps in. -/
def refresh : Handler LendoraCache := do
  let (oracle : Address) ← lendoraRead .oracle "oracle"
    (some ("read comptroller.oracle(): %w", []))
  let cEther ← resolveCEther oracle
  let (cTokens : List Address) ← lendoraRead .getAllMarkets "getAllMarkets"
    (some ("read comptroller.getAllMarkets(): %w", []))
  loadMarkets cEther cTokens ⟨∅, [], oracle, true⟩

/-- The scale of prices and factors. -/
def e18 : Nat := 10 ^ 18

/-- The value of an amount at a price. -/
def nativeValue (price amount : Nat) : Nat := price * amount / e18

/-- An account's position in a market. -/
structure MarketPosition where
  symbol : String
  cToken : Address
  underlyingDecimals : Int
  isCEther : Bool
  collateralEnabled : Bool
  /-- What the account has supplied, in the underlying. -/
  suppliedUnderlying : Nat
  /-- What the account owes, in the underlying. -/
  borrowedUnderlying : Nat
  priceNative : Nat
  /-- The collateral factor, a mantissa. -/
  collateralFactor : Nat
  suppliedUSD : LegacyDec
  borrowedUSD : LegacyDec
  feedOK : Bool
deriving DecidableEq

/-- The risk bands. -/
inductive RiskLevel where
  | low
  | medium
  | high
  | critical
deriving DecidableEq, Repr

/-- The name of a band. -/
def RiskLevel.text : RiskLevel → String
  | low => "Low"
  | medium => "Medium"
  | high => "High"
  | critical => "Critical"

/-- The mark of a band. -/
def RiskLevel.emoji : RiskLevel → String
  | low => "🟢"
  | medium => "🟡"
  | high => "🟠"
  | critical => "🔴"

/-- What the engine finds of an account. -/
structure RiskResult where
  blockNumber : UInt64
  positions : List MarketPosition
  hasDebt : Bool
  /-- The health factor, if there is debt. -/
  healthFactor : LegacyDec
  /-- The collateral that follows from the margin and the debt. -/
  sumCollateralNat : Int
  /-- The debt summed over the cached markets. -/
  sumBorrowNat : Nat
  liquidityNat : Nat
  shortfallNat : Nat
  totalSuppliedUSD : LegacyDec
  totalBorrowedUSD : LegacyDec
  /-- The liquidity in USD, if there is a native feed. -/
  maxBorrowableUSD : Option LegacyDec
  riskLevel : RiskLevel
deriving DecidableEq

/-- The position in a market. -/
def RiskResult.marketPosition (r : RiskResult) (cToken : Address) : Option MarketPosition :=
  r.positions.find? fun p => p.cToken = cToken

/-- The value of an amount in USD. -/
def usdFromFeed (amount tokenDecimals feedAnswer feedDecimals : Int) : Except Fault LegacyDec := do
  let amt ← (LegacyDec.ofIntWithPrec amount tokenDecimals).mapError .panic
  let price ← (LegacyDec.ofIntWithPrec feedAnswer feedDecimals).mapError .panic
  decimal (amt.mul price)

/-- What the loop of `computeRisk` collects. -/
structure RiskTotals where
  sumBorrow : Nat
  positions : List MarketPosition
  suppliedUSD : LegacyDec
  borrowedUSD : LegacyDec

/-- A position valued at a feed's price, added to the totals. -/
def addValued (totals : RiskTotals) (pos : MarketPosition) (feed : Option (Int × Int)) :
    Except Fault RiskTotals :=
  match feed with
  | none => .ok { totals with positions := totals.positions ++ [pos] }
  | some (answer, feedDec) => do
    let suppliedUSD ← usdFromFeed pos.suppliedUnderlying pos.underlyingDecimals answer feedDec
    let borrowedUSD ← usdFromFeed pos.borrowedUnderlying pos.underlyingDecimals answer feedDec
    let totalSupplied ← decimal (totals.suppliedUSD.add suppliedUSD)
    let totalBorrowed ← decimal (totals.borrowedUSD.add borrowedUSD)
    return {
      sumBorrow := totals.sumBorrow
      positions := totals.positions ++ [{ pos with suppliedUSD, borrowedUSD, feedOK := true }]
      suppliedUSD := totalSupplied
      borrowedUSD := totalBorrowed }

/-- The turn of the loop for a market the account has a position in. -/
def addPosition (oracle : Address) (entered : List Address) (m : Market) (snap : SnapshotAnswer)
    (totals : RiskTotals) : Handler RiskTotals := do
  let price ← cTokenUnderlyingPriceNative oracle m.cToken
  let sumBorrow :=
    if 0 < snap.borrowBalance then totals.sumBorrow + nativeValue price snap.borrowBalance
    else totals.sumBorrow
  let cf ← cTokenCollateralFactor m.cToken
  let feed ← underlyingUsdPrice oracle m.cToken
  ofCall (addValued { totals with sumBorrow }
    { symbol := m.symbol
      cToken := m.cToken
      underlyingDecimals := m.underlyingDecimals
      isCEther := m.isCEther
      collateralEnabled := m.cToken ∈ entered
      suppliedUnderlying := snap.cTokenBalance * snap.exchangeRate / e18
      borrowedUnderlying := snap.borrowBalance
      priceNative := price
      collateralFactor := cf
      suppliedUSD := .zero
      borrowedUSD := .zero
      feedOK := false } feed)

/-- One turn of the loop of `computeRisk`. -/
def addMarket (oracle owner : Address) (entered : List Address) (m : Market)
    (totals : RiskTotals) : Handler RiskTotals := do
  let answer ← lendoraRead (.getAccountSnapshot m.cToken owner) "getAccountSnapshot" none
  let snap ← ofResult (accountSnapshot answer)
  if snap.cTokenBalance = 0 ∧ snap.borrowBalance = 0 then return totals
  else addPosition oracle entered m snap totals

/-- The loop of `computeRisk`. -/
def addMarkets (oracle owner : Address) (entered : List Address) :
    List Market → RiskTotals → Handler RiskTotals
  | [], totals => return totals
  | m :: rest, totals => do
    let totals ← addMarket oracle owner entered m totals
    addMarkets oracle owner entered rest totals

/-- Where the high risk ends. -/
def hfHighUpper : LegacyDec := ⟨1200000000000000000⟩

/-- Where the medium risk ends. -/
def hfMediumUpper : LegacyDec := ⟨1500000000000000000⟩

/-- The risk level of a health factor. -/
def riskBand (hasDebt : Bool) (shortfall : Nat) (hf : LegacyDec) : RiskLevel :=
  if hasDebt = false then .low
  else if 0 < shortfall then .critical
  else if hf.lt hfHighUpper then .high
  else if hf.lt hfMediumUpper then .medium
  else .low

/-- The liquidity in USD, if the feed answers. -/
def nativeLiquidityUSD (oracle : Address) (liquidityNat : Nat) : Handler (Option LegacyDec) := do
  let (cache : LendoraCache) ← call .lendoraCache
  let cEther := ((cache.ordered.find? (·.isCEther)).map (·.cToken)).getD .zero
  if cEther = .zero then return none
  else
    let feed ← underlyingUsdPrice oracle cEther
    match feed with
    | none => return none
    | some (answer, feedDec) =>
      let usd ← ofCall (usdFromFeed liquidityNat 18 answer feedDec)
      return some usd

/-- The health factor of two sums; without debt it is zero and not used. -/
def healthFactorOf (sumCollateral : Int) (sumBorrow : Nat) : Except Fault LegacyDec :=
  if sumBorrow = 0 then .ok .zero
  else decimal ((LegacyDec.ofBigInt sumCollateral).quo (.ofBigInt sumBorrow))

/-- Analyse an account. -/
def computeRisk (owner : Address) : Handler RiskResult := do
  let blockNumber ← evmBlockNumber
  let oracle ← lendoraOracle
  let answer ← lendoraRead (.getAccountLiquidity owner) "getAccountLiquidity" none
  let (liquidity, shortfall) ← ofResult (accountLiquidity "getAccountLiquidity" answer)
  let entered ← lendoraAssetsInSet owner
  let (cache : LendoraCache) ← call .lendoraCache
  let totals ← addMarkets oracle owner entered cache.ordered ⟨0, [], .zero, .zero⟩
  let sumCollateral : Int := (liquidity - shortfall : Int) + totals.sumBorrow
  let healthFactor ← ofCall (healthFactorOf sumCollateral totals.sumBorrow)
  let maxBorrowableUSD ← nativeLiquidityUSD oracle liquidity
  return {
    blockNumber
    positions := totals.positions
    hasDebt := 0 < totals.sumBorrow
    healthFactor
    sumCollateralNat := sumCollateral
    sumBorrowNat := totals.sumBorrow
    liquidityNat := liquidity
    shortfallNat := shortfall
    totalSuppliedUSD := totals.suppliedUSD
    totalBorrowedUSD := totals.borrowedUSD
    maxBorrowableUSD
    riskLevel := riskBand (0 < totals.sumBorrow) shortfall healthFactor }

end SvpMcp
