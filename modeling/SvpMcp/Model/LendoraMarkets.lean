import SvpMcp.Lib.Calldata
import SvpMcp.Lib.Table

/-!
# Lendora's contracts and the market cache

The reads of the Comptroller, the cTokens, the oracle and the feeds, each with its decoded answer,
and the cache of market metadata.
-/

namespace SvpMcp

/-- The reads of the Lendora contracts. -/
inductive LendoraQuery where
  | oracle
  | getAllMarkets
  /-- `comptroller.markets(cToken)`. -/
  | markets (cToken : Address)
  /-- `comptroller.getAssetsIn(account)`. -/
  | getAssetsIn (account : Address)
  /-- `comptroller.getAccountLiquidity(account)`. -/
  | getAccountLiquidity (account : Address)
  /-- `comptroller.getHypotheticalAccountLiquidity(..)`. -/
  | getHypotheticalAccountLiquidity (account cToken : Address) (redeemTokens borrowAmount : Int)
  | getAccountSnapshot (cToken account : Address)
  | underlying (cToken : Address)
  | symbol (token : Address)
  /-- `token.decimals()`, of a token or a feed. -/
  | decimals (token : Address)
  | getUnderlyingPrice (oracle cToken : Address)
  | cTokenToFeed (oracle cToken : Address)
  | cEtherAddress (oracle : Address)
  | latestRoundData (feed : Address)
deriving DecidableEq

/-- The tuple of `getAccountLiquidity` and of its hypothetical variant. -/
structure LiquidityAnswer where
  error : Nat
  /-- The margin, if it is positive. -/
  liquidity : Nat
  /-- What the margin lacks, if it is negative. -/
  shortfall : Nat
deriving DecidableEq, Repr

/-- The tuple of `getAccountSnapshot`. -/
structure SnapshotAnswer where
  error : Nat
  cTokenBalance : Nat
  /-- The debt, in the underlying. -/
  borrowBalance : Nat
  /-- The exchange rate, a mantissa. -/
  exchangeRate : Nat
deriving DecidableEq, Repr

/-- What each read returns. -/
abbrev LendoraAnswer : LendoraQuery → Type
  | .oracle => Address
  | .getAllMarkets => List Address
  -- Only the collateral factor of the tuple is read.
  | .markets _ => Nat
  | .getAssetsIn _ => List Address
  | .getAccountLiquidity _ => LiquidityAnswer
  | .getHypotheticalAccountLiquidity _ _ _ _ => LiquidityAnswer
  | .getAccountSnapshot _ _ => SnapshotAnswer
  | .underlying _ => Address
  | .symbol _ => String
  | .decimals _ => Nat
  | .getUnderlyingPrice _ _ => Nat
  | .cTokenToFeed _ _ => Address
  | .cEtherAddress _ => Address
  -- Only the answer of the round is read.
  | .latestRoundData _ => Int

/-- How a read fails. -/
inductive ReadFault where
  | call (text : String)
  | decode (text : String)
deriving DecidableEq, Repr

/-- `lendora.Market`, with the fields the tools read. -/
structure Market where
  symbol : String
  cToken : Address
  /-- The token lent; zero for the native market. -/
  underlying : Address
  cTokenDecimals : Int
  underlyingDecimals : Int
  isCEther : Bool
deriving DecidableEq

/-- `lendora.Cache`. -/
structure LendoraCache where
  /-- The markets by symbol and by address, in lower case. -/
  byKey : Table String Market
  /-- The markets, in the Comptroller's order. -/
  ordered : List Market
  oracle : Address
  /-- Whether a refresh has succeeded. -/
  oracleSet : Bool

namespace LendoraCache

/-- `NewCache`. -/
def empty : LendoraCache := ⟨∅, [], .zero, false⟩

/-- The cached market of an asset. -/
def resolve (cache : LendoraCache) (asset : String) : Option Market :=
  cache.byKey.get (Strings.toLower (String.ofList (Strings.trimSpace asset.toList)))

/-- The turn of `Refresh` for a market that could be read. -/
def add (cache : LendoraCache) (m : Market) : LendoraCache :=
  let byKey := (cache.byKey.set (Strings.toLower m.symbol) m).set (Strings.toLower m.cToken.hex) m
  { cache with
    ordered := cache.ordered ++ [m]
    byKey := if m.isCEther then byKey else byKey.set (Strings.toLower m.underlying.hex) m }

end LendoraCache

end SvpMcp
