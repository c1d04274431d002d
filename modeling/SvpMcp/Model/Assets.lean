import SvpMcp.Lib.Abi

/-!
# The transfer-out asset registry

The tokens with a daily transfer-out cap, and the denom, native value or contract each can leave a
wallet through.
-/

namespace SvpMcp

/-- The denom of the native coin. -/
def nativeBankDenom : String := "asvp"

/-- The denom of USDC. -/
def uusdcDenom : String := "erc20/usdc"

/-- `assettypes.AssetUsdc.Id`. -/
def assetUsdcId : UInt32 := 0

/-- `knownSwapTokens` — the ERC-20 contracts that have a symbol alias. -/
def knownSwapTokens : List (String × Address) :=
  [("usdv", .ofHex "0x013a61E622e6ABFCaB64F52D274C3Fc0aA37f951"),
   ("usdc", .ofHex "0x732F6Ea7AfD5EdC02e7ba052075dd0780e285489")]

/-- `knownSwapTokens[symbol].address`, which is the zero address for an unknown symbol. -/
def knownSwapToken (symbol : String) : Address :=
  (knownSwapTokens.lookup symbol).getD .zero

/-- `assetSymbol` — one token and the ways it can leave the wallet. -/
structure AssetSymbol where
  symbol : String
  /-- The x/bank denom; empty when there is none. -/
  bankDenom : String
  /-- The ERC-20 contract; zero when there is none. -/
  erc20 : Address
  native : Bool
  /-- Decimals of the human unit. -/
  decimals : Int64
deriving DecidableEq

/-- The assets that can be capped. -/
def transferOutAssets : List AssetSymbol :=
  [{ symbol := "svp", bankDenom := nativeBankDenom, erc20 := .zero, native := true,
     decimals := 18 },
   { symbol := "usdc", bankDenom := uusdcDenom, erc20 := knownSwapToken "usdc", native := false,
     decimals := 6 },
   { symbol := "usdv", bankDenom := "", erc20 := knownSwapToken "usdv", native := false,
     decimals := 6 }]

/-- The asset of a symbol, in any case. -/
def assetForSymbol (symbol : String) : Option AssetSymbol :=
  let key := Strings.toLower (String.ofList (Strings.trimSpace symbol.toList))
  transferOutAssets.find? fun a => a.symbol = key

/-- The symbol of a bank denom. -/
def symbolForDenom (denom : String) : Option String :=
  (transferOutAssets.find? fun a => a.bankDenom ≠ "" ∧ a.bankDenom = denom).map (·.symbol)

/-- The symbol of a token contract. -/
def symbolForToken (address : Address) : Option String :=
  (transferOutAssets.find? fun a => a.erc20 ≠ .zero ∧ a.erc20 = address).map (·.symbol)

/-- The symbol of the native coin. -/
def symbolForNative : Option String :=
  (transferOutAssets.find? (·.native)).map (·.symbol)

/-- The native token is capped as `svp`. -/
@[simp] theorem symbolForNative_eq : symbolForNative = some "svp" := by
  decide

end SvpMcp
