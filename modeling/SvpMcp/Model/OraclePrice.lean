import SvpMcp.Model.EvmTools

/-!
# The oracle's price

`get_oracle_price` of `tools/market.go`: three reads of the configured aggregator, whose
answer is shown in human units by the feed's own decimals.
-/

namespace SvpMcp

open Handler

/-- A round of a price feed. -/
structure OracleRoundData where
  roundID : Nat
  answer : Int
  updatedAt : Nat
deriving DecidableEq, Repr

/-- `UnpackLatestRoundData` — five words, of which three are kept. -/
def unpackLatestRoundData (data : Bytes) : Option OracleRoundData :=
  if data.length < 160 then none
  else
    match Abi.readWords 5 data with
    | [roundID, answer, _, updatedAt, _] => some ⟨roundID, Abi.signedWord answer, updatedAt⟩
    | _ => none

/-- `UnpackDescription`. -/
def unpackDescription (data : Bytes) : Option String :=
  (Abi.unpackString data).map fun bytes =>
    String.ofList (Strings.trimSpace (Strings.decode bytes))

/-- `requireOracle` — the feed of `EVM.Oracle`, if configured. -/
def requireOracle (deps : Deps) (oracle : Option Address) : Handler Address := do
  requireEVM deps
  match oracle with
  | some feed => return feed
  | none => fail (.errorf
      ⟨"oracle price feed is not enabled on this server (no evm_oracle_addr configured)", []⟩)

/-- What `get_oracle_price` returns. -/
structure GetOraclePriceOutput where
  oracle : String
  description : String
  decimals : Int
  price : String
  priceRaw : String
  roundID : String
  updatedAt : Int
deriving DecidableEq, Repr

/-- The read of `description()`. -/
def feedDescription (feed : Address) : Handler String := do
  let (out : Bytes) ← evmRead homeClient (.callContract feed (Abi.pack "description()" []))
    "read description for %s (is it an aggregator?): %w" [feed.hex]
  ofResult (unpacked "description" (unpackDescription out))

/-- The read of `decimals()`. -/
def feedDecimals (feed : Address) : Handler Nat := do
  let (out : Bytes) ← evmRead homeClient (.callContract feed (Abi.pack "decimals()" []))
    "read decimals for %s: %w" [feed.hex]
  ofResult (unpacked "decimals" (Abi.unpackUint8 out))

/-- The read of `latestRoundData()`. -/
def feedRoundData (feed : Address) : Handler OracleRoundData := do
  let (out : Bytes) ← evmRead homeClient (.callContract feed (Abi.pack "latestRoundData()" []))
    "read latestRoundData for %s: %w" [feed.hex]
  ofResult (unpacked "latestRoundData" (unpackLatestRoundData out))

/-- The tool `get_oracle_price`. -/
def getOraclePrice (deps : Deps) (oracle : Option Address) (ctx : Context) :
    Handler GetOraclePriceOutput := do
  let _ ← authorize ctx "get_oracle_price"
  let feed ← requireOracle deps oracle
  let description ← feedDescription feed
  let dec ← feedDecimals feed
  let rd ← feedRoundData feed
  let price ← ofCall (humanOut rd.answer dec)
  return {
    oracle := feed.hex
    description
    decimals := dec
    price
    priceRaw := String.ofList (Decimal.print rd.answer)
    roundID := String.ofList (Decimal.digits rd.roundID)
    -- `Int64` keeps the lowest bits.
    updatedAt := (rd.updatedAt : Int).bmod (2 ^ 64) }

end SvpMcp
