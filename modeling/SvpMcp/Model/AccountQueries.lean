import SvpMcp.Lib.Json

/-!
# What the account reads are answered

The bodies of the indexer's REST API, as the client decodes them, and the answers of the chain's
subaccount and bank queries.
-/

namespace SvpMcp

/-- `indexer.Subaccount`; a position map is absent when the body has `null`. -/
structure IndexerSubaccount where
  address : String
  subaccountNumber : Int32
  equity : String
  freeCollateral : String
  openPerpetualPositions : Option (List (String × Json))
  assetPositions : Option (List (String × Json))
  marginEnabled : Bool
  updatedAtHeight : String
  latestProcessedBlockHeight : String

/-- `FillsResponse`, `TransfersResponse`, `HistoricalPnlResponse` and `TradesResponse`. -/
structure IndexerPage where
  /-- The entries; absent when the body has `null` or none. -/
  entries : Option (List Json)
  pageSize : UInt32
  totalResults : UInt32
  offset : UInt32

/-- One level of an order book. -/
structure OrderbookPriceLevel where
  price : String
  size : String
deriving DecidableEq, Repr

/-- `Orderbook`; a side is absent when the body has `null` or none. -/
structure Orderbook where
  bids : Option (List OrderbookPriceLevel)
  asks : Option (List OrderbookPriceLevel)
deriving DecidableEq, Repr

/-- The type a body is decoded into; entries stand under a key of the body. -/
inductive IndexerBody where
  | subaccount
  | orders
  /-- `Order`, an object of any fields; absent when the body is `null`. -/
  | order
  | orderbook
  /-- `PnlResponse`, `FundingPaymentsResponse`, `CandlesResponse` and
  `HistoricalFundingResponse`. -/
  | entries (key : String)
  /-- A paginated response. -/
  | page (key : String)
deriving DecidableEq, Repr

/-- What a body is decoded into. -/
def IndexerBody.Response : IndexerBody → Type
  | .subaccount => IndexerSubaccount
  | .orders => Option (List Json)
  | .order => Option (List (String × Json))
  | .orderbook => Orderbook
  | .entries _ => Option (List Json)
  | .page _ => IndexerPage

/-- How a request to the indexer fails. -/
inductive IndexerFault where
  /-- `ErrNotFound`, the status 404. -/
  | notFound
  /-- Any other failure, by its text. -/
  | failed (text : String)
deriving DecidableEq, Repr

/-- A balance of a subaccount, in quantums. -/
structure AssetPosition where
  assetId : UInt32
  quantums : Int
  index : UInt64
deriving DecidableEq, Repr

/-- A perpetual position of a subaccount, in quantums. -/
structure PerpetualPosition where
  perpetualId : UInt32
  quantums : Int
  fundingIndex : Int
  quoteBalance : Int
deriving DecidableEq, Repr

/-- `satypes.Subaccount`; a position may be nil. -/
structure ChainSubaccount where
  /-- The owner and the number. -/
  id : Option (String × UInt32)
  assetPositions : List (Option AssetPosition)
  perpetualPositions : List (Option PerpetualPosition)
  marginEnabled : Bool
deriving DecidableEq, Repr

/-- A coin of a bank balance: its denom and its amount. -/
abbrev BankCoin := String × Int

end SvpMcp
