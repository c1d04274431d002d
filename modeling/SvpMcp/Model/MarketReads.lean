import SvpMcp.Lib.Url
import SvpMcp.Model.AccountReads

/-!
# The reads of one order or market

The tools that ask the indexer for one order or market, and the URL the client builds for them:
the id or ticker is the last part of the path, as it was given.
-/

namespace SvpMcp

open Handler

/-- `indexer.Client`, with the base of its URLs. -/
structure IndexerClient where
  baseURL : List Char

/-- `indexer.NewClient`. -/
def IndexerClient.new (baseURL : String) : IndexerClient :=
  ⟨Strings.trimRight baseURL.toList '/'⟩

/-- The endpoint `get` asks for. -/
def IndexerClient.endpoint (c : IndexerClient) (path : String) (query : List (String × String)) :
    Bytes :=
  Utf8.encode (c.baseURL ++ "/v4".toList ++ path.toList) ++
    if query = [] then [] else Url.question :: Url.encodeQuery query

/-- The URL of the request that `get` issues, if it issues one. -/
def IndexerClient.request (hostOk : Bytes → Bool) (c : IndexerClient) (path : String)
    (query : List (String × String)) : Except Url.ParseFault Url.URL :=
  Url.parse hostOk (c.endpoint path query)

namespace Indexer

/-- `get`, with the error the client reports for an id or a ticker. -/
def lookup (body : IndexerBody) (path : String) (query : List (String × String))
    (format operand : String) : Handler body.Response := do
  let answer ← call (.indexerGet body path query)
  ofResult (answer.mapError fun fault => .wrap format [operand] fault.err)

/-- The parameter of a limit, if there is one. -/
def limitQuery (limit : UInt32) : List (String × String) :=
  if 0 < limit then [("limit", formatNumber limit)] else []

/-- The order of an id. -/
def getOrder (orderID : String) : Handler (Option (List (String × Json))) :=
  lookup .order ("/orders/" ++ orderID) [] "GetOrder %s: %w" orderID

/-- `GetOrderbook`; absent sides are none. -/
def getOrderbook (ticker : String) : Handler Orderbook := do
  let (ob : Orderbook) ←
    lookup .orderbook ("/orderbooks/perpetualMarket/" ++ ticker) [] "GetOrderbook %q: %w" ticker
  return ⟨some (ob.bids.getD []), some (ob.asks.getD [])⟩

/-- `GetTrades`; absent trades are none. -/
def getTrades (ticker : String) (limit : UInt32) : Handler IndexerPage := do
  let (resp : IndexerPage) ← lookup (.page "trades") ("/trades/perpetualMarket/" ++ ticker)
    (limitQuery limit) "GetTrades %q: %w" ticker
  return { resp with entries := some (resp.entries.getD []) }

/-- The filters of the candles. -/
structure GetCandlesArgs where
  resolution : String
  limit : UInt32
  fromISO : String
  toISO : String
deriving DecidableEq, Repr

/-- The parameters of candles that are not empty. -/
def GetCandlesArgs.query (args : GetCandlesArgs) : List (String × String) :=
  (if args.resolution ≠ "" then [("resolution", args.resolution)] else []) ++
    limitQuery args.limit ++
    (if args.fromISO ≠ "" then [("fromISO", args.fromISO)] else []) ++
    (if args.toISO ≠ "" then [("toISO", args.toISO)] else [])

/-- Entries of a market under a key; absent entries are none. -/
def getMarketEntries (key path : String) (query : List (String × String))
    (format ticker : String) : Handler (List Json) := do
  let (entries : Option (List Json)) ← lookup (.entries key) path query format ticker
  return entries.getD []

/-- The candles of a market. -/
def getCandles (ticker : String) (args : GetCandlesArgs) : Handler (List Json) :=
  getMarketEntries "candles" ("/candles/perpetualMarkets/" ++ ticker) args.query
    "GetCandles %q: %w" ticker

/-- The funding rates of a market. -/
def getHistoricalFunding (ticker : String) : Handler (List Json) :=
  getMarketEntries "historicalFunding" ("/historicalFunding/" ++ ticker) []
    "GetHistoricalFunding %q: %w" ticker

end Indexer

/-- A tool that only asks who is calling before it reads. -/
def authorizedRead {α : Type} (ctx : Context) (tool : String) (fetch : Handler α) :
    Handler α := do
  let _ ← authorize ctx tool
  fetch

/-- The tool `get_order`. -/
def getOrder (ctx : Context) (orderID : String) :
    Handler (Option (List (String × Json))) :=
  authorizedRead ctx "get_order" (Indexer.getOrder orderID)

/-- The tool `get_orderbook`. -/
def getOrderbook (ctx : Context) (ticker : String) : Handler Orderbook :=
  authorizedRead ctx "get_orderbook" (Indexer.getOrderbook ticker)

/-- The tool `get_trades`. -/
def getTrades (ctx : Context) (ticker : String) (limit : UInt32) :
    Handler IndexerPage :=
  authorizedRead ctx "get_trades" (Indexer.getTrades ticker limit)

/-- The tool `get_candles`. -/
def getCandles (ctx : Context) (ticker : String) (args : Indexer.GetCandlesArgs) :
    Handler (List Json) :=
  authorizedRead ctx "get_candles" (Indexer.getCandles ticker args)

/-- The tool `get_historical_funding`. -/
def getHistoricalFunding (ctx : Context) (ticker : String) : Handler (List Json) :=
  authorizedRead ctx "get_historical_funding" (Indexer.getHistoricalFunding ticker)

end SvpMcp
