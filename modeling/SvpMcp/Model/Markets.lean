import SvpMcp.Model.Transaction

/-!
# The market cache

`markets/cache.go` and the two queries it joins: a table from tickers to markets, replaced as a
whole by every refresh that succeeds.
-/

namespace SvpMcp

/-- `clobtypes.ClobPair`, with the fields the cache reads. -/
structure ClobPair where
  id : UInt32
  /-- The perpetual of `GetPerpetualClobMetadata`; a spot pair has none. -/
  perpetualID : Option UInt32
  stepBaseQuantums : UInt64
  subticksPerTick : UInt32
  /-- The exponent between quote and base quantums. -/
  quantumConversionExponent : Int32
deriving DecidableEq, Repr

/-- `perptypes.Perpetual`, with the fields the cache reads. -/
structure Perpetual where
  id : UInt32
  ticker : String
  /-- The exponent of its base unit. -/
  atomicResolution : Int32
deriving DecidableEq, Repr

/-- The response of a paginated query. -/
structure PageResponse (α : Type) where
  entries : List α
  /-- Where the next page starts; empty at the end. -/
  nextKey : Bytes

/-- What the gRPC services return to a request without a page request. -/
structure MarketServices where
  /-- `clob.Query/ClobPairAll`. -/
  clobPairAll : Except String (PageResponse ClobPair)
  /-- `perpetuals.Query/AllPerpetuals`. -/
  allPerpetuals : Except String (PageResponse Perpetual)

/-- All pairs of the order book. -/
def clobPairAll (services : MarketServices) : Except Err (List ClobPair) := do
  let resp ← wrapExternal "clob.Query/ClobPairAll: %w" services.clobPairAll
  return resp.entries

/-- All perpetuals. -/
def allPerpetuals (services : MarketServices) : Except Err (List Perpetual) := do
  let resp ← wrapExternal "perpetuals.Query/AllPerpetuals: %w" services.allPerpetuals
  return resp.entries

/-- What the tools know of a market. -/
structure MarketMeta where
  ticker : String
  clobPairID : UInt32
  atomicResolution : Int32
  quantumConversionExponent : Int32
  stepBaseQuantums : UInt64
  subticksPerTick : UInt32
deriving DecidableEq, Repr

/-- What a perpetual adds to a market. -/
structure PerpMeta where
  ticker : String
  atomicResolution : Int32
deriving DecidableEq, Repr

/-- What the loop of `Refresh` has gathered. -/
structure Joined where
  next : Table String MarketMeta
  /-- The pairs without a market, in the order they were met. -/
  dropped : List UInt32

/-- The entry of a pair and its perpetual. -/
def marketMeta (cp : ClobPair) (perp : PerpMeta) : MarketMeta where
  ticker := perp.ticker
  clobPairID := cp.id
  atomicResolution := perp.atomicResolution
  quantumConversionExponent := cp.quantumConversionExponent
  stepBaseQuantums := cp.stepBaseQuantums
  subticksPerTick := cp.subticksPerTick

/-- The perpetuals by id. -/
def perpByID (perps : List Perpetual) : Table UInt32 PerpMeta :=
  .index (·.id) (fun p => ⟨p.ticker, p.atomicResolution⟩) perps

/-- The perpetual of a pair, among the known ones. -/
def perpOf (perps : Table UInt32 PerpMeta) (cp : ClobPair) : Option PerpMeta :=
  match cp.perpetualID with
  | none => none
  | some id => perps.get id

/-- The turn of `Refresh`'s loop for a pair. -/
def joinPair (perps : Table UInt32 PerpMeta) (joined : Joined) (cp : ClobPair) : Joined :=
  match perpOf perps cp with
  | none => { joined with dropped := joined.dropped ++ [cp.id] }
  | some perp => { joined with next := joined.next.set perp.ticker (marketMeta cp perp) }

/-- `markets.Cache`. -/
structure MarketCache where
  byTicker : Table String MarketMeta

namespace MarketCache

/-- `NewCache`. -/
def new : MarketCache := ⟨∅⟩

/-- The cached market of a ticker. -/
def resolveTicker (cache : MarketCache) (ticker : String) : Option MarketMeta :=
  cache.byTicker.get ticker

/-- The join of `Refresh`. -/
def join (clobPairs : List ClobPair) (perps : List Perpetual) : Joined :=
  clobPairs.foldl (joinPair (perpByID perps)) ⟨∅, []⟩

/-- What `Refresh` reads, as it reports an error. -/
def fetch (services : MarketServices) : Except Err (List ClobPair × List Perpetual) := do
  let clobPairs ← (clobPairAll services).mapError (.wrap "clob.Query/ClobPairAll: %w" [])
  let perps ← (allPerpetuals services).mapError (.wrap "perpetuals.Query/AllPerpetuals: %w" [])
  return (clobPairs, perps)

/-- `Refresh` — the ids of the dropped pairs, which are logged in order, and the new cache. -/
def refresh (cache : MarketCache) (services : MarketServices) :
    Except Err (List UInt32) × MarketCache :=
  match fetch services with
  | .error e => (.error e, cache)
  | .ok (clobPairs, perps) =>
    let joined := join clobPairs perps
    (.ok (joined.dropped.mergeSort (· ≤ ·)), ⟨joined.next⟩)

/-- `Run`, up to a number of ticks: the first refresh must succeed, later errors are logged. -/
def run (cache : MarketCache) (initial : MarketServices) (ticks : List MarketServices) :
    Except Err MarketCache :=
  match cache.refresh initial with
  | (.error e, _) => .error (.wrap "initial market cache refresh: %w" [] e)
  | (.ok _, first) => .ok (ticks.foldl (fun cache services => (cache.refresh services).2) first)

end MarketCache

end SvpMcp
