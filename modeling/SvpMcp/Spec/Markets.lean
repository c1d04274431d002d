import SvpMcp.Lib.Keyed
import SvpMcp.Model.Markets

/-!
# The markets of the chain

The pairs and perpetuals the chain has, and which ticker trades as which market. A
paginated query without a page request returns the first page only.
-/

namespace SvpMcp

/-- The pairs and perpetuals of a chain, in the order of its store. -/
structure MarketChain where
  clobPairs : List ClobPair
  perpetuals : List Perpetual
  /-- The ids of the pairs are distinct. -/
  pairs_keyed : Keyed ClobPair.id clobPairs
  /-- The ids of the perpetuals are distinct. -/
  perpetuals_keyed : Keyed Perpetual.id perpetuals
  /-- A ticker names one perpetual. -/
  tickers_keyed : Keyed Perpetual.ticker perpetuals
  /-- A perpetual has at most one pair. -/
  pair_unique : ∀ cp ∈ clobPairs, ∀ cp' ∈ clobPairs, ∀ id, cp.perpetualID = some id →
    cp'.perpetualID = some id → cp = cp'

/-- The default of `query.Paginate`. -/
def pageLimit : Nat := 100

/-- A response with the first page of some entries. -/
def FirstPage {α : Type} (all : List α) (resp : PageResponse α) : Prop :=
  resp.entries = all.take pageLimit ∧ (resp.nextKey ≠ [] ↔ pageLimit < all.length)

namespace MarketChain

/-- A pair of the chain refers to a perpetual of the chain. -/
def Pairs (chain : MarketChain) (cp : ClobPair) (p : Perpetual) : Prop :=
  cp ∈ chain.clobPairs ∧ p ∈ chain.perpetuals ∧ cp.perpetualID = some p.id

/-- A ticker trades as a market. -/
def Trades (chain : MarketChain) (ticker : String) (market : MarketMeta) : Prop :=
  ∃ cp p, chain.Pairs cp p ∧ p.ticker = ticker ∧
    market = marketMeta cp ⟨p.ticker, p.atomicResolution⟩

/-- The services answer from a chain, if they answer. -/
structure Answers (chain : MarketChain) (services : MarketServices) : Prop where
  clobPairAll : ∀ resp, services.clobPairAll = .ok resp → FirstPage chain.clobPairs resp
  allPerpetuals : ∀ resp, services.allPerpetuals = .ok resp → FirstPage chain.perpetuals resp

/-- Every pair with a perpetual is on the first page, and so is its perpetual. -/
def OnFirstPages (chain : MarketChain) : Prop :=
  ∀ cp p, chain.Pairs cp p →
    cp ∈ chain.clobPairs.take pageLimit ∧ p ∈ chain.perpetuals.take pageLimit

end MarketChain

end SvpMcp
