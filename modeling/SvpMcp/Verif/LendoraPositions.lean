import SvpMcp.Verif.LendoraRisk

/-!
# What a Lendora operation starts from

The engine keeps a position for each cached market the owner holds or owes something in. `Opened`
collects what every operation starts from.
-/

namespace SvpMcp

open Handler Program

variable {α : Type} {deps : Deps} {w w' : World} {events : Events}
  {c : LendoraChain} {owner : Address} {sees : Event World Env ServerOp Reply → Prop}

/-- Whether an account holds or owes anything in a market. -/
def LendoraChain.holds (c : LendoraChain) (owner m : Address) : Bool :=
  0 < c.cTokens owner m || 0 < c.borrow owner m

/-- What an account has supplied to a market, in the underlying. -/
def LendoraChain.supplied (c : LendoraChain) (owner m : Address) : Nat :=
  c.cTokens owner m * c.exchangeRate m / e18

/-- A position that says of an account what the contracts say. -/
structure MarketPosition.OnChain (pos : MarketPosition) (c : LendoraChain) (owner : Address) :
    Prop where
  enabled : pos.collateralEnabled = decide (pos.cToken ∈ c.entered owner)
  supplied : pos.suppliedUnderlying = c.supplied owner pos.cToken
  borrowed : pos.borrowedUnderlying = c.borrow owner pos.cToken
  factor : pos.collateralFactor = c.collateralFactor pos.cToken

/-- Positions that are those of an account in a list of markets. -/
structure Tracks (c : LendoraChain) (owner : Address) (markets : List Address)
    (positions : List MarketPosition) : Prop where
  cTokens : positions.map (·.cToken) = markets.filter (c.holds owner)
  onChain : ∀ pos ∈ positions, pos.OnChain c owner

/-- Positions add up. -/
theorem tracks_append {first second : List Address} {before after : List MarketPosition}
    (tracksFirst : Tracks c owner first before) (tracksSecond : Tracks c owner second after) :
    Tracks c owner (first ++ second) (before ++ after) := by
  refine ⟨?_, ?_⟩
  · rw [List.map_append, List.filter_append, tracksFirst.cTokens, tracksSecond.cTokens]
  · intro pos member
    rcases List.mem_append.mp member with old | new
    · exact tracksFirst.onChain pos old
    · exact tracksSecond.onChain pos new

section Loop

variable {oracle : Address} {entered : List Address} {m : Market} {totals totals' : RiskTotals}

/-- A position that is added is the one on the chain. -/
theorem addPosition_positions
    (run : Gives deps (Sees c) w (addPosition oracle (c.entered owner) m
      ⟨0, c.cTokens owner m.cToken, c.borrow owner m.cToken, c.exchangeRate m.cToken⟩ totals)
      w' totals') :
    ∃ pos : MarketPosition, totals'.positions = totals.positions ++ [pos] ∧
      pos.cToken = m.cToken ∧ pos.OnChain c owner := by
  simp [addPosition, cTokenUnderlyingPriceNative, cTokenCollateralFactor] at run
  obtain ⟨_, _, added⟩ := run
  obtain ⟨_, suppliedUSD, borrowedUSD, feedOK, isAdded⟩ := addValued_ok added
  exact ⟨_, isAdded, rfl, ⟨rfl, rfl, rfl, rfl⟩⟩

/-- A turn keeps the positions of the markets it has passed. -/
theorem addMarket_positions {seen : List Address}
    (run : Gives deps (Sees c) w (addMarket oracle owner (c.entered owner) m totals) w' totals')
    (tracks : Tracks c owner seen totals.positions) :
    Tracks c owner (seen ++ [m.cToken]) totals'.positions := by
  rcases addMarket_turn run with ⟨unsupplied, unborrowed, rfl⟩ | ⟨held, added⟩
  · have notHeld : c.holds owner m.cToken = false := by
      simp [LendoraChain.holds, unsupplied, unborrowed]
    have nothing : Tracks c owner [m.cToken] [] :=
      ⟨by rw [List.filter_singleton, notHeld]; rfl, fun _ impossible => nomatch impossible⟩
    have extended := tracks_append tracks nothing
    rwa [List.append_nil] at extended
  · obtain ⟨pos, isAdded, isMarket, onChain⟩ := addPosition_positions added
    have held : c.holds owner m.cToken = true := by
      simp only [LendoraChain.holds, Bool.or_eq_true, decide_eq_true_eq]
      omega
    have one : Tracks c owner [m.cToken] [pos] := by
      refine ⟨?_, ?_⟩
      · rw [List.filter_singleton, held, List.map_singleton, isMarket]
        rfl
      · intro pos' member
        rw [List.mem_singleton.mp member]
        exact onChain
    rw [isAdded]
    exact tracks_append tracks one

/-- The loop keeps the positions of every cached market. -/
theorem addMarkets_positions {markets : List Market} {seen : List Address}
    (run : Gives deps (Sees c) w (addMarkets oracle owner (c.entered owner) markets totals) w'
      totals')
    (tracks : Tracks c owner seen totals.positions) :
    Tracks c owner (seen ++ markets.map (·.cToken)) totals'.positions := by
  -- The induction follows the loop; the markets seen so far grow with the totals.
  induction markets generalizing w totals seen with
  | nil =>
    simp [addMarkets] at run
    rw [← run.2]
    rw [List.map_nil, List.append_nil]
    exact tracks
  | cons m rest ih =>
    simp [addMarkets] at run
    obtain ⟨_, next, first, run⟩ := run
    have tail := ih run (addMarket_positions first tracks)
    rwa [List.append_assoc, List.singleton_append] at tail

end Loop

/-- The engine keeps the positions of the owner in the cached markets. -/
theorem computeRisk_positions {r : RiskResult}
    (run : Gives deps (Sees c) w (computeRisk owner) w' r) :
    Tracks c owner w.lendora.cTokens r.positions := by
  simp [computeRisk, lendoraAssetsInSet, evmBlockNumber] at run
  obtain ⟨mid, _, block, _, _, _, _, totals, looped, _, _, _, _, rfl⟩ := run
  have sameCache : mid.lendora = w.lendora := gives_lendora block
  rw [sameCache] at looped
  have none : Tracks c owner [] [] := ⟨rfl, List.forall_mem_nil _⟩
  exact addMarkets_positions looped none

section Lookup

variable {r : RiskResult} {markets : List Address} {m : Address}

/-- A position found is on chain. -/
theorem marketPosition_some {pos : MarketPosition} (tracks : Tracks c owner markets r.positions)
    (found : r.marketPosition m = some pos) :
    pos.cToken = m ∧ pos.OnChain c owner ∧ m ∈ markets ∧ c.holds owner m = true := by
  have member := List.mem_of_find?_eq_some found
  have isMarket : pos.cToken = m := by simpa using List.find?_some found
  have kept : m ∈ markets.filter (c.holds owner) := by
    rw [← tracks.cTokens, ← isMarket]
    exact List.mem_map_of_mem member
  have both := List.mem_filter.mp kept
  exact ⟨isMarket, tracks.onChain pos member, both.1, both.2⟩

/-- What is not found is not held. -/
theorem marketPosition_none (tracks : Tracks c owner markets r.positions)
    (absent : r.marketPosition m = none) (cached : m ∈ markets) : c.holds owner m = false := by
  by_contra held
  have kept : m ∈ markets.filter (c.holds owner) :=
    List.mem_filter.mpr ⟨cached, by simpa using held⟩
  rw [← tracks.cTokens] at kept
  obtain ⟨pos, member, isMarket⟩ := List.mem_map.mp kept
  have notFound := List.find?_eq_none.mp absent pos member
  rw [decide_eq_true_eq] at notFound
  exact notFound isMarket

end Lookup

/-- A market that an asset names: the cached one, or one that is loaded on demand because the cache
does not know the asset. -/
def LendoraCache.Names (cache : LendoraCache) (asset : String) (m : Market) : Prop :=
  cache.resolve asset = some m ∨
    cache.resolve asset = none ∧ Address.isHex (Strings.trimSpace asset.toList) = true ∧
      m.cToken = .ofHex (String.ofList (Strings.trimSpace asset.toList))

/-- An asset the cache knows names the market the cache has for it. -/
theorem LendoraCache.Names.known {cache : LendoraCache} {asset : String} {m cached : Market}
    (named : cache.Names asset m) (resolves : cache.resolve asset = some cached) : m = cached := by
  rcases named with resolves' | ⟨unknown, _⟩
  · exact Option.some.inj (resolves'.symm.trans resolves)
  · cases resolves.symm.trans unknown

/-- An asset the cache does not know names the address it spells. -/
theorem LendoraCache.Names.spelled {cache : LendoraCache} {asset : String} {m : Market}
    (named : cache.Names asset m) (unknown : cache.resolve asset = none) :
    m.cToken = .ofHex (String.ofList (Strings.trimSpace asset.toList)) := by
  rcases named with resolves | ⟨_, _, isSpelled⟩
  · cases unknown.symm.trans resolves
  · exact isSpelled

/-- A market that is loaded on demand is the one that was asked for. -/
theorem loadUncached_ok {cToken : Address} {m : Market}
    (run : Gives deps sees w (loadUncached cToken) w' (some m)) : m.cToken = cToken := by
  simp [loadUncached] at run
  obtain ⟨_, _, _, _, loaded, tried, isLoaded⟩ := run
  cases loaded with
  | error fault => cases isLoaded
  | ok found =>
    cases isLoaded
    exact loadMarket_cToken (gives_attempt.mp tried)

/-- The market an asset resolves to is one it names. -/
theorem resolveAsset_names {asset : String} {m : Market}
    (run : Gives deps sees w (resolveAsset asset) w' m) : w.lendora.Names asset m := by
  simp [resolveAsset] at run
  obtain ⟨_, run⟩ := run
  cases found : w.lendora.resolve asset with
  | some known =>
    simp [found] at run
    rw [← run.2]
    exact .inl found
  | none =>
    simp only [found, resolveUncached] at run
    split at run
    · next isHex =>
      obtain ⟨_, loaded, tried, run⟩ := completes_bind.mp run
      cases loaded with
      | none => simp at run
      | some known =>
        rw [← (completes_pure.mp run).2]
        exact .inr ⟨found, isHex, loadUncached_ok tried⟩
    · simp at run

/-- The debt the engine sums over the cached markets. -/
def LendoraCache.debtOn (cache : LendoraCache) (c : LendoraChain) (owner : Address) : Int :=
  sumOver (fun m => (c.debtBy (cache.oracleOn c) owner m : Int)) cache.cTokens

/-- The margin of an account: its collateral less its debt, as the Comptroller sums them. -/
def LendoraChain.margin (c : LendoraChain) (owner : Address) : Int :=
  c.sumCollateral owner - c.sumBorrow owner

/-- The EVM account of the owner a request acts for. -/
def OwnedBy (deps : Deps) (w : World) (ctx : Context) (owner : Address) : Prop :=
  ∃ tp, ActsFor deps w ctx tp ∧ AccountOf deps.codec tp.owner owner

/-- What an operation starts from. -/
structure Opened (deps : Deps) (w : World) (c : LendoraChain) (ctx : Context)
    (tool asset : String) (op : OpContext) : Prop where
  owned : OwnedBy deps w ctx op.owner
  named : w.lendora.Names asset op.market
  supported : checkNative tool op.market = .ok ()
  sumBorrow : (op.risk.sumBorrowNat : Int) = w.lendora.debtOn c op.owner
  sumCollateral : op.risk.sumCollateralNat = c.margin op.owner + w.lendora.debtOn c op.owner
  hasDebt : op.risk.hasDebt = decide (0 < w.lendora.debtOn c op.owner)
  tracks : Tracks c op.owner w.lendora.cTokens op.risk.positions

/-- Whatever the contracts answer, an operation is on the market its asset names. -/
theorem opCommon_named {evm : EvmDeps} {ctx : Context} {tool asset : String}
    {op : OpContext} (run : Gives deps sees w (opCommon deps evm ctx tool asset) w' op) :
    w.lendora.Names asset op.market := by
  simp [opCommon] at run
  obtain ⟨_, _, authorized, _, ⟨_, enabled⟩, _, _, resolved, _, _, _, _, _, rfl⟩ := run
  have named := resolveAsset_names resolved
  rwa [gives_lendora enabled, gives_lendora authorized] at named

/-- What an operation starts from, on a node that answers from one state. -/
theorem opCommon_ok {evm : EvmDeps} {ctx : Context} {tool asset : String}
    {op : OpContext} (run : Gives deps (Sees c) w (opCommon deps evm ctx tool asset) w' op) :
    Opened deps w c ctx tool asset op := by
  have named := opCommon_named run
  simp [opCommon] at run
  obtain ⟨_, tp, authorized, _, ⟨_, enabled⟩, mid, _, resolved, ⟨_, allowed⟩, owner, isOwner, risk,
    analysed, rfl⟩ := run
  have sameCache : mid.lendora = w.lendora := by
    rw [gives_lendora resolved, gives_lendora enabled, gives_lendora authorized]
  have positions := computeRisk_positions analysed
  obtain ⟨borrow, collateral, hasDebt, _⟩ := computeRisk_ok analysed
  rw [sameCache] at positions borrow
  have summed : (risk.sumBorrowNat : Int) = w.lendora.debtOn c owner := borrow
  refine ⟨⟨tp, authorize_ok authorized, ownerEthAddress_eq_ok.mp isOwner⟩, named, allowed, summed,
    ?_, ?_, positions⟩
  · rw [collateral, summed]
    rfl
  · rw [hasDebt, ← summed]
    simp

section Position

variable {ctx : Context} {tool asset : String} {op : OpContext}

/-- In a cached market the debt of the position is the contract's. -/
theorem Opened.debt_eq (opened : Opened deps w c ctx tool asset op)
    (cached : op.market.cToken ∈ w.lendora.cTokens) :
    op.debt = c.borrow op.owner op.market.cToken := by
  unfold OpContext.debt
  cases found : op.risk.marketPosition op.market.cToken with
  | some pos =>
    obtain ⟨isMarket, onChain, _⟩ := marketPosition_some opened.tracks found
    simp only [onChain.borrowed, isMarket]
  | none =>
    have notHeld := marketPosition_none opened.tracks found cached
    simp only [LendoraChain.holds, Bool.or_eq_false_iff, decide_eq_false_iff_not] at notHeld
    simp only
    omega

/-- An entered position is one in a cached market that is entered and not empty. -/
theorem Opened.enteredPosition_iff (opened : Opened deps w c ctx tool asset op) :
    op.enteredPosition = true ↔ op.market.cToken ∈ w.lendora.cTokens ∧
      c.holds op.owner op.market.cToken = true ∧
        op.market.cToken ∈ c.entered op.owner := by
  unfold OpContext.enteredPosition
  cases found : op.risk.marketPosition op.market.cToken with
  | some pos =>
    obtain ⟨isMarket, onChain, isCached, held⟩ := marketPosition_some opened.tracks found
    simp only [onChain.enabled, isMarket, decide_eq_true_eq]
    exact ⟨fun isEntered => ⟨isCached, held, isEntered⟩, fun all => all.2.2⟩
  | none =>
    simp only [Bool.false_eq_true, false_iff]
    intro all
    have notHeld := marketPosition_none opened.tracks found all.1
    rw [all.2.1] at notHeld
    cases notHeld

end Position

/-- The liquidity an operation would leave is the Comptroller's. -/
@[simp]
theorem gives_hypotheticalLiquidity {m : Address} {redeemTokens borrowAmount : Int}
    {liq short : Nat} :
    Gives deps (Sees c) w (hypotheticalLiquidity owner m redeemTokens borrowAmount) w'
      (liq, short) ↔ w = w' ∧
      liq = (c.hypotheticalLiquidity owner m redeemTokens borrowAmount).liquidity ∧
      short = (c.hypotheticalLiquidity owner m redeemTokens borrowAmount).shortfall := by
  -- The Comptroller of the model answers without an error code.
  have noError : checkCode "getHypotheticalAccountLiquidity"
      (c.hypotheticalLiquidity owner m redeemTokens borrowAmount).error = .ok () := rfl
  simp [hypotheticalLiquidity, accountLiquidity, noError]
  exact fun _ => and_congr eq_comm eq_comm

/-- Without shortfall there is a margin. -/
theorem marginAnswer_short {margin : Int}
    (none : (LendoraChain.marginAnswer margin).shortfall = 0) :
    0 ≤ margin ∧ ((LendoraChain.marginAnswer margin).liquidity : Int) = margin := by
  simp only [LendoraChain.marginAnswer] at none ⊢
  omega

/-- A sum is rounded down to the rounded parts or to one more. -/
theorem nativeValue_add (price owed amount : Nat) :
    price * (owed + amount) / e18 = price * owed / e18 + nativeValue price amount ∨
      price * (owed + amount) / e18 = price * owed / e18 + nativeValue price amount + 1 := by
  rw [Nat.mul_add, nativeValue]
  generalize price * owed = x
  generalize price * amount = y
  simp only [e18]
  omega

/-- The text of a projected health factor. -/
def healthText (collateral debt : Int) : Except Fault String :=
  (projectHF collateral debt).map (·.1)

/-- The text is the health factor. -/
theorem simulation_text {action asset label : String} {r : RiskResult} {collateral debt : Int}
    {sim : LendoraSimulation}
    (simulated : simulation action asset label r collateral debt = .ok sim) :
    healthText collateral debt = .ok sim.projectedHealthFactor := by
  simp [simulation] at simulated
  obtain ⟨_, _, _, projected, rfl⟩ := simulated
  rw [healthText, projected]
  rfl

/-- The price the tools use is that of the oracle they ask. -/
@[simp]
theorem gives_priceNativeVia {m : Address} {price : Nat} :
    Gives deps (Sees c) w (cTokenUnderlyingPriceNativeVia m) w' price ↔
      w = w' ∧ price = c.prices (w.lendora.oracleOn c) m := by
  simp [cTokenUnderlyingPriceNativeVia, cTokenUnderlyingPriceNative]

/-- The end of an operation: the payload calls the recipient with the data. -/
theorem finishOp_ok {ownerBech clientID tool description : String} {recipient : Address}
    {data : Bytes} {sim : LendoraSimulation} {out : LendoraTxOutput}
    (run : Gives deps sees w (finishOp deps ownerBech recipient data clientID tool description sim)
      w' out) : ∃ p, out = ⟨sim, some p, none⟩ ∧ p.Calls recipient 0 data := by
  simp [finishOp] at run
  obtain ⟨p, assembled, rfl⟩ := run
  exact ⟨p, rfl, assembleERC_calls assembled⟩

end SvpMcp
