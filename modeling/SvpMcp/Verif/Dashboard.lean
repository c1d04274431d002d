import Mathlib.Data.List.Forall2
import SvpMcp.Verif.AnnualRates
import SvpMcp.Verif.LendoraRisk
import SvpMcp.Verif.Surroundings

/-!
# The dashboard against the market list

On one state of the chain the list and the dashboard give each market the same supply and debt in
USD, so the totals of the one are the sums over the other's markets.
-/

namespace SvpMcp

open Handler

section Market

variable {deps : Deps} {w : World} {env : Env} {evm : EvmDeps} {oracle : Address} {m : Market}
  {st : MarketStats}

/-- A market before its value: the amounts come from three reads, and there is no value yet. -/
theorem marketRates_amounts (rated : resultIn deps w env (marketRates evm m) = .ok st) :
    ∃ cash borrows reserves,
      resultIn deps w env (cTokenUint m.cToken "getCash") = .ok cash ∧
      resultIn deps w env (cTokenUint m.cToken "totalBorrows") = .ok borrows ∧
      resultIn deps w env (cTokenUint m.cToken "totalReserves") = .ok reserves ∧
      st.totalSupplyUnderlying = cash + borrows - reserves ∧ st.totalBorrowUnderlying = borrows ∧
      st.underlyingDecimals = m.underlyingDecimals ∧ st.supplyUSD = .zero ∧
      st.borrowUSD = .zero := by
  simp only [marketRates, resultIn_bind] at rated
  obtain ⟨cash, isCash, borrows, isBorrows, reserves, isReserves, rated⟩ := rated
  iterate 10 obtain ⟨_, _, rated⟩ := rated
  cases rated
  exact ⟨cash, borrows, reserves, isCash, isBorrows, isReserves, rfl, rfl, rfl, rfl, rfl⟩

/-- Both paths value a market alike. -/
theorem marketUSD_loaded (loaded : resultIn deps w env (loadMarketStats evm oracle m) = .ok st) :
    resultIn deps w env (marketUSD oracle m) = .ok (st.supplyUSD, st.borrowUSD) := by
  simp only [loadMarketStats, resultIn_bind, resultIn_ofCall] at loaded
  obtain ⟨rated, isRated, feed, isFeed, valued⟩ := loaded
  obtain ⟨cash, borrows, reserves, isCash, isBorrows, isReserves, isSupply, isDebt, isDecimals,
    noSupply, noDebt⟩ := marketRates_amounts isRated
  refine (resultIn_step isCash).trans ?_
  refine (resultIn_step isBorrows).trans ?_
  refine (resultIn_step isReserves).trans ?_
  refine (resultIn_step isFeed).trans ?_
  cases feed with
  | none =>
    cases valued
    rw [noSupply, noDebt]
    rfl
  | some price =>
    obtain ⟨answer, feedDec⟩ := price
    simp [valueMarket] at valued
    obtain ⟨supplyUSD, isSupplyUSD, borrowUSD, isBorrowUSD, rfl⟩ := valued
    rw [isSupply, isDecimals] at isSupplyUSD
    rw [isDebt, isDecimals] at isBorrowUSD
    refine (resultIn_step ((resultIn_ofCall _).trans isSupplyUSD)).trans ?_
    refine (resultIn_step ((resultIn_ofCall _).trans isBorrowUSD)).trans ?_
    rfl

end Market

section Loops

variable {deps : Deps} {w : World} {env : Env} {evm : EvmDeps} {oracle : Address}

/-- The list has one row for each market, of what was read of it. -/
theorem addMarketRows_ok {markets : List Market} {rows rows' : List MarketDTO}
    (listed : resultIn deps w env (addMarketRows evm oracle markets rows) = .ok rows') :
    ∃ stats added, rows' = rows ++ added ∧
      List.Forall₂ (fun m st => resultIn deps w env (loadMarketStats evm oracle m) = .ok st)
        markets stats ∧
      List.Forall₂ (fun st row => marketDTO st = .ok row) stats added := by
  induction markets generalizing rows with
  | nil =>
    cases listed
    exact ⟨[], [], (List.append_nil _).symm, .nil, .nil⟩
  | cons m rest ih =>
    simp [addMarketRows, addMarketRow] at listed
    obtain ⟨st, loaded, row, isRow, listed⟩ := listed
    obtain ⟨stats, added, isRows, areLoaded, areRows⟩ := ih listed
    refine ⟨st :: stats, row :: added, ?_, .cons loaded areLoaded, .cons isRow areRows⟩
    rw [isRows, List.append_assoc]
    rfl

/-- The loop of the dashboard adds up the values of the markets. -/
theorem addMarketsUSD_sums {markets : List Market} {stats : List MarketStats}
    {totals totals' : LegacyDec × LegacyDec}
    (valued : List.Forall₂ (fun m st => resultIn deps w env (marketUSD oracle m) =
      .ok (st.supplyUSD, st.borrowUSD)) markets stats)
    (added : resultIn deps w env (addMarketsUSD oracle markets totals) = .ok totals') :
    totals'.1.units = totals.1.units + sumOver (·.supplyUSD.units) stats ∧
      totals'.2.units = totals.2.units + sumOver (·.borrowUSD.units) stats := by
  induction valued generalizing totals with
  | nil =>
    cases added
    exact ⟨(Int.add_zero _).symm, (Int.add_zero _).symm⟩
  | cons isValue _ ih =>
    obtain ⟨next, turn, added⟩ := resultIn_bind.mp added
    rw [addMarketUSD, resultIn_step isValue] at turn
    simp at turn
    obtain ⟨supplyUSD, isSupply, borrowUSD, isBorrow, rfl⟩ := turn
    have supplied := LegacyDec.ofUnits_units (decimal_eq_ok isSupply)
    have borrowed := LegacyDec.ofUnits_units (decimal_eq_ok isBorrow)
    obtain ⟨supplies, borrows⟩ := ih added
    simp only [sumOver] at supplies borrows ⊢
    omega

end Loops

/-- What the market list shows and what the dashboard adds up, of the same markets. -/
structure SameMarkets (deps : Deps) (w : World) (env : Env) (evm : EvmDeps)
    (stats : List MarketStats) (list : LendoraAllMarkets) (board : LendoraDashboard) : Prop where
  /-- Each cached market is loaded, and the dashboard takes its values. -/
  loaded : ∃ oracle, List.Forall₂ (fun m st =>
    resultIn deps w env (loadMarketStats evm oracle m) = .ok st ∧
      resultIn deps w env (marketUSD oracle m) = .ok (st.supplyUSD, st.borrowUSD))
    w.lendora.ordered stats
  rows : List.Forall₂ (fun st row => marketDTO st = .ok row) stats list.markets
  /-- The dashboard counts them. -/
  count : board.marketCount = list.markets.length
  /-- The dashboard shows their sums, and the difference of the sums. -/
  totals : ∃ supply borrow liquidity : LegacyDec,
    supply.units = sumOver (·.supplyUSD.units) stats ∧
    borrow.units = sumOver (·.borrowUSD.units) stats ∧
    liquidity.units = supply.units - borrow.units ∧
    formatUSD supply = .ok board.totalSupplyUSD ∧
    formatUSD borrow = .ok board.totalBorrowUSD ∧
    formatUSD liquidity = .ok board.totalLiquidityUSD

section Tools

variable {deps : Deps} {w : World} {env : Env} {evm : EvmDeps} {ctx : Context}

/-- What a market list that succeeds went through. -/
theorem lendoraGetAllMarkets_ok {list : LendoraAllMarkets}
    (listed : resultIn deps w env (lendoraGetAllMarkets deps evm ctx) = .ok list) :
    ∃ oracle, resultIn deps w env lendoraOracle = .ok oracle ∧
      resultIn deps w env (addMarketRows evm oracle w.lendora.ordered []) = .ok list.markets := by
  simp only [lendoraGetAllMarkets, resultIn_bind] at listed
  obtain ⟨_, _, _, _, oracle, isOracle, _, _, cache, isCache, rows, areRows, listed⟩ := listed
  cases listed
  cases isCache
  exact ⟨oracle, isOracle, areRows⟩

/-- What a dashboard that succeeds went through. -/
theorem lendoraGetProtocolDashboard_ok {board : LendoraDashboard}
    (shown : resultIn deps w env (lendoraGetProtocolDashboard deps evm ctx) = .ok board) :
    ∃ oracle, resultIn deps w env lendoraOracle = .ok oracle ∧
      board.marketCount = w.lendora.ordered.length ∧ ∃ supply borrow liquidity,
      resultIn deps w env (addMarketsUSD oracle w.lendora.ordered (.zero, .zero)) =
        .ok (supply, borrow) ∧
      decimal (supply.sub borrow) = .ok liquidity ∧
      formatUSD supply = .ok board.totalSupplyUSD ∧ formatUSD borrow = .ok board.totalBorrowUSD ∧
      formatUSD liquidity = .ok board.totalLiquidityUSD := by
  simp only [lendoraGetProtocolDashboard, resultIn_bind, resultIn_ofCall] at shown
  obtain ⟨_, _, _, _, oracle, isOracle, cache, isCache, ⟨supply, borrow⟩, areTotals, _, _, _,
    isSupply, _, isBorrow, liquidity, isLiquidity, _, isShown, shown⟩ := shown
  cases shown
  cases isCache
  exact ⟨oracle, isOracle, rfl, supply, borrow, liquidity, areTotals, isLiquidity, isSupply,
    isBorrow, isShown⟩

/-- On one state of the chain both paths value every market alike, and where both tools succeed the
dashboard shows the sums over the markets that the list shows. -/
theorem dashboard_totals_are_sums {ctx' : Context} {list : LendoraAllMarkets}
    {board : LendoraDashboard}
    (listed : resultIn deps w env (lendoraGetAllMarkets deps evm ctx) = .ok list)
    (shown : resultIn deps w env (lendoraGetProtocolDashboard deps evm ctx') = .ok board) :
    (∀ oracle m st, resultIn deps w env (loadMarketStats evm oracle m) = .ok st →
      resultIn deps w env (marketUSD oracle m) = .ok (st.supplyUSD, st.borrowUSD)) ∧
    ∃ stats, SameMarkets deps w env evm stats list board := by
  refine ⟨fun oracle m st => marketUSD_loaded, ?_⟩
  obtain ⟨oracle, isOracle, areRows⟩ := lendoraGetAllMarkets_ok listed
  obtain ⟨oracle', isOracle', isCount, supply, borrow, liquidity, areTotals, isLiquidity, isSupply,
    isBorrow, isShown⟩ := lendoraGetProtocolDashboard_ok shown
  cases isOracle.symm.trans isOracle'
  obtain ⟨stats, added, isAdded, areLoaded, rows⟩ := addMarketRows_ok areRows
  rw [List.nil_append] at isAdded
  have valued := areLoaded.imp fun _ _ loaded => marketUSD_loaded loaded
  obtain ⟨supplies, borrows⟩ := addMarketsUSD_sums valued areTotals
  have left := LegacyDec.ofUnits_units (decimal_eq_ok isLiquidity)
  have counts : w.lendora.ordered.length = list.markets.length := by
    rw [areLoaded.length_eq, rows.length_eq, isAdded]
  refine ⟨stats, {
    loaded := ⟨oracle, areLoaded.imp fun _ _ loaded => ⟨loaded, marketUSD_loaded loaded⟩⟩
    rows := isAdded ▸ rows
    count := isCount.trans counts
    totals := ⟨supply, borrow, liquidity, ?_, ?_, left, isSupply, isBorrow, isShown⟩ }⟩
  · exact supplies.trans (Int.zero_add _)
  · exact borrows.trans (Int.zero_add _)

end Tools

/-- A chain on which the first of two markets has a feed. -/
def boardEnv : Env where
  __ := chainEnv twoMarkets twoSymbols
  lendora
    | .cTokenToFeed _ m => .ok (if m = .ofBytes [1] then Address.ofBytes [3] else .zero)
    | .latestRoundData _ => .ok (150000000 : Int)
    | .decimals _ => .ok (8 : Nat)
    | query => (chainEnv twoMarkets twoSymbols).lendora query

/-- A server with both markets in its cache. -/
def boardWorld : World :=
  { meterWorld with
    lendora := ⟨∅, [⟨"USDC", .ofBytes [1], .ofBytes [1], 8, 0, false⟩,
      ⟨"USDT", .ofBytes [2], .ofBytes [2], 8, 0, false⟩], .ofBytes [10], true⟩ }

/-- A configuration with Lendora. -/
def boardEvm : EvmDeps := { meterEvm with comptroller := some (.ofBytes [11]) }

/-- The market list of two markets. -/
def boardList : Except Fault LendoraAllMarkets :=
  resultIn meterDeps boardWorld boardEnv
    (lendoraGetAllMarkets meterDeps boardEvm ownerContext)

/-- The dashboard of two markets. -/
def boardShown : Except Fault LendoraDashboard :=
  resultIn meterDeps boardWorld boardEnv
    (lendoraGetProtocolDashboard meterDeps boardEvm ownerContext)

/-- One market of six units at 1.50 and one without a feed. -/
theorem dashboard_totals_are_sums_two : ∃ list board,
    boardList = .ok list ∧ boardShown = .ok board ∧ board.totalSupplyUSD = "$9.00" ∧
    ∃ stats, SameMarkets meterDeps boardWorld boardEnv boardEvm stats list board := by
  obtain ⟨list, listed⟩ := exists_of_isOk (show boardList.isOk = true by decide +kernel)
  obtain ⟨board, shown⟩ := exists_of_isOk (show boardShown.isOk = true by decide +kernel)
  have total : boardShown.map (·.totalSupplyUSD) = .ok "$9.00" := by decide +kernel
  rw [shown] at total
  exact ⟨list, board, listed, shown, Except.ok.inj total,
    (dashboard_totals_are_sums listed shown).2⟩

end SvpMcp
