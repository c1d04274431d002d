import SvpMcp.Verif.ReadPanics

/-!
# Decimals that crash a Lendora read

The risk engine and the market list value every market at its feed, in a loop; the first turn that
panics is the one the tool ends in. The reads of all tools are put together at the end.
-/

namespace SvpMcp

open Handler

section
variable (deps : Deps) (w : World) (env : Env)

/-- What the risk engine has read before it visits the markets. -/
structure RiskStart (owner oracle : Address) (liquidity shortfall : Nat) (entered : List Address) :
    Prop where
  isOracle : resultIn deps w env lendoraOracle = .ok oracle
  isLiquidity : ∃ answer,
    resultIn deps w env (lendoraRead (.getAccountLiquidity owner) "getAccountLiquidity" none) =
      .ok answer ∧ accountLiquidity "getAccountLiquidity" answer = .ok (liquidity, shortfall)
  isEntered : resultIn deps w env (lendoraAssetsInSet owner) = .ok entered

/-- The loop over the markets gets to a position of the account, which is valued at a feed's
price. -/
structure PositionReached (owner oracle : Address) (entered : List Address) (m : Market)
    (totals : RiskTotals) (snap : SnapshotAnswer) (answer feedDec : Int) : Prop where
  isTurn : GetsTo deps w env (addMarkets oracle owner entered) w.lendora.ordered
    ⟨0, [], .zero, .zero⟩ m totals
  isSnapshot : ∃ found,
    resultIn deps w env (lendoraRead (.getAccountSnapshot m.cToken owner) "getAccountSnapshot"
      none) = .ok found ∧ accountSnapshot found = .ok snap
  held : ¬ (snap.cTokenBalance = 0 ∧ snap.borrowBalance = 0)
  isPriced : ∃ price, resultIn deps w env (cTokenUnderlyingPriceNative oracle m.cToken) = .ok price
  hasFactor : ∃ cf, resultIn deps w env (cTokenCollateralFactor m.cToken) = .ok cf
  hasFeed : resultIn deps w env (underlyingUsdPrice oracle m.cToken) = .ok (some (answer, feedDec))

/-- The markets have been visited. -/
def Visited (owner oracle : Address) (entered : List Address) (totals : RiskTotals) : Prop :=
  resultIn deps w env (addMarkets oracle owner entered w.lendora.ordered ⟨0, [], .zero, .zero⟩) =
    .ok totals

/-- The native market's feed. -/
def NativeFeed (oracle : Address) (answer feedDec : Int) : Prop :=
  ∃ native, w.lendora.ordered.find? (·.isCEther) = some native ∧ native.cToken ≠ .zero ∧
    resultIn deps w env (underlyingUsdPrice oracle native.cToken) = .ok (some (answer, feedDec))

/-- What a position supplies, in the underlying. -/
def SnapshotAnswer.supplied (snap : SnapshotAnswer) : Nat :=
  snap.cTokenBalance * snap.exchangeRate / e18

/-- What a position shows: the value of its supply, and behind it that of its debt. -/
inductive PositionShows (m : Market) (snap : SnapshotAnswer) (answer feedDec : Int) : Shown → Prop
  | supplied : PositionShows m snap answer feedDec
      (.value snap.supplied m.underlyingDecimals answer feedDec)
  | borrowed {suppliedUSD : LegacyDec}
      (first : usdFromFeed snap.supplied m.underlyingDecimals answer feedDec = .ok suppliedUSD) :
      PositionShows m snap answer feedDec
        (.value snap.borrowBalance m.underlyingDecimals answer feedDec)

/-- The sums over the positions so far cannot take the values of one more. -/
inductive SumsPanic (m : Market) (totals : RiskTotals) (snap : SnapshotAnswer)
    (answer feedDec : Int) (reason : String) : Prop
  | intro {suppliedUSD borrowedUSD : LegacyDec}
      (isSupplied : usdFromFeed snap.supplied m.underlyingDecimals answer feedDec =
        .ok suppliedUSD)
      (isBorrowed : usdFromFeed snap.borrowBalance m.underlyingDecimals answer feedDec =
        .ok borrowedUSD)
      (panics : decimal (totals.suppliedUSD.add suppliedUSD) = .error (.panic reason) ∨
        decimal (totals.borrowedUSD.add borrowedUSD) = .error (.panic reason))

/-- What `computeRisk` shows: the values of every position with a feed, and the account's
liquidity at the native feed. -/
inductive RiskShows (owner : Address) : Shown → Prop
  | position {oracle : Address} {liquidity shortfall : Nat} {entered : List Address} {m : Market}
      {totals : RiskTotals} {snap : SnapshotAnswer} {answer feedDec : Int} {s : Shown}
      (start : RiskStart deps w env owner oracle liquidity shortfall entered)
      (reached : PositionReached deps w env owner oracle entered m totals snap answer feedDec)
      (isShown : PositionShows m snap answer feedDec s) : RiskShows owner s
  | liquidity {oracle : Address} {liquidity shortfall : Nat} {entered : List Address}
      {totals : RiskTotals} {healthFactor : LegacyDec} {answer feedDec : Int}
      (start : RiskStart deps w env owner oracle liquidity shortfall entered)
      (visited : Visited deps w env owner oracle entered totals)
      (healthy : healthFactorOf ((liquidity - shortfall : Int) + totals.sumBorrow)
        totals.sumBorrow = .ok healthFactor)
      (hasFeed : NativeFeed deps w env oracle answer feedDec) :
      RiskShows owner (.value liquidity 18 answer feedDec)

/-- The other panics of `computeRisk`: of the sums in USD, and of the health factor. -/
inductive RiskElsewhere (owner : Address) (reason : String) : Prop
  | sums {oracle : Address} {liquidity shortfall : Nat} {entered : List Address} {m : Market}
      {totals : RiskTotals} {snap : SnapshotAnswer} {answer feedDec : Int}
      (start : RiskStart deps w env owner oracle liquidity shortfall entered)
      (reached : PositionReached deps w env owner oracle entered m totals snap answer feedDec)
      (panics : SumsPanic m totals snap answer feedDec reason)
  | healthFactor {oracle : Address} {liquidity shortfall : Nat} {entered : List Address}
      {totals : RiskTotals}
      (start : RiskStart deps w env owner oracle liquidity shortfall entered)
      (visited : Visited deps w env owner oracle entered totals)
      (panics : healthFactorOf ((liquidity - shortfall : Int) + totals.sumBorrow)
        totals.sumBorrow = .error (.panic reason))

variable {deps w env} {owner oracle : Address} {entered : List Address} {liquidity shortfall : Nat}
  {m : Market} {totals : RiskTotals} {snap : SnapshotAnswer} {answer feedDec : Int} {fault : Fault}

/-- What the risk engine reads first is determined. -/
theorem RiskStart.unique {oracle' : Address} {liquidity' shortfall' : Nat}
    {entered' : List Address}
    (start : RiskStart deps w env owner oracle liquidity shortfall entered)
    (start' : RiskStart deps w env owner oracle' liquidity' shortfall' entered') :
    oracle = oracle' ∧ liquidity = liquidity' ∧ shortfall = shortfall' ∧ entered = entered' := by
  obtain ⟨found, isFound, isLiquidity⟩ := start.isLiquidity
  obtain ⟨found', isFound', isLiquidity'⟩ := start'.isLiquidity
  cases start.isOracle.symm.trans start'.isOracle
  cases isFound.symm.trans isFound'
  cases isLiquidity.symm.trans isLiquidity'
  cases start.isEntered.symm.trans start'.isEntered
  exact ⟨rfl, rfl, rfl, rfl⟩

/-- What is read of a position is determined. -/
theorem PositionReached.unique {snap' : SnapshotAnswer} {answer' feedDec' : Int}
    (reached : PositionReached deps w env owner oracle entered m totals snap answer feedDec)
    (reached' : PositionReached deps w env owner oracle entered m totals snap' answer' feedDec') :
    snap = snap' ∧ answer = answer' ∧ feedDec = feedDec' := by
  obtain ⟨found, isFound, isSnap⟩ := reached.isSnapshot
  obtain ⟨found', isFound', isSnap'⟩ := reached'.isSnapshot
  cases isFound.symm.trans isFound'
  cases isSnap.symm.trans isSnap'
  cases reached.hasFeed.symm.trans reached'.hasFeed
  exact ⟨rfl, rfl, rfl⟩

/-- Where the valuation of a position fails. -/
theorem addValued_error {pos : MarketPosition} :
    addValued totals pos (some (answer, feedDec)) = .error fault ↔
      usdFromFeed pos.suppliedUnderlying pos.underlyingDecimals answer feedDec = .error fault ∨
      ∃ suppliedUSD,
        usdFromFeed pos.suppliedUnderlying pos.underlyingDecimals answer feedDec = .ok suppliedUSD ∧
        (usdFromFeed pos.borrowedUnderlying pos.underlyingDecimals answer feedDec = .error fault ∨
        ∃ borrowedUSD,
          usdFromFeed pos.borrowedUnderlying pos.underlyingDecimals answer feedDec =
            .ok borrowedUSD ∧
          (decimal (totals.suppliedUSD.add suppliedUSD) = .error fault ∨
          ∃ sum, decimal (totals.suppliedUSD.add suppliedUSD) = .ok sum ∧
            decimal (totals.borrowedUSD.add borrowedUSD) = .error fault)) := by
  simp only [addValued, bind_eq_error, pure_eq_error, and_false, exists_false, or_false]

/-- The turn of a position that is reached is its valuation. -/
theorem PositionReached.turn
    (reached : PositionReached deps w env owner oracle entered m totals snap answer feedDec) :
    ∃ totals' pos,
      resultIn deps w env (addMarket oracle owner entered m totals) =
        addValued totals' pos (some (answer, feedDec)) ∧
      totals'.suppliedUSD = totals.suppliedUSD ∧ totals'.borrowedUSD = totals.borrowedUSD ∧
      pos.suppliedUnderlying = snap.supplied ∧ pos.borrowedUnderlying = snap.borrowBalance ∧
      pos.underlyingDecimals = m.underlyingDecimals := by
  obtain ⟨found, isFound, isSnap⟩ := reached.isSnapshot
  obtain ⟨price, isPrice⟩ := reached.isPriced
  obtain ⟨cf, isFactor⟩ := reached.hasFactor
  apply Exists.intro
  apply Exists.intro
  constructor
  · rw [addMarket, resultIn_step isFound, resultIn_step (resultIn_ofResult.mpr isSnap),
      if_neg reached.held, addPosition, resultIn_step isPrice, resultIn_step isFactor,
      resultIn_step reached.hasFeed, resultIn_ofCall]
  · exact ⟨rfl, rfl, rfl, rfl, rfl⟩

variable {reason : String}

/-- A position ends in its panic. -/
theorem position_ends {s : Shown}
    (reached : PositionReached deps w env owner oracle entered m totals snap answer feedDec)
    (isShown : PositionShows m snap answer feedDec s) (panics : s.Panics reason) :
    resultIn deps w env (addMarket oracle owner entered m totals) = .error (.panic reason) := by
  obtain ⟨totals', pos, isTurn, _, _, isSupplied, isBorrowed, isDecimals⟩ := reached.turn
  rw [isTurn, addValued_error, isSupplied, isBorrowed, isDecimals]
  cases isShown with
  | supplied => exact Or.inl panics
  | borrowed first => exact Or.inr ⟨_, first, Or.inl panics⟩

/-- So do the sums. -/
theorem sums_end
    (reached : PositionReached deps w env owner oracle entered m totals snap answer feedDec)
    (panics : SumsPanic m totals snap answer feedDec reason) :
    ∃ fault, resultIn deps w env (addMarket oracle owner entered m totals) = .error fault := by
  obtain ⟨totals', pos, isTurn, sumSupplied, sumBorrowed, isSupplied, isBorrowed, isDecimals⟩ :=
    reached.turn
  simp only [isTurn, addValued_error, isSupplied, isBorrowed, isDecimals, sumSupplied, sumBorrowed]
  cases panics with
  | intro supplied borrowed panics =>
    rename_i suppliedUSD borrowedUSD
    cases sum : decimal (totals.suppliedUSD.add suppliedUSD) with
    | error fault => exact ⟨fault, Or.inr ⟨_, supplied, Or.inr ⟨_, borrowed, Or.inl sum⟩⟩⟩
    | ok total =>
      have second : decimal (totals.borrowedUSD.add borrowedUSD) = .error (.panic reason) := by
        rcases panics with first | second
        · rw [sum] at first
          cases first
        · exact second
      exact ⟨_, Or.inr ⟨_, supplied, Or.inr ⟨_, borrowed, Or.inr ⟨total, sum, second⟩⟩⟩⟩

/-- A turn that panics is that of a position with a feed. -/
theorem position_found
    (isTurn : GetsTo deps w env (addMarkets oracle owner entered) w.lendora.ordered
      ⟨0, [], .zero, .zero⟩ m totals)
    (panics : resultIn deps w env (addMarket oracle owner entered m totals) =
      .error (.panic reason)) :
    ∃ snap answer feedDec,
      PositionReached deps w env owner oracle entered m totals snap answer feedDec ∧
      ((∃ s, PositionShows m snap answer feedDec s ∧ s.Panics reason) ∨
        SumsPanic m totals snap answer feedDec reason) := by
  simp [addMarket, -resultIn_lendoraRead] at panics
  obtain ⟨found, isFound, snap, isSnap, panics⟩ := panics
  by_cases empty : snap.cTokenBalance = 0 ∧ snap.borrowBalance = 0
  · simp [empty] at panics
  · simp [empty, addPosition] at panics
    obtain ⟨price, isPrice, cf, isFactor, feed, isFeed, panics⟩ := panics
    cases feed with
    | none => cases panics
    | some price =>
      obtain ⟨answer, feedDec⟩ := price
      refine ⟨snap, answer, feedDec, ⟨isTurn, ⟨found, isFound, isSnap⟩, empty, ⟨_, isPrice⟩,
        ⟨cf, isFactor⟩, isFeed⟩, ?_⟩
      rcases addValued_error.mp panics with supplied | ⟨_, isSupplied, borrowed | sums⟩
      · exact Or.inl ⟨_, .supplied, supplied⟩
      · exact Or.inl ⟨_, .borrowed isSupplied, borrowed⟩
      · obtain ⟨_, isBorrowed, first | ⟨_, _, second⟩⟩ := sums
        · exact Or.inr ⟨isSupplied, isBorrowed, Or.inl first⟩
        · exact Or.inr ⟨isSupplied, isBorrowed, Or.inr second⟩

/-- Behind its first reads the risk engine panics in visiting the markets, in the health factor or
in the liquidity's value. -/
theorem computeRisk_panics_iff :
    resultIn deps w env (computeRisk owner) = .error (.panic reason) ↔
      ∃ oracle liquidity shortfall entered,
        RiskStart deps w env owner oracle liquidity shortfall entered ∧
        (resultIn deps w env (addMarkets oracle owner entered w.lendora.ordered
          ⟨0, [], .zero, .zero⟩) = .error (.panic reason) ∨
        ∃ totals, Visited deps w env owner oracle entered totals ∧
          (healthFactorOf ((liquidity - shortfall : Int) + totals.sumBorrow) totals.sumBorrow =
            .error (.panic reason) ∨
          (∃ healthFactor, healthFactorOf ((liquidity - shortfall : Int) + totals.sumBorrow)
            totals.sumBorrow = .ok healthFactor) ∧
          resultIn deps w env (nativeLiquidityUSD oracle liquidity) =
            .error (.panic reason))) := by
  simp [computeRisk, -resultIn_lendoraRead]
  constructor
  · rintro ⟨oracle, isOracle, answer, isAnswer, liquidity, shortfall, isLiquidity, entered,
      isEntered, panics⟩
    exact ⟨oracle, liquidity, shortfall, entered, ⟨isOracle, ⟨answer, isAnswer, isLiquidity⟩,
      isEntered⟩, panics⟩
  · rintro ⟨oracle, liquidity, shortfall, entered, ⟨isOracle, ⟨answer, isAnswer, isLiquidity⟩,
      isEntered⟩, panics⟩
    exact ⟨oracle, isOracle, answer, isAnswer, liquidity, shortfall, isLiquidity, entered,
      isEntered, panics⟩

/-- The valuation of the account's liquidity panics at the native feed. -/
theorem nativeLiquidityUSD_panics_iff :
    resultIn deps w env (nativeLiquidityUSD oracle liquidity) = .error (.panic reason) ↔
      ∃ answer feedDec, NativeFeed deps w env oracle answer feedDec ∧
        usdFromFeed liquidity 18 answer feedDec = .error (.panic reason) := by
  have isCache : ((server deps).perform w env .lendoraCache).1 = w.lendora := rfl
  cases isNative : w.lendora.ordered.find? (·.isCEther) with
  | none => simp [nativeLiquidityUSD, NativeFeed, isCache, isNative]
  | some native =>
    by_cases zero : native.cToken = .zero
    · simp [nativeLiquidityUSD, NativeFeed, isCache, isNative, zero]
    · simp [nativeLiquidityUSD, NativeFeed, isCache, isNative, zero]
      constructor
      · rintro ⟨_ | ⟨answer, feedDec⟩, isFeed, panics⟩
        · cases panics
        · exact ⟨answer, feedDec, isFeed, by simpa using panics⟩
      · rintro ⟨answer, feedDec, isFeed, panics⟩
        exact ⟨some (answer, feedDec), isFeed, by simpa using panics⟩

/-- A number shown ends `computeRisk`. -/
theorem computeRisk_ends (s : Shown) (reason : String) (isShown : RiskShows deps w env owner s)
    (panics : s.Panics reason) :
    resultIn deps w env (computeRisk owner) = .error (.panic reason) := by
  rw [computeRisk_panics_iff]
  cases isShown with
  | position start reached isShown =>
    exact ⟨_, _, _, _, start, .inl (loop_ends (fun _ => rfl) (fun _ _ _ => rfl) reached.isTurn
      (position_ends reached isShown panics))⟩
  | liquidity start visited healthy hasFeed =>
    exact ⟨_, _, _, _, start, .inr ⟨_, visited, .inr ⟨⟨_, healthy⟩,
      nativeLiquidityUSD_panics_iff.mpr ⟨_, _, hasFeed, panics⟩⟩⟩⟩

/-- Every panic is one of these. -/
theorem computeRisk_found (reason : String)
    (panics : resultIn deps w env (computeRisk owner) = .error (.panic reason)) :
    (∃ s, RiskShows deps w env owner s ∧ s.Panics reason) ∨
      RiskElsewhere deps w env owner reason := by
  obtain ⟨oracle, liquidity, shortfall, entered, start, panics⟩ := computeRisk_panics_iff.mp panics
  rcases panics with visiting | ⟨totals, visited, dividing | ⟨⟨_, healthy⟩, valuing⟩⟩
  · obtain ⟨m, totals, isTurn, fails⟩ :=
      loop_stops (fun _ => rfl) (fun _ _ _ => rfl) visiting
    obtain ⟨snap, answer, feedDec, reached, showing | sums⟩ := position_found isTurn fails
    · obtain ⟨s, isShown, panics⟩ := showing
      exact Or.inl ⟨s, .position start reached isShown, panics⟩
    · exact Or.inr (.sums start reached sums)
  · exact Or.inr (.healthFactor start visited dividing)
  · obtain ⟨answer, feedDec, hasFeed, panics⟩ := nativeLiquidityUSD_panics_iff.mp valuing
    exact Or.inl ⟨_, .liquidity start visited healthy hasFeed, panics⟩

/-- A position whose turn fails keeps the markets from being visited. -/
theorem not_visited {totals' : RiskTotals}
    (isTurn : GetsTo deps w env (addMarkets oracle owner entered) w.lendora.ordered
      ⟨0, [], .zero, .zero⟩ m totals)
    (fails : resultIn deps w env (addMarket oracle owner entered m totals) = .error fault) :
    ¬ Visited deps w env owner oracle entered totals' := by
  intro visited
  have ended := loop_ends (fun _ => rfl) (fun _ _ _ => rfl) isTurn fails
  cases visited.symm.trans ended

/-- A number shown and another panic exclude each other. -/
theorem computeRisk_apart (s : Shown) (reason : String) (isShown : RiskShows deps w env owner s)
    (panics : s.Panics reason) : ¬ RiskElsewhere deps w env owner reason := by
  intro elsewhere
  cases isShown with
  | position start reached isShown =>
    have fails := position_ends reached isShown panics
    cases elsewhere with
    | sums start' reached' sums =>
      obtain ⟨rfl, rfl, rfl, rfl⟩ := start.unique start'
      obtain ⟨fault, fails'⟩ := sums_end reached' sums
      obtain ⟨rfl, rfl⟩ := loop_stops_once (fun _ => rfl) (fun _ _ _ => rfl) reached.isTurn fails
        reached'.isTurn fails'
      obtain ⟨rfl, rfl, rfl⟩ := reached.unique reached'
      -- Both values were shown before the sums were taken.
      cases sums with
      | intro isSupplied isBorrowed _ =>
        cases isShown with
        | supplied => cases isSupplied.symm.trans panics
        | borrowed first => cases isBorrowed.symm.trans panics
    | healthFactor start' visited _ =>
      obtain ⟨rfl, rfl, rfl, rfl⟩ := start.unique start'
      exact not_visited reached.isTurn fails visited
  | liquidity start visited healthy hasFeed =>
    cases elsewhere with
    | sums start' reached' sums =>
      obtain ⟨rfl, rfl, rfl, rfl⟩ := start.unique start'
      obtain ⟨fault, fails'⟩ := sums_end reached' sums
      exact not_visited reached'.isTurn fails' visited
    | healthFactor start' visited' dividing =>
      obtain ⟨rfl, rfl, rfl, rfl⟩ := start.unique start'
      cases visited.symm.trans visited'
      cases healthy.symm.trans dividing

/-- Where `computeRisk` panics. -/
theorem computeRisk_panics :
    PanicsAt (RiskShows deps w env owner) (RiskElsewhere deps w env owner)
      (resultIn deps w env (computeRisk owner)) :=
  ⟨computeRisk_ends, computeRisk_found, computeRisk_apart⟩

end

section
variable (deps : Deps) (w : World) (env : Env) (ctx : Context) (evm : EvmDeps)

/-- `LendoraGetAllMarkets` gets to a market. -/
structure RowTurn (oracle : Address) (m : Market) (rows : List MarketDTO) : Prop where
  isAdmitted : ∃ tp, resultIn deps w env (authorize ctx "lendora_get_all_markets") = .ok tp
  isEnabled : resultIn deps w env (requireLendora deps evm) = .ok ()
  isOracle : resultIn deps w env lendoraOracle = .ok oracle
  isTurn : GetsTo deps w env (addMarketRows evm oracle) w.lendora.ordered [] m rows

/-- `LendoraGetAllMarkets` gets to the values of a market. -/
structure RowReached (oracle : Address) (m : Market) (rows : List MarketDTO) (st : MarketStats)
    (feed : Option (Int × Int)) : Prop extends RowTurn deps w env ctx evm oracle m rows where
  hasRates : resultIn deps w env (marketRates evm m) = .ok st
  hasFeed : resultIn deps w env (underlyingUsdPrice oracle m.cToken) = .ok feed

/-- The rates of a row can be shown, which are shown before its amounts. -/
def RatesShown (st : MarketStats) : Prop :=
  (∃ text, formatPercent st.supplyAPY = .ok text) ∧ ∃ text, formatPercent st.borrowAPY = .ok text

/-- Both amounts of a row can be shown. -/
def AmountsShown (st : MarketStats) : Prop :=
  (∃ text, humanOut st.totalSupplyUnderlying st.underlyingDecimals = .ok text) ∧
    ∃ text, humanOut st.totalBorrowUnderlying st.underlyingDecimals = .ok text

/-- What a row shows: the values of the supply and the debt if there is a feed, and both
amounts. -/
inductive RowShows (st : MarketStats) (feed : Option (Int × Int)) : Shown → Prop
  | supplyUSD {answer feedDec : Int} (isFeed : feed = some (answer, feedDec)) :
      RowShows st feed (.value st.totalSupplyUnderlying st.underlyingDecimals answer feedDec)
  | borrowUSD {answer feedDec : Int} {supplyUSD : LegacyDec}
      (isFeed : feed = some (answer, feedDec))
      (first : usdFromFeed st.totalSupplyUnderlying st.underlyingDecimals answer feedDec =
        .ok supplyUSD) :
      RowShows st feed (.value st.totalBorrowUnderlying st.underlyingDecimals answer feedDec)
  | supply {valued : MarketStats} (isValued : valueMarket st feed = .ok valued)
      (rates : RatesShown valued) :
      RowShows st feed (.amount valued.totalSupplyUnderlying valued.underlyingDecimals)
  | borrow {valued : MarketStats} {text : String} (isValued : valueMarket st feed = .ok valued)
      (rates : RatesShown valued)
      (first : humanOut valued.totalSupplyUnderlying valued.underlyingDecimals = .ok text) :
      RowShows st feed (.amount valued.totalBorrowUnderlying valued.underlyingDecimals)

/-- A text of a row other than its amounts panics: a percentage, or the text of a value. -/
def TextsPanic (st : MarketStats) (feed : Option (Int × Int)) (reason : String) : Prop :=
  ∃ valued, valueMarket st feed = .ok valued ∧ marketDTO valued = .error (.panic reason) ∧
    (RatesShown valued → AmountsShown valued)

/-- What `LendoraGetAllMarkets` shows, market by market. -/
inductive RowsShow : Shown → Prop
  | row {oracle : Address} {m : Market} {rows : List MarketDTO} {st : MarketStats}
      {feed : Option (Int × Int)} {s : Shown}
      (reached : RowReached deps w env ctx evm oracle m rows st feed)
      (isShown : RowShows st feed s) : RowsShow s

/-- The other panics of `LendoraGetAllMarkets`: of the rates, and of the texts. -/
inductive RowsElsewhere (reason : String) : Prop
  | rates {oracle : Address} {m : Market} {rows : List MarketDTO}
      (turn : RowTurn deps w env ctx evm oracle m rows)
      (panics : resultIn deps w env (marketRates evm m) = .error (.panic reason))
  | texts {oracle : Address} {m : Market} {rows : List MarketDTO} {st : MarketStats}
      {feed : Option (Int × Int)} (reached : RowReached deps w env ctx evm oracle m rows st feed)
      (panics : TextsPanic st feed reason)

variable {deps w env ctx evm} {oracle : Address} {m : Market} {rows : List MarketDTO}
  {st valued : MarketStats} {feed : Option (Int × Int)} {fault : Fault} {reason : String}

/-- Where the valuation of a market fails. -/
theorem valueMarket_error {answer feedDec : Int} :
    valueMarket st (some (answer, feedDec)) = .error fault ↔
      usdFromFeed st.totalSupplyUnderlying st.underlyingDecimals answer feedDec = .error fault ∨
      ∃ supplyUSD,
        usdFromFeed st.totalSupplyUnderlying st.underlyingDecimals answer feedDec = .ok supplyUSD ∧
        usdFromFeed st.totalBorrowUnderlying st.underlyingDecimals answer feedDec =
          .error fault := by
  simp only [valueMarket, bind_eq_error, pure_eq_error, and_false, exists_false, or_false]

/-- With its rates shown a row goes on to its amounts. -/
theorem marketDTO_amounts (rates : RatesShown valued) :
    ∃ next : String → String → Except Fault MarketDTO,
      marketDTO valued = (do
        let totalSupply ← humanOut valued.totalSupplyUnderlying valued.underlyingDecimals
        let totalBorrow ← humanOut valued.totalBorrowUnderlying valued.underlyingDecimals
        next totalSupply totalBorrow) := by
  obtain ⟨⟨supplyText, isSupplyText⟩, borrowText, isBorrowText⟩ := rates
  apply Exists.intro
  rw [marketDTO, isSupplyText, isBorrowText]
  rfl

/-- A row ends in the panic of what it shows. -/
theorem row_ends {s : Shown} (isShown : RowShows st feed s) (panics : s.Panics reason) :
    (valueMarket st feed >>= marketDTO) = .error (.panic reason) := by
  cases isShown with
  | supplyUSD isFeed =>
    subst isFeed
    exact bind_eq_error.mpr (Or.inl (valueMarket_error.mpr (Or.inl panics)))
  | borrowUSD isFeed first =>
    subst isFeed
    exact bind_eq_error.mpr (Or.inl (valueMarket_error.mpr (Or.inr ⟨_, first, panics⟩)))
  | supply isValued rates =>
    obtain ⟨next, isRest⟩ := marketDTO_amounts rates
    refine bind_eq_error.mpr (Or.inr ⟨_, isValued, ?_⟩)
    rw [isRest]
    exact bind_eq_error.mpr (Or.inl panics)
  | borrow isValued rates first =>
    obtain ⟨next, isRest⟩ := marketDTO_amounts rates
    refine bind_eq_error.mpr (Or.inr ⟨_, isValued, ?_⟩)
    rw [isRest]
    exact bind_eq_error.mpr (Or.inr ⟨_, first, bind_eq_error.mpr (Or.inl panics)⟩)

/-- The panics of a row. -/
theorem row_found (panics : (valueMarket st feed >>= marketDTO) = .error (.panic reason)) :
    (∃ s, RowShows st feed s ∧ s.Panics reason) ∨ TextsPanic st feed reason := by
  rcases bind_eq_error.mp panics with valuing | ⟨valued, isValued, writing⟩
  · cases feed with
    | none => cases valuing
    | some price =>
      obtain ⟨answer, feedDec⟩ := price
      rcases valueMarket_error.mp valuing with supply | ⟨_, isSupply, borrow⟩
      · exact Or.inl ⟨_, .supplyUSD rfl, supply⟩
      · exact Or.inl ⟨_, .borrowUSD rfl isSupply, borrow⟩
  · by_cases rates : RatesShown valued
    · obtain ⟨next, isRest⟩ := marketDTO_amounts rates
      have amounts := writing
      rw [isRest] at amounts
      rcases bind_eq_error.mp amounts with supply | ⟨supplyText, isSupply, amounts⟩
      · exact Or.inl ⟨_, .supply isValued rates, supply⟩
      · rcases bind_eq_error.mp amounts with borrow | ⟨borrowText, isBorrow, _⟩
        · exact Or.inl ⟨_, .borrow isValued rates isSupply, borrow⟩
        · exact Or.inr ⟨valued, isValued, writing,
            fun _ => ⟨⟨supplyText, isSupply⟩, ⟨borrowText, isBorrow⟩⟩⟩
    · exact Or.inr ⟨valued, isValued, writing, fun shown => absurd shown rates⟩

/-- What a row shows and its texts do not both panic. -/
theorem row_apart {s : Shown} (isShown : RowShows st feed s) (panics : s.Panics reason) :
    ¬ TextsPanic st feed reason := by
  rintro ⟨valued, isValued, _, amounts⟩
  cases isShown with
  | supplyUSD isFeed =>
    subst isFeed
    cases isValued.symm.trans (valueMarket_error.mpr (Or.inl panics))
  | borrowUSD isFeed first =>
    subst isFeed
    cases isValued.symm.trans (valueMarket_error.mpr (Or.inr ⟨_, first, panics⟩))
  | supply isValued' rates =>
    cases isValued.symm.trans isValued'
    obtain ⟨⟨text, isText⟩, _⟩ := amounts rates
    cases isText.symm.trans panics
  | borrow isValued' rates first =>
    cases isValued.symm.trans isValued'
    obtain ⟨_, text, isText⟩ := amounts rates
    cases isText.symm.trans panics

/-- The turn of a market with its rates and its feed is its row. -/
theorem RowReached.turn (reached : RowReached deps w env ctx evm oracle m rows st feed)
    (fails : (valueMarket st feed >>= marketDTO) = .error fault) :
    resultIn deps w env (addMarketRow evm oracle m rows) = .error fault := by
  have loaded : resultIn deps w env (loadMarketStats evm oracle m) = valueMarket st feed := by
    rw [loadMarketStats, resultIn_step reached.hasRates, resultIn_step reached.hasFeed,
      resultIn_ofCall]
  rcases bind_eq_error.mp fails with valuing | ⟨valued, isValued, writing⟩
  · exact resultIn_fails (loaded.trans valuing)
  · refine (resultIn_step (loaded.trans isValued)).trans ?_
    exact resultIn_fails ((resultIn_ofCall _).trans writing)

/-- A turn that panics does in the rates or in the row. -/
theorem turn_found (turn : RowTurn deps w env ctx evm oracle m rows)
    (panics : resultIn deps w env (addMarketRow evm oracle m rows) = .error (.panic reason)) :
    resultIn deps w env (marketRates evm m) = .error (.panic reason) ∨
      ∃ st feed, RowReached deps w env ctx evm oracle m rows st feed ∧
        (valueMarket st feed >>= marketDTO) = .error (.panic reason) := by
  simp [addMarketRow, loadMarketStats] at panics
  rcases panics with rating | ⟨st, hasRates, feed, hasFeed, row⟩
  · exact Or.inl rating
  · exact Or.inr ⟨st, feed, ⟨turn, hasRates, hasFeed⟩, bind_eq_error.mpr row⟩

/-- A market whose turn fails ends the tool. -/
theorem RowTurn.ends (turn : RowTurn deps w env ctx evm oracle m rows)
    (fails : resultIn deps w env (addMarketRow evm oracle m rows) = .error fault) :
    resultIn deps w env (lendoraGetAllMarkets deps evm ctx) = .error fault := by
  obtain ⟨tp, admitted⟩ := turn.isAdmitted
  rw [lendoraGetAllMarkets, resultIn_step admitted, resultIn_step turn.isEnabled,
    resultIn_step turn.isOracle, resultIn_step resultIn_evmBlockNumber,
    resultIn_step (resultIn_call .lendoraCache)]
  exact resultIn_fails (loop_ends (fun _ => rfl) (fun _ _ _ => rfl) turn.isTurn fails)

/-- A panic is that of a turn. -/
theorem lendoraGetAllMarkets_found
    (panics : resultIn deps w env (lendoraGetAllMarkets deps evm ctx) = .error (.panic reason)) :
    ∃ oracle m rows, RowTurn deps w env ctx evm oracle m rows ∧
      resultIn deps w env (addMarketRow evm oracle m rows) = .error (.panic reason) := by
  simp [lendoraGetAllMarkets, -resultIn_authorize] at panics
  obtain ⟨admitted, ⟨_, enabled⟩, oracle, isOracle, listing⟩ := panics
  obtain ⟨m, rows, isTurn, fails⟩ := loop_stops (fun _ => rfl) (fun _ _ _ => rfl) listing
  exact ⟨oracle, m, rows, ⟨admitted, enabled, isOracle, isTurn⟩, fails⟩

/-- The markets at which two turns fail are one. -/
theorem RowTurn.unique {oracle' : Address} {m' : Market} {rows' : List MarketDTO} {fault' : Fault}
    (turn : RowTurn deps w env ctx evm oracle m rows)
    (fails : resultIn deps w env (addMarketRow evm oracle m rows) = .error fault)
    (turn' : RowTurn deps w env ctx evm oracle' m' rows')
    (fails' : resultIn deps w env (addMarketRow evm oracle' m' rows') = .error fault') :
    oracle = oracle' ∧ m = m' := by
  cases turn.isOracle.symm.trans turn'.isOracle
  exact ⟨rfl, (loop_stops_once (fun _ => rfl) (fun _ _ _ => rfl) turn.isTurn fails turn'.isTurn
    fails').1⟩

/-- Where the market list panics. -/
theorem lendoraGetAllMarkets_panics :
    PanicsAt (RowsShow deps w env ctx evm) (RowsElsewhere deps w env ctx evm)
      (resultIn deps w env (lendoraGetAllMarkets deps evm ctx)) where
  ends s reason isShown panics := by
    cases isShown with
    | row reached isShown => exact reached.ends (reached.turn (row_ends isShown panics))
  found reason panics := by
    obtain ⟨oracle, m, rows, turn, fails⟩ := lendoraGetAllMarkets_found panics
    rcases turn_found turn fails with rating | ⟨st, feed, reached, panics⟩
    · exact Or.inr (.rates turn rating)
    · rcases row_found panics with ⟨s, isShown, panics⟩ | texts
      · exact Or.inl ⟨s, .row reached isShown, panics⟩
      · exact Or.inr (.texts reached texts)
  apart s reason isShown panics := by
    intro elsewhere
    cases isShown with
    | row reached isShown =>
      have fails := reached.turn (row_ends isShown panics)
      cases elsewhere with
      | rates turn rating =>
        obtain ⟨_, rfl⟩ :=
          reached.toRowTurn.unique fails turn (resultIn_fails (resultIn_fails rating))
        cases reached.hasRates.symm.trans rating
      | texts reached' texts =>
        obtain ⟨valued, isValued, writing, amounts⟩ := texts
        have fails' := reached'.turn (bind_eq_error.mpr (Or.inr ⟨valued, isValued, writing⟩))
        obtain ⟨rfl, rfl⟩ := reached.toRowTurn.unique fails reached'.toRowTurn fails'
        cases reached.hasRates.symm.trans reached'.hasRates
        cases reached.hasFeed.symm.trans reached'.hasFeed
        exact row_apart isShown panics ⟨valued, isValued, writing, amounts⟩

end

/-- Contract-supplied decimals crash no tool exactly when every number it gets to show is within
the bounds: eighteen decimals, 256 bits of an amount and of a value's whole part. What is left are
the panics of the conversion of an amount given, of the sums and the health factor, and of the
rates and their texts. -/
theorem reads_never_crash_iff (deps : Deps) (w : World) (env : Env) (ctx : Context)
    (evm : EvmDeps) (oracle : Option Address) (owner : Address)
    (tokenIn tokenOut amountIn : String) (input : BuildSwapInput) :
    (PanicsOnly (AmountPanics deps w env tokenIn amountIn)
        (resultIn deps w env (quoteSwap deps ctx tokenIn tokenOut amountIn)) ↔
      ∀ s, QuoteShows deps w env ctx tokenIn tokenOut amountIn s → s.Safe) ∧
    (PanicsOnly (AmountPanics deps w env input.tokenIn input.amountIn)
        (resultIn deps w env (buildSwap deps ctx input)) ↔
      ∀ s, SwapShows deps w env ctx input s → s.Safe) ∧
    (Calm deps w env (getOraclePrice deps oracle ctx) ↔
      ∀ s, PriceShows deps w env ctx oracle s → s.Safe) ∧
    (PanicsOnly (RowsElsewhere deps w env ctx evm)
        (resultIn deps w env (lendoraGetAllMarkets deps evm ctx)) ↔
      ∀ s, RowsShow deps w env ctx evm s → s.Safe) ∧
    (PanicsOnly (RiskElsewhere deps w env owner) (resultIn deps w env (computeRisk owner)) ↔
      ∀ s, RiskShows deps w env owner s → s.Safe) :=
  ⟨quoteSwap_panics.only_iff, buildSwap_panics.only_iff, getOraclePrice_panics.only_iff,
    lendoraGetAllMarkets_panics.only_iff, computeRisk_panics.only_iff⟩

/-- An EVM node at which the router quotes a thousand and every token has nineteen decimals. -/
def nineteenEnv : Env where
  __ := acceptingEnv 0
  evm _
    | .chainID => .ok (1 : Int)
    | .pendingNonceAt _ => .ok (0 : UInt64)
    | .suggestGasTipCap => .ok (1 : Int)
    | .baseFee => .ok (1 : Int)
    | .estimateGas _ => .ok (21000 : UInt64)
    | .callContract contract _ =>
      if contract = .ofBytes [1] then .ok (Abi.word 32 ++ Abi.word 1 ++ Abi.word 1000)
      else .ok (Abi.word 19)
    | .blockNumber => .ok (0 : UInt64)

/-- A quote of a token with nineteen decimals panics, and not in the conversion of the amount. -/
theorem nineteen_decimals_panic :
    resultIn meterDeps meterWorld nineteenEnv (quoteSwap meterDeps ownerContext
      "native" "0x0000000000000000000000000000000000000003" "1") =
        .error (.panic "too much precision") ∧
    ¬ PanicsOnly (AmountPanics meterDeps meterWorld nineteenEnv "native" "1")
      (resultIn meterDeps meterWorld nineteenEnv
        (quoteSwap meterDeps ownerContext
          "native" "0x0000000000000000000000000000000000000003" "1")) := by
  have crashed : resultIn meterDeps meterWorld nineteenEnv
      (quoteSwap meterDeps ownerContext
        "native" "0x0000000000000000000000000000000000000003" "1") =
          .error (.panic "too much precision") := by decide +kernel
  have isIn : parseSwapToken "native" = .ok .native := by decide +kernel
  have isBase : humanToBaseUnits "1" 18 = .ok (10 ^ 18) := by decide +kernel
  refine ⟨crashed, fun only => ?_⟩
  exact not_amountPanics isIn rfl isBase (only _ crashed)

end SvpMcp
