import SvpMcp.Verif.LendoraRisk
import SvpMcp.Verif.Surroundings

/-!
# What the Lendora tools read

The operations the Lendora tools call, and what the risk engine returns while the contracts stand
still: the same result but for the block.
-/

namespace SvpMcp

open Handler Program

variable {α : Type} {totals totals' : RiskTotals} {entered : List Address} {query : LendoraQuery}
  {oracle : Address} {h : Handler α} {r : RiskResult}

/-- The account a read is about, if any. -/
def LendoraQuery.account : LendoraQuery → Option Address
  | .getAssetsIn account => some account
  | .getAccountLiquidity account => some account
  | .getHypotheticalAccountLiquidity account _ _ _ => some account
  | .getAccountSnapshot _ account => some account
  | _ => none

/-- The operations of the Lendora tools for an account. -/
structure AllowsLendora (allowed : ServerOp → Prop) (owner : Address) : Prop where
  plain : ∀ query : LendoraQuery, query.account = none → allowed (.lendora query)
  own : ∀ query : LendoraQuery, query.account = some owner → allowed (.lendora query)
  cache : allowed .lendoraCache

section Only

variable {allowed : ServerOp → Prop}

/-- A read calls its query. -/
@[simp] theorem lendoraRead_only_iff {method : String} {context : Option (String × List String)} :
    Only (α := no_index (LendoraAnswer query)) allowed (lendoraRead query method context) ↔
      allowed (.lendora query) := by
  simp [lendoraRead]

/-- An attempt calls what it attempts. -/
@[simp] theorem attempt_only_iff : Only allowed (attempt h) ↔ Only allowed h :=
  calls_bind.trans (and_iff_left fun _ _ => trivial)

section Plain

variable (plain : ∀ query : LendoraQuery, query.account = none → allowed (.lendora query))
include plain

/-- The decimals are read without an account. -/
theorem readDecimals_only (token : Address) : Only allowed (readDecimals token) := by
  simp [readDecimals, plain, LendoraQuery.account.eq_def]

/-- A market is loaded without an account. -/
theorem loadMarket_only (cToken cEther : Address) : Only allowed (loadMarket cToken cEther) := by
  simp [loadMarket, readSymbol, loadERC20Market, readDecimals_only plain, plain,
    LendoraQuery.account.eq_def]

/-- The native market is resolved without an account. -/
theorem resolveCEther_only (oracle : Address) : Only allowed (resolveCEther oracle) := by
  unfold resolveCEther
  split <;> simp [plain, LendoraQuery.account.eq_def]

/-- A feed is read without an account. -/
theorem underlyingUsdPrice_only (oracle cToken : Address) :
    Only allowed (underlyingUsdPrice oracle cToken) := by
  simp [underlyingUsdPrice, feedPrice, plain, LendoraQuery.account.eq_def]

/-- A position is valued without an account. -/
theorem addPosition_only (oracle : Address) (entered : List Address) (m : Market)
    (snap : SnapshotAnswer) (totals : RiskTotals) :
    Only allowed (addPosition oracle entered m snap totals) := by
  simp [addPosition, cTokenUnderlyingPriceNative, cTokenCollateralFactor, plain,
    LendoraQuery.account.eq_def, underlyingUsdPrice_only plain]

variable (cache : allowed .lendoraCache)
include cache

/-- The oracle is cached or read. -/
theorem lendoraOracle_only : Only allowed lendoraOracle := by
  simp [lendoraOracle, cache, plain, LendoraQuery.account.eq_def]

/-- A price is read from the oracle. -/
theorem cTokenUnderlyingPriceNativeVia_only (cToken : Address) :
    Only allowed (cTokenUnderlyingPriceNativeVia cToken) := by
  simp [cTokenUnderlyingPriceNativeVia, cTokenUnderlyingPriceNative,
    lendoraOracle_only plain cache, plain, LendoraQuery.account.eq_def]

/-- An asset is looked up in the cache, or loaded. -/
theorem resolveAsset_only (asset : String) : Only allowed (resolveAsset asset) := by
  have loads (cToken : Address) : Only allowed (loadUncached cToken) := by
    simp [loadUncached, cache, resolveCEther_only plain, loadMarket_only plain]
  unfold resolveAsset resolveUncached
  simp only [only_bind_iff, only_call_iff, cache, true_and]
  intro found _
  split
  · exact only_pure _
  · split
    · refine only_bind (loads _) fun loaded => ?_
      cases loaded <;> simp
    · exact only_fail _

/-- The native feed is read without an account. -/
theorem nativeLiquidityUSD_only (oracle : Address) (liquidity : Nat) :
    Only allowed (nativeLiquidityUSD oracle liquidity) := by
  simp only [nativeLiquidityUSD, only_bind_iff, only_call_iff, cache, only_ite_iff,
    underlyingUsdPrice_only plain, true_and]
  intro _ _
  refine ⟨fun _ => only_pure _, fun _ feed _ => ?_⟩
  split <;> simp

end Plain

variable {owner : Address}

/-- The markets entered are read for the account. -/
theorem lendoraAssetsInSet_only (allows : AllowsLendora allowed owner) :
    Only allowed (lendoraAssetsInSet owner) := by
  simp [lendoraAssetsInSet, allows.own, LendoraQuery.account.eq_def]

/-- The loop reads the account's snapshots. -/
theorem addMarkets_only (allows : AllowsLendora allowed owner) (oracle : Address)
    (entered : List Address) (markets : List Market) (totals : RiskTotals) :
    Only allowed (addMarkets oracle owner entered markets totals) := by
  induction markets generalizing totals with
  | nil => exact only_pure _
  | cons m rest ih =>
    simp [addMarkets, addMarket, ih, allows.own, LendoraQuery.account.eq_def,
      addPosition_only allows.plain]

/-- The risk engine reads the account it is asked about, and the block. -/
theorem computeRisk_only (allows : AllowsLendora allowed owner)
    (block : allowed (.evm homeClient .blockNumber)) : Only allowed (computeRisk owner) := by
  simp [computeRisk, evmBlockNumber, block, lendoraOracle_only allows.plain allows.cache,
    lendoraAssetsInSet_only allows, allows.own, allows.cache, LendoraQuery.account.eq_def,
    addMarkets_only allows, nativeLiquidityUSD_only allows.plain allows.cache]

end Only

variable {deps : Deps} {w : World} {env later : Env} {owner : Address}

/-- A read returns what the contracts answer. -/
@[simp]
theorem resultIn_lendoraRead {method : String} {context : Option (String × List String)}
    {answer : LendoraAnswer query} :
    resultIn (α := no_index (LendoraAnswer query)) deps w env (lendoraRead query method context) =
      .ok answer ↔
      env.lendora query = .ok answer := by
  simp [lendoraRead]
  rfl

/-- The operations that read a Lendora contract or the market cache. -/
def ReadsLendora : ServerOp → Prop
  | .lendora _ => True
  | .lendoraCache => True
  | _ => False

/-- These are the reads. -/
theorem readsLendora_allows (owner : Address) : AllowsLendora ReadsLendora owner :=
  ⟨fun _ _ => trivial, fun _ _ => trivial, trivial⟩

/-- A handler that reads nothing else returns the same while the contracts stand still. -/
theorem resultIn_still (same : later.lendora = env.lendora) (reads : Only ReadsLendora h) :
    resultIn deps w later h = resultIn deps w env h := by
  apply resultIn_congr
  refine calls_mono ?_ reads
  intro op isRead
  cases op with
  | lendora query => exact congrFun same query
  | lendoraCache => rfl
  | _ => exact isRead.elim

/-- The risk engine returns the same but for the block. -/
theorem computeRisk_still (same : later.lendora = env.lendora)
    (isRisk : resultIn deps w env (computeRisk owner) = .ok r) :
    ∃ block, resultIn deps w later (computeRisk owner) =
      .ok { r with blockNumber := block } := by
  simp only [computeRisk, resultIn_bind] at isRisk
  obtain ⟨_, _, oracle, isOracle, answer, isAnswer, margin, isMargin, entered, isEntered, cache,
    isCache, totals, isTotals, healthFactor, isFactor, maxBorrowable, isMax, isRisk⟩ := isRisk
  cases isRisk
  have allows := readsLendora_allows owner
  rw [← resultIn_still same (lendoraOracle_only allows.plain allows.cache)] at isOracle
  rw [← resultIn_still same (lendoraRead_only_iff.mpr (allows.own _ rfl))] at isAnswer
  rw [← resultIn_still same (lendoraAssetsInSet_only allows)] at isEntered
  rw [← resultIn_still same (only_call allows.cache)] at isCache
  rw [← resultIn_still same (addMarkets_only allows _ _ _ _)] at isTotals
  rw [← resultIn_still same (nativeLiquidityUSD_only allows.plain allows.cache _ _)] at isMax
  rw [← resultIn_still same (only_ofResult _)] at isMargin
  rw [← resultIn_still same (only_ofCall _)] at isFactor
  obtain ⟨block, isBlock⟩ : ∃ block, resultIn deps w later evmBlockNumber = .ok block := ⟨_, rfl⟩
  simp only [computeRisk, resultIn_bind]
  exact ⟨block, block, isBlock, oracle, isOracle, answer, isAnswer, margin, isMargin, entered,
    isEntered, cache, isCache, totals, isTotals, healthFactor, isFactor, maxBorrowable, isMax, rfl⟩

/-- A position's debt is the one the market reports. -/
def Reported (env : Env) (owner : Address) (pos : MarketPosition) : Prop :=
  ∃ snap : SnapshotAnswer, env.lendora (.getAccountSnapshot pos.cToken owner) = .ok snap ∧
    pos.borrowedUnderlying = snap.borrowBalance

/-- A position added is reported. -/
theorem addValued_reported {pos : MarketPosition} {feed : Option (Int × Int)}
    (added : addValued totals pos feed = .ok totals')
    (reported : ∀ old ∈ totals.positions, Reported env owner old) (here : Reported env owner pos) :
    ∀ new ∈ totals'.positions, Reported env owner new := by
  obtain ⟨_, _, _, _, isAdded⟩ := addValued_ok added
  intro new member
  rw [isAdded] at member
  rcases List.mem_append.mp member with old | last
  · exact reported new old
  · rw [List.mem_singleton.mp last]
    exact here

/-- One turn of the loop adds a position the market reports. -/
theorem addMarket_reported {m : Market}
    (added : resultIn deps w env (addMarket oracle owner entered m totals) = .ok totals')
    (reported : ∀ pos ∈ totals.positions, Reported env owner pos) :
    ∀ pos ∈ totals'.positions, Reported env owner pos := by
  simp [addMarket, accountSnapshot] at added
  obtain ⟨answer, answered, _, added⟩ := added
  split at added
  · cases added
    exact reported
  · simp [addPosition] at added
    obtain ⟨_, _, _, _, _, _, added⟩ := added
    exact addValued_reported added reported ⟨answer, answered, rfl⟩

/-- So are those of the loop. -/
theorem addMarkets_reported {markets : List Market}
    (added : resultIn deps w env (addMarkets oracle owner entered markets totals) = .ok totals')
    (reported : ∀ pos ∈ totals.positions, Reported env owner pos) :
    ∀ pos ∈ totals'.positions, Reported env owner pos := by
  induction markets generalizing totals with
  | nil =>
    cases added
    exact reported
  | cons m rest ih =>
    obtain ⟨next, first, added⟩ := resultIn_bind.mp added
    exact ih added (addMarket_reported first reported)

/-- The debts of the engine's positions are those the markets report. -/
theorem computeRisk_reported (isRisk : resultIn deps w env (computeRisk owner) = .ok r) :
    ∀ pos ∈ r.positions, Reported env owner pos := by
  simp only [computeRisk, resultIn_bind] at isRisk
  obtain ⟨_, _, _, _, _, _, _, _, _, _, _, _, totals, isTotals, _, _, _, _, isRisk⟩ := isRisk
  cases isRisk
  exact addMarkets_reported isTotals fun pos member => absurd member List.not_mem_nil

end SvpMcp
