import SvpMcp.Spec.Comptroller
import SvpMcp.Verif.EvmMetering

/-!
# How exact the risk engine is

The debt the engine sums over the cached markets against the debt the Comptroller sums over the
entered ones: exact when no market with a debt is missing from the cache.
-/

namespace SvpMcp

open Handler Program

variable {α : Type} {symbolOf : Address → Except ReadFault String}
  {context : Option (String × List String)} {result : Except Fault α} {cached : List Address}
  {query : LendoraQuery} {h : Handler α} {cache : LendoraCache} {method : String} {deps : Deps}
  {w w' : World} {events : Events} {c : LendoraChain}
  {holds : Event World Env ServerOp Reply → Prop}

/-- A run whose reads are answered from one state. -/
def Reads (c : LendoraChain) (events : Events) : Prop :=
  ∀ e ∈ events, Consistent c e.env

/-- A call that is answered from one state. -/
@[simp]
def Sees (c : LendoraChain) (e : Event World Env ServerOp Reply) : Prop :=
  Consistent c e.env

/-- A run that returns and whose reads are answered from one state. -/
theorem reads_gives {value : α} (run : Alone deps w h events w' (.ok value))
    (reads : Reads c events) : Gives deps (Sees c) w h w' value :=
  ⟨events, run, reads⟩

/-- No handler changes the market cache. -/
theorem alone_lendora (run : Alone deps w h events w' result) : w'.lendora = w.lendora := by
  induction run with
  | done => rfl
  | call w env op next rest ih =>
    rw [ih]
    cases op <;> rfl

/-- A handler that returns has left the market cache. -/
theorem gives_lendora {value : α} (run : Gives deps holds w h w' value) :
    w'.lendora = w.lendora := by
  obtain ⟨_, run, _⟩ := run
  exact alone_lendora run

/-- A read returns what the contracts answer. -/
@[simp]
theorem gives_lendoraRead {value : LendoraAnswer query} :
    Gives (α := no_index (LendoraAnswer query)) deps holds w (lendoraRead query method context) w'
      value ↔ w = w' ∧
        ∃ env, holds ⟨w, env, .lendora query, .ok value⟩ ∧ env.lendora query = .ok value := by
  simp only [lendoraRead, completes_bind, gives_ofResult, mapError_eq_ok]
  constructor
  · rintro ⟨_, _, asked, rfl, rfl⟩
    obtain ⟨env, here, performed⟩ := gives_call.mp asked
    exact ⟨congrArg Prod.snd performed, env, here, congrArg Prod.fst performed⟩
  · rintro ⟨rfl, env, here, answered⟩
    exact ⟨_, _, gives_call.mpr ⟨env, here, Prod.ext answered rfl⟩, rfl, rfl⟩

/-- The cache is read as it is. -/
@[simp]
theorem gives_lendoraCache :
    Gives (α := no_index (Reply .lendoraCache)) deps holds w (call .lendoraCache) w' cache ↔
      w = w' ∧ w.lendora = cache ∧ ∃ env, holds ⟨w, env, .lendoraCache, cache⟩ := by
  constructor
  · intro asked
    obtain ⟨env, here, performed⟩ := gives_call.mp asked
    exact ⟨congrArg Prod.snd performed, congrArg Prod.fst performed, env, here⟩
  · rintro ⟨rfl, rfl, env, here⟩
    exact gives_call.mpr ⟨env, here, rfl⟩

/-- A node that answers from a state, with the symbols of its tokens. -/
def chainEnv (c : LendoraChain) (symbolOf : Address → Except ReadFault String) : Env where
  __ := meterEnv
  lendora
    | .oracle => .ok c.oracle
    | .getAllMarkets => .ok c.listed
    | .markets m => .ok (c.collateralFactor m)
    | .getAssetsIn account => .ok (c.entered account)
    | .getAccountLiquidity account => .ok (c.accountLiquidity account)
    | .getHypotheticalAccountLiquidity account m redeemTokens borrowAmount =>
      .ok (c.hypotheticalLiquidity account m redeemTokens borrowAmount)
    | .getAccountSnapshot m account =>
      .ok ⟨0, c.cTokens account m, c.borrow account m, c.exchangeRate m⟩
    | .underlying m => .ok m
    | .symbol token => symbolOf token
    | .decimals _ => .ok (18 : Nat)
    | .getUnderlyingPrice oracle m => .ok (c.prices oracle m)
    | .cTokenToFeed _ _ => .ok Address.zero
    | .cEtherAddress _ => .ok Address.zero
    | .latestRoundData _ => .ok (0 : Int)

/-- It answers from the chain. -/
theorem chainEnv_consistent (c : LendoraChain) (symbolOf : Address → Except ReadFault String) :
    Consistent c (chainEnv c symbolOf) where
  oracle := rfl
  getAllMarkets := rfl
  markets _ := rfl
  getAssetsIn _ := rfl
  getAccountLiquidity _ := rfl
  getHypotheticalAccountLiquidity _ _ _ _ := rfl
  getAccountSnapshot _ _ := rfl
  getUnderlyingPrice _ _ := rfl

section Answers

variable {m account : Address}

/-- What a state answers is the one answer a node that agrees with it gives. -/
theorem answer_iff {value expected : LendoraAnswer query}
    (state : ∀ env, Consistent c env → env.lendora query = .ok expected) :
    (∃ env, Consistent c env ∧ env.lendora query = .ok value) ↔ value = expected := by
  constructor
  · rintro ⟨env, consistent, answered⟩
    exact Except.ok.inj (answered.symm.trans (state env consistent))
  · rintro rfl
    have consistent := chainEnv_consistent c fun _ => .ok ""
    exact ⟨_, consistent, state _ consistent⟩

/-- Every state has a node that agrees with it. -/
@[simp]
theorem exists_consistent : ∃ env, Consistent c env :=
  ⟨_, chainEnv_consistent c fun _ => .ok ""⟩

/-- The oracle that is read is the Comptroller's. -/
@[simp]
theorem answer_oracle {value : LendoraAnswer .oracle} :
    (∃ env, Consistent c env ∧ env.lendora .oracle = .ok value) ↔ value = c.oracle :=
  answer_iff fun _ => Consistent.oracle

/-- The markets that are read are the listed ones. -/
@[simp]
theorem answer_getAllMarkets {value : LendoraAnswer .getAllMarkets} :
    (∃ env, Consistent c env ∧ env.lendora .getAllMarkets = .ok value) ↔ value = c.listed :=
  answer_iff fun _ => Consistent.getAllMarkets

/-- The collateral factor that is read is the market's. -/
@[simp]
theorem answer_markets {value : LendoraAnswer (.markets m)} :
    (∃ env, Consistent c env ∧ env.lendora (.markets m) = .ok value) ↔
      value = c.collateralFactor m :=
  answer_iff fun _ consistent => consistent.markets _

/-- The markets that are read for an account are those it entered. -/
@[simp]
theorem answer_getAssetsIn {value : LendoraAnswer (.getAssetsIn account)} :
    (∃ env, Consistent c env ∧ env.lendora (.getAssetsIn account) = .ok value) ↔
      value = c.entered account :=
  answer_iff fun _ consistent => consistent.getAssetsIn _

/-- The liquidity that is read is the account's. -/
@[simp]
theorem answer_getAccountLiquidity {value : LendoraAnswer (.getAccountLiquidity account)} :
    (∃ env, Consistent c env ∧ env.lendora (.getAccountLiquidity account) = .ok value) ↔
      value = c.accountLiquidity account :=
  answer_iff fun _ consistent => consistent.getAccountLiquidity _

/-- The hypothetical liquidity that is read is the account's. -/
@[simp]
theorem answer_getHypothetical {tokens amount : Int}
    {value : LendoraAnswer (.getHypotheticalAccountLiquidity account m tokens amount)} :
    (∃ env, Consistent c env ∧
      env.lendora (.getHypotheticalAccountLiquidity account m tokens amount) = .ok value) ↔
      value = c.hypotheticalLiquidity account m tokens amount :=
  answer_iff fun _ consistent => consistent.getHypotheticalAccountLiquidity _ _ _ _

/-- The snapshot that is read is the account's. -/
@[simp]
theorem answer_getAccountSnapshot {value : LendoraAnswer (.getAccountSnapshot m account)} :
    (∃ env, Consistent c env ∧ env.lendora (.getAccountSnapshot m account) = .ok value) ↔
      value = ⟨0, c.cTokens account m, c.borrow account m, c.exchangeRate m⟩ :=
  answer_iff fun _ consistent => consistent.getAccountSnapshot _ _

/-- The price that is read is the oracle's. -/
@[simp]
theorem answer_getUnderlyingPrice {oracle : Address}
    {value : LendoraAnswer (.getUnderlyingPrice oracle m)} :
    (∃ env, Consistent c env ∧ env.lendora (.getUnderlyingPrice oracle m) = .ok value) ↔
      value = c.prices oracle m :=
  answer_iff fun _ consistent => consistent.getUnderlyingPrice _ _

end Answers

/-- The markets of a cache. -/
def LendoraCache.cTokens (cache : LendoraCache) : List Address :=
  cache.ordered.map (·.cToken)

/-- A position is added as it is, but for its value in USD, and the summed debt stays. -/
theorem addValued_ok {totals totals' : RiskTotals} {pos : MarketPosition}
    {feed : Option (Int × Int)} (added : addValued totals pos feed = .ok totals') :
    totals'.sumBorrow = totals.sumBorrow ∧ ∃ suppliedUSD borrowedUSD feedOK,
      totals'.positions = totals.positions ++ [{ pos with suppliedUSD, borrowedUSD, feedOK }] := by
  cases feed with
  | none =>
    cases added
    exact ⟨rfl, _, _, _, rfl⟩
  | some price =>
    simp [addValued] at added
    obtain ⟨_, _, _, _, _, _, _, _, rfl⟩ := added
    exact ⟨rfl, _, _, _, rfl⟩

section Sum

variable {oracle owner : Address} {entered : List Address} {m : Market}
  {totals totals' : RiskTotals}

/-- One turn: a market without a position is passed over, any other is added. -/
theorem addMarket_turn
    (run : Gives deps (Sees c) w (addMarket oracle owner entered m totals) w' totals') :
    (c.cTokens owner m.cToken = 0 ∧ c.borrow owner m.cToken = 0 ∧ totals' = totals) ∨
      ¬ (c.cTokens owner m.cToken = 0 ∧ c.borrow owner m.cToken = 0) ∧
      Gives deps (Sees c) w (addPosition oracle entered m ⟨0, c.cTokens owner m.cToken,
        c.borrow owner m.cToken, c.exchangeRate m.cToken⟩ totals) w' totals' := by
  simp [addMarket, accountSnapshot] at run
  obtain ⟨_, run⟩ := run
  split at run
  · next empty => exact .inl ⟨empty.1, empty.2, (completes_pure.mp run).2.symm⟩
  · next held => exact .inr ⟨held, run⟩

/-- A position adds its debt at the oracle's price. -/
theorem addPosition_sumBorrow {snap : SnapshotAnswer}
    (owed : snap.borrowBalance = c.borrow owner m.cToken)
    (run : Gives deps (Sees c) w (addPosition oracle entered m snap totals) w' totals') :
    totals'.sumBorrow = totals.sumBorrow + c.debtBy oracle owner m.cToken := by
  simp [addPosition, cTokenUnderlyingPriceNative, cTokenCollateralFactor] at run
  obtain ⟨_, _, added⟩ := run
  rw [(addValued_ok added).1, owed]
  by_cases owes : 0 < c.borrow owner m.cToken
  · simp only [if_pos owes]
    rfl
  · have none : c.borrow owner m.cToken = 0 := by omega
    rw [if_neg owes, LendoraChain.debtBy, none, Nat.mul_zero, Nat.zero_div, Nat.add_zero]

/-- A turn adds the debt in its market. -/
theorem addMarket_sumBorrow
    (run : Gives deps (Sees c) w (addMarket oracle owner entered m totals) w' totals') :
    totals'.sumBorrow = totals.sumBorrow + c.debtBy oracle owner m.cToken := by
  rcases addMarket_turn run with ⟨_, none, rfl⟩ | ⟨_, added⟩
  · rw [LendoraChain.debtBy, none, Nat.mul_zero, Nat.zero_div, Nat.add_zero]
  · exact addPosition_sumBorrow rfl added

/-- The loop adds the debt in every cached market. -/
theorem addMarkets_sumBorrow {markets : List Market}
    (run : Gives deps (Sees c) w (addMarkets oracle owner entered markets totals) w' totals') :
    (totals'.sumBorrow : Int) = totals.sumBorrow +
      sumOver (fun m => (c.debtBy oracle owner m : Int)) (markets.map (·.cToken)) := by
  -- The induction follows the loop; the totals so far are its accumulator.
  induction markets generalizing w totals with
  | nil =>
    simp [addMarkets] at run
    simp [sumOver, run]
  | cons m rest ih =>
    simp [addMarkets] at run
    obtain ⟨_, next, first, run⟩ := run
    have here := addMarket_sumBorrow first
    have tail := ih run
    rw [List.map_cons, sumOver]
    omega

end Sum

section Result

variable {owner : Address} {r : RiskResult}

/-- The liquidity and the shortfall are taken as they are answered. -/
theorem accountLiquidity_ok {answer : LiquidityAnswer} {liquidity shortfall : Nat}
    (read : accountLiquidity method answer = .ok (liquidity, shortfall)) :
    liquidity = answer.liquidity ∧ shortfall = answer.shortfall := by
  simp [accountLiquidity] at read
  exact ⟨read.2.1.symm, read.2.2.symm⟩

/-- The oracle whose prices the tools use: the cached one, once a refresh has succeeded. -/
def LendoraCache.oracleOn (cache : LendoraCache) (c : LendoraChain) : Address :=
  if cache.oracleSet then cache.oracle else c.oracle

/-- The oracle the tools ask is the cached one, once there is one. -/
@[simp]
theorem gives_lendoraOracle {oracle : Address} :
    Gives deps (Sees c) w lendoraOracle w' oracle ↔ w = w' ∧ oracle = w.lendora.oracleOn c := by
  unfold LendoraCache.oracleOn
  cases isSet : w.lendora.oracleSet with
  | true =>
    simp [lendoraOracle, isSet]
    exact fun _ => eq_comm
  | false => simp [lendoraOracle, isSet]

/-- What the engine computes: the debt of the cached markets, the Comptroller's margin and the
collateral that follows. -/
theorem computeRisk_ok (run : Gives deps (Sees c) w (computeRisk owner) w' r) :
    (r.sumBorrowNat : Int) = sumOver
        (fun m => (c.debtBy (w.lendora.oracleOn c) owner m : Int)) w.lendora.cTokens ∧
      r.sumCollateralNat = c.sumCollateral owner - c.sumBorrow owner + r.sumBorrowNat ∧
      r.hasDebt = decide (0 < r.sumBorrowNat) ∧
      r.shortfallNat = (c.accountLiquidity owner).shortfall ∧
      ∃ hf, r.riskLevel = riskBand r.hasDebt r.shortfallNat hf := by
  simp [computeRisk, lendoraAssetsInSet, evmBlockNumber] at run
  obtain ⟨mid, _, block, liquidity, shortfall, checked, _, totals, looped, hf, _, _, _, rfl⟩ := run
  have sameCache : mid.lendora = w.lendora := gives_lendora block
  rw [sameCache] at looped
  have summed := addMarkets_sumBorrow looped
  obtain ⟨rfl, rfl⟩ := accountLiquidity_ok checked
  refine ⟨?_, ?_, rfl, rfl, hf, rfl⟩
  · rw [summed]
    exact Int.zero_add _
  · simp only [LendoraChain.accountLiquidity, LendoraChain.marginAnswer]
    omega

end Result

/-- An attempt that succeeds is a run that returns. -/
@[simp]
theorem gives_attempt {value : α} :
    Gives deps holds w (attempt h) w' (.ok value) ↔ Gives deps holds w h w' value := by
  constructor
  · rintro ⟨events, run, all⟩
    obtain ⟨first, _, _, _, rfl, head, last⟩ := exec_bind run
    cases last
    exact ⟨first, head, fun e member => all e (List.mem_append_left _ member)⟩
  · rintro ⟨events, run, all⟩
    refine ⟨events ++ [], exec_then run (.done _ _), ?_⟩
    rwa [List.append_nil]

/-- A market that is loaded is the one that was asked for. -/
theorem loadMarket_cToken {cToken cEther : Address} {m : Market}
    (run : Gives deps holds w (loadMarket cToken cEther) w' m) : m.cToken = cToken := by
  simp [loadMarket] at run
  obtain ⟨_, _, _, _, _, _, run⟩ := run
  split at run
  · simp at run
    rw [← run.2]
  · simp [loadERC20Market] at run
    obtain ⟨_, _, _, _, _, _, _, _, rfl⟩ := run
    rfl

/-- A market is added at the end. -/
theorem cTokens_add (cache : LendoraCache) (m : Market) :
    (cache.add m).cTokens = cache.cTokens ++ [m.cToken] := by
  simp [LendoraCache.cTokens, LendoraCache.add]

/-- A refresh keeps the listed markets it can read, in their order. -/
theorem loadMarkets_ok {cEther : Address} {cTokens : List Address} {cache cache' : LendoraCache}
    (run : Gives deps holds w (loadMarkets cEther cTokens cache) w' cache') :
    (∃ loaded, loaded.Sublist cTokens ∧ cache'.cTokens = cache.cTokens ++ loaded) ∧
      cache'.oracle = cache.oracle ∧ cache'.oracleSet = cache.oracleSet := by
  induction cTokens generalizing w cache with
  | nil =>
    simp [loadMarkets] at run
    obtain ⟨_, rfl⟩ := run
    exact ⟨⟨[], .slnil, (List.append_nil _).symm⟩, rfl, rfl⟩
  | cons cToken rest ih =>
    simp [loadMarkets] at run
    obtain ⟨_, loaded, tried, run⟩ := run
    cases loaded with
    | error fault =>
      obtain ⟨⟨kept, sublist, isKept⟩, same⟩ := ih run
      exact ⟨⟨kept, sublist.cons cToken, isKept⟩, same⟩
    | ok m =>
      obtain ⟨⟨kept, sublist, isKept⟩, same⟩ := ih run
      have isLoaded : m.cToken = cToken := loadMarket_cToken (gives_attempt.mp tried)
      refine ⟨⟨cToken :: kept, sublist.cons_cons cToken, ?_⟩, same⟩
      rw [isKept, cTokens_add, isLoaded, List.append_assoc, List.singleton_append]

/-- A refresh keeps listed markets and the Comptroller's oracle. -/
theorem refresh_ok (run : Gives deps (Sees c) w refresh w' cache) :
    cache.cTokens.Sublist c.listed ∧ cache.oracle = c.oracle ∧ cache.oracleSet = true := by
  simp [refresh] at run
  obtain ⟨_, _, _, run⟩ := run
  obtain ⟨⟨loaded, sublist, isLoaded⟩, sameOracle, isSet⟩ := loadMarkets_ok run
  rw [isLoaded, sameOracle]
  exact ⟨sublist, rfl, isSet⟩

/-- A refresh leaves no market twice. -/
theorem refresh_nodup (run : Gives deps (Sees c) w refresh w' cache) : cache.cTokens.Nodup :=
  c.listed_nodup.sublist (refresh_ok run).1

/-- The engine's result agrees with the Comptroller's sums. -/
structure Exact (c : LendoraChain) (owner : Address) (r : RiskResult) : Prop where
  sumBorrow : (r.sumBorrowNat : Int) = c.sumBorrow owner
  sumCollateral : r.sumCollateralNat = c.sumCollateral owner
  hasDebt : r.hasDebt = true ↔ 0 < c.sumBorrow owner
  critical : r.riskLevel = .critical ↔ 0 < (c.accountLiquidity owner).shortfall

/-- Critical is a shortfall. -/
theorem riskBand_critical {hasDebt : Bool} {shortfall : Nat} {hf : LegacyDec} :
    riskBand hasDebt shortfall hf = .critical ↔ hasDebt = true ∧ 0 < shortfall := by
  unfold riskBand
  cases hasDebt with
  | false => simp
  | true =>
    by_cases short : 0 < shortfall
    · simp [short]
    · simp only [Bool.true_eq_false, if_false, if_neg short]
      constructor
      · intro isCritical
        split at isCritical
        · cases isCritical
        · split at isCritical <;> cases isCritical
      · intro both
        exact absurd both.2 short

/-- The debt of an account in the entered markets that are not in the cache. -/
def LendoraChain.missing (c : LendoraChain) (owner : Address) (cached : List Address) : Int :=
  sumOver (fun m => (c.debt owner m : Int)) ((c.entered owner).filter fun m => m ∉ cached)

/-- What the prices of an oracle overstate of the debt in the cached markets. -/
def LendoraChain.overstated (c : LendoraChain) (oracle owner : Address) (cached : List Address) :
    Int :=
  sumOver (fun m => (c.debtBy oracle owner m : Int) - c.debt owner m) cached

/-- The chain's oracle overstates nothing. -/
theorem overstated_current (c : LendoraChain) (owner : Address) (cached : List Address) :
    c.overstated c.oracle owner cached = 0 :=
  sumOver_eq_zero fun _ _ => Int.sub_self _

/-- No debt is missing. -/
theorem missing_eq_zero {owner : Address} :
    c.missing owner cached = 0 ↔ ∀ m ∈ c.entered owner, m ∉ cached → c.debt owner m = 0 := by
  rw [LendoraChain.missing, sumOver_eq_zero_iff fun m => Int.natCast_nonneg _]
  simp only [List.mem_filter, decide_eq_true_eq, Int.natCast_eq_zero, and_imp]

/-- The debt in the cached markets is the Comptroller's, up to the prices used and the markets
that are missing. -/
theorem sumBorrow_split {oracle owner : Address} (nodup : cached.Nodup)
    (borrows : c.BorrowsEntered owner) :
    sumOver (fun m => (c.debtBy oracle owner m : Int)) cached =
      c.sumBorrow owner + c.overstated oracle owner cached - c.missing owner cached := by
  have restricted : c.sumBorrow owner =
      sumOver (fun m => (c.debt owner m : Int)) cached + c.missing owner cached := by
    apply sumOver_restrict nodup (c.entered_nodup owner)
    intro m _ notEntered
    have none : c.borrow owner m = 0 := by
      have notBorrowed := mt (borrows m) notEntered
      omega
    rw [LendoraChain.debt, LendoraChain.debtBy, none, Nat.mul_zero, Nat.zero_div]
    rfl
  have priced : sumOver (fun m => (c.debtBy oracle owner m : Int)) cached =
      sumOver (fun m => (c.debt owner m : Int)) cached + c.overstated oracle owner cached := by
    rw [LendoraChain.overstated, sumOver_sub]
    omega
  omega

/-- The engine is exact as soon as its debt is. -/
theorem exact_iff {owner : Address} {r : RiskResult}
    (run : Gives deps (Sees c) w (computeRisk owner) w' r) :
    Exact c owner r ↔ (r.sumBorrowNat : Int) = c.sumBorrow owner := by
  obtain ⟨_, collateral, hasDebt, shortfall, hf, level⟩ := computeRisk_ok run
  refine ⟨Exact.sumBorrow, fun same => ?_⟩
  have debtIff : r.hasDebt = true ↔ 0 < c.sumBorrow owner := by
    rw [hasDebt, decide_eq_true_eq]
    omega
  refine ⟨same, by omega, debtIff, ?_⟩
  rw [level, riskBand_critical, shortfall]
  constructor
  · exact fun both => both.2
  · intro short
    -- A shortfall is a debt above a collateral that is not negative.
    have nonneg : 0 ≤ c.sumCollateral owner :=
      sumOver_nonneg (fun m => Int.natCast_nonneg _) _
    have owes : 0 < c.sumBorrow owner := by
      simp only [LendoraChain.accountLiquidity, LendoraChain.marginAnswer] at short
      omega
    exact ⟨debtIff.mpr owes, short⟩

/-- The risk engine is exact if and only if what the cached oracle overstates is what is owed in
the entered markets that are missing from the cache. With the Comptroller's oracle in the cache
that is to say that nothing is owed in a missing market. -/
theorem computeRisk_exact_iff {deps : Deps} {earlier c : LendoraChain} {owner : Address}
    {w₀ w₀' w w' : World} {refreshEvents events : Events}
    {cache : LendoraCache} {r : RiskResult}
    (refreshed : Alone deps w₀ refresh refreshEvents w₀' (.ok cache))
    (readsEarlier : Reads earlier refreshEvents) (cached : w.lendora = cache)
    (run : Alone deps w (computeRisk owner) events w' (.ok r)) (reads : Reads c events)
    (borrows : c.BorrowsEntered owner) :
    (Exact c owner r ↔
      c.overstated cache.oracle owner cache.cTokens = c.missing owner cache.cTokens) ∧
    (cache.oracle = c.oracle →
      (Exact c owner r ↔ ∀ m ∈ c.entered owner, m ∉ cache.cTokens → c.debt owner m = 0)) := by
  have refreshes := reads_gives refreshed readsEarlier
  have analysed := reads_gives run reads
  have isSet := (refresh_ok refreshes).2.2
  have summed := (computeRisk_ok analysed).1
  rw [cached, LendoraCache.oracleOn, if_pos isSet,
    sumBorrow_split (refresh_nodup refreshes) borrows] at summed
  have general : Exact c owner r ↔
      c.overstated cache.oracle owner cache.cTokens = c.missing owner cache.cTokens := by
    rw [exact_iff analysed]
    omega
  refine ⟨general, fun current => ?_⟩
  rw [general, current, overstated_current, eq_comm, missing_eq_zero]

/-- A handler's run against a node that answers from a state. -/
def runOn (deps : Deps) (c : LendoraChain) (symbolOf : Address → Except ReadFault String)
    (w : World) (h : Handler α) :
    Events × World × Except Fault α :=
  runAlone (server deps) (fun _ => chainEnv c symbolOf) 0 w h

/-- The run has no other request in between. -/
theorem runOn_alone (deps : Deps) (c : LendoraChain)
    (symbolOf : Address → Except ReadFault String) (w : World) (h : Handler α) :
    Alone deps w h (runOn deps c symbolOf w h).1 (runOn deps c symbolOf w h).2.1
      (runOn deps c symbolOf w h).2.2 :=
  exec_runAlone (fun _ => chainEnv c symbolOf) 0 w h

/-- It reads the chain. -/
theorem runOn_reads (deps : Deps) (c : LendoraChain)
    (symbolOf : Address → Except ReadFault String) (w : World) (h : Handler α) :
    Reads c (runOn deps c symbolOf w h).1 := by
  intro e member
  rw [runAlone_env (chainEnv c symbolOf) 0 w h e member]
  exact chainEnv_consistent c symbolOf

/-- Two markets: every account has a collateral of 50 in the first and owes 80 in the second. -/
def twoMarkets : LendoraChain where
  oracle := .ofBytes [10]
  listed := [.ofBytes [1], .ofBytes [2]]
  exchangeRate _ := e18
  prices _ _ := e18
  collateralFactor _ := 500000000000000000
  cTokens _ m := if m = .ofBytes [1] then 100 else 0
  borrow _ m := if m = .ofBytes [2] then 80 else 0
  entered _ := [.ofBytes [1], .ofBytes [2]]
  listed_nodup := by decide
  entered_nodup _ := by decide
  entered_listed _ _ member := member

/-- The debt is in a market entered. -/
theorem twoMarkets_borrowsEntered (owner : Address) : twoMarkets.BorrowsEntered owner := by
  intro m owes
  have isSecond : m = .ofBytes [2] := by
    by_contra other
    have none : twoMarkets.borrow owner m = 0 := if_neg other
    omega
  rw [isSecond]
  exact List.mem_cons_of_mem _ List.mem_cons_self

/-- The symbols of the two tokens. -/
def twoSymbols (token : Address) : Except ReadFault String :=
  .ok (if token = .ofBytes [1] then "USDC" else "USDT")

/-- The second token has no symbol. -/
def firstSymbol (token : Address) : Except ReadFault String :=
  if token = .ofBytes [2] then .error (.call "execution reverted") else .ok "USDC"

/-- The cache of a run, if it returned one. -/
def cacheOf : Except Fault LendoraCache → LendoraCache
  | .ok cache => cache
  | .error _ => .empty

/-- The refresh under such symbols. -/
def refreshRun (symbolOf : Address → Except ReadFault String) :
    Events × World × Except Fault LendoraCache :=
  runOn meterDeps twoMarkets symbolOf meterWorld refresh

/-- The server after the refresh. -/
def refreshedWorld (symbolOf : Address → Except ReadFault String) : World :=
  { meterWorld with lendora := cacheOf (refreshRun symbolOf).2.2 }

/-- The analysis after the refresh. -/
def riskRun (symbolOf : Address → Except ReadFault String) :
    Events × World × Except Fault RiskResult :=
  runOn meterDeps twoMarkets symbolOf (refreshedWorld symbolOf) (computeRisk (.ofBytes [9]))

/-- The refresh is a run. -/
theorem refreshRun_ok (isOk : (refreshRun symbolOf).2.2.isOk = true) :
    Alone meterDeps meterWorld refresh (refreshRun symbolOf).1 (refreshRun symbolOf).2.1
      (.ok (cacheOf (refreshRun symbolOf).2.2)) := by
  obtain ⟨cache, isCache⟩ := exists_of_isOk isOk
  have run := runOn_alone meterDeps twoMarkets symbolOf meterWorld refresh
  rw [← refreshRun, isCache] at run
  rw [isCache]
  exact run

/-- So is the analysis. -/
theorem riskRun_ok {r : RiskResult} (isRisk : (riskRun symbolOf).2.2 = .ok r) :
    Alone meterDeps (refreshedWorld symbolOf) (computeRisk (.ofBytes [9])) (riskRun symbolOf).1
      (riskRun symbolOf).2.1 (.ok r) := by
  have run := runOn_alone meterDeps twoMarkets symbolOf (refreshedWorld symbolOf)
    (computeRisk (.ofBytes [9]))
  rw [← riskRun, isRisk] at run
  exact run

/-- With both symbols the analysis is exact. -/
theorem computeRisk_exact_twoMarkets :
    ∃ r, (riskRun fun _ => .ok "USDC").2.2 = .ok r ∧ Exact twoMarkets (.ofBytes [9]) r := by
  obtain ⟨r, isRisk⟩ := exists_of_isOk
    (show (riskRun fun _ => .ok "USDC").2.2.isOk = true by decide +kernel)
  have refreshes : (refreshRun fun _ => .ok "USDC").2.2.isOk = true := by decide +kernel
  have exactly := computeRisk_exact_iff (refreshRun_ok refreshes)
    (runOn_reads meterDeps twoMarkets _ meterWorld refresh) rfl (riskRun_ok isRisk)
    (runOn_reads meterDeps twoMarkets _ _ _) (twoMarkets_borrowsEntered _)
  have both : ∀ m ∈ twoMarkets.entered (.ofBytes [9]),
      m ∈ (cacheOf (refreshRun fun _ => .ok "USDC").2.2).cTokens := by
    decide +kernel
  exact ⟨r, isRisk, (exactly.2 (by decide +kernel)).mpr fun m isEntered absent =>
    absurd (both m isEntered) absent⟩

/-- The debt of an analysis, if it returned one. -/
def debtOf : Except Fault RiskResult → Option Nat
  | .ok r => some r.sumBorrowNat
  | .error _ => none

/-- The analysis is not exact: a market whose symbol cannot be read is left out, and with it the
whole debt of an account that is under water. -/
theorem computeRisk_not_exact :
    ¬ ∀ (deps : Deps) (earlier c : LendoraChain) (owner : Address) (w₀ w₀' w w' : World)
      (refreshEvents events : Events) (cache : LendoraCache)
      (r : RiskResult),
      Alone deps w₀ refresh refreshEvents w₀' (.ok cache) → Reads earlier refreshEvents →
      w.lendora = cache → Alone deps w (computeRisk owner) events w' (.ok r) → Reads c events →
      c.BorrowsEntered owner → Exact c owner r := by
  intro all
  obtain ⟨r, isRisk⟩ := exists_of_isOk
    (show (riskRun firstSymbol).2.2.isOk = true by decide +kernel)
  have refreshes : (refreshRun firstSymbol).2.2.isOk = true := by decide +kernel
  have claimed := all meterDeps twoMarkets twoMarkets (.ofBytes [9]) _ _ _ _ _ _ _ r
    (refreshRun_ok refreshes)
    (runOn_reads meterDeps twoMarkets _ meterWorld refresh) rfl (riskRun_ok isRisk)
    (runOn_reads meterDeps twoMarkets _ _ _) (twoMarkets_borrowsEntered _)
  have owes : twoMarkets.sumBorrow (.ofBytes [9]) = 80 := by decide +kernel
  have none : debtOf (riskRun firstSymbol).2.2 = some 0 := by decide +kernel
  rw [isRisk] at none
  have zero : r.sumBorrowNat = 0 := Option.some.inj none
  have summed := claimed.sumBorrow
  omega

end SvpMcp
