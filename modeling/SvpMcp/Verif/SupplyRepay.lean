import SvpMcp.Verif.BorrowGuard

/-!
# What a supply and a repay project

A supply counts as collateral when its market is entered, but the tool looks for the membership in
the positions. A repay of the whole debt is encoded with the sentinel.
-/

namespace SvpMcp

open Handler Program

variable {input : LendoraRepayInput} {sim : LendoraSimulation} {out : LendoraTxOutput}
  {collateral debt : Int} {plan : RepayPlan} {deps : Deps} {evm : EvmDeps}
  {ctx : Context} {w w' : World} {events seen : Events}
  {c : LendoraChain} {op : OpContext}

/-- How a supply or a repay ends, given the allowance of the market: with a request for an approval
while what is pulled exceeds it, with the payload otherwise. -/
inductive Ends (m : Market) (pull : Int) (data : Bytes) (allowance : Nat)
    (out : LendoraTxOutput) : Prop where
  | waits (approval : LendoraApproval) (short : (allowance : Int) < pull)
      (isPayload : out.payload = none) (isApproval : out.approvalRequired = some approval)
      (spender : approval.spender = m.cToken.hex)
  | builds (p : EVMTxPayload) (enough : pull ≤ allowance) (isPayload : out.payload = some p)
      (isApproval : out.approvalRequired = none) (calls : p.Calls m.cToken 0 data)

/-- The allowance of a market on its underlying, as a run has read it. -/
def AllowanceRead (events : Events) (owner : Address) (m : Market)
    (allowance : Nat) : Prop :=
  ReadsAllowance homeClient m.underlying owner m.cToken allowance events

/-- An operation ends in a payload or waits for approval. -/
theorem finishWithAllowance_ok {pull : Int} {data : Bytes}
    {amountLabel clientID tool description : String}
    (run : Gives deps (· ∈ seen) w (finishWithAllowance deps op pull data amountLabel clientID tool
      description sim) w' out) :
    out.simulation = sim ∧ ∃ allowance, AllowanceRead seen op.owner op.market allowance ∧
      Ends op.market pull data allowance out := by
  simp [finishWithAllowance, checkLendoraAllowance] at run
  obtain ⟨_, raw, read, allowance, decoded, _, missing, checked, finished⟩ := run
  have isRead : AllowanceRead seen op.owner op.market allowance := readsAllowance_pack read decoded
  split at checked
  · next short =>
    obtain ⟨_, rfl⟩ := completes_pure.mp checked
    obtain ⟨_, rfl⟩ := completes_pure.mp finished
    exact ⟨rfl, allowance, isRead, .waits _ short rfl rfl rfl⟩
  · next enough =>
    obtain ⟨_, rfl⟩ := completes_pure.mp checked
    obtain ⟨p, rfl, calls⟩ := finishOp_ok finished
    exact ⟨rfl, allowance, isRead, .builds p (Int.not_lt.mp enough) rfl rfl calls⟩

/-- The native market is not supported. -/
theorem checkNative_erc20 {tool verb : String} {m : Market}
    (isListed : nativeUnsupportedOps.lookup tool = some verb)
    (supported : checkNative tool m = .ok ()) : m.isCEther = false := by
  rw [checkNative, isListed] at supported
  cases native : m.isCEther with
  | false => rfl
  | true =>
    simp only [native] at supported
    cases supported

/-- A call of the supply tool for an owner, a market with an ERC-20 underlying and an amount. -/
structure SupplyCall (deps : Deps) (w : World) (ctx : Context)
    (input : LendoraSupplyInput) (owner : Address) (m : Market) (amount : Nat) : Prop where
  owned : OwnedBy deps w ctx owner
  named : w.lendora.Names input.asset m
  erc20 : m.isCEther = false
  asked : humanToBaseUnits input.amount m.underlyingDecimals = .ok (amount : Int)

/-- A projection that follows the membership of the market: in an entered market the weighted value
of the supply is added to the collateral; otherwise nothing is, and the caller is told. -/
structure FollowsMembership (c : LendoraChain) (cache : LendoraCache) (owner m : Address)
    (amount : Nat) (sim : LendoraSimulation) : Prop where
  entered : m ∈ c.entered owner →
    healthText (c.margin owner + cache.debtOn c owner +
        weightedNative (c.prices (cache.oracleOn c) m) amount (c.collateralFactor m))
      (cache.debtOn c owner) = .ok sim.projectedHealthFactor ∧ supplyWarn ∉ sim.warnings
  notEntered : m ∉ c.entered owner →
    healthText (c.margin owner + cache.debtOn c owner) (cache.debtOn c owner) =
      .ok sim.projectedHealthFactor ∧ supplyWarn ∈ sim.warnings

/-- The text of the warning. -/
theorem projectHF_warning {text warn : String} {level : RiskLevel}
    (projected : projectHF collateral debt = .ok (text, level, some warn)) :
    warn = "projected health factor " ++ text ++
      " is close to the 1.0 liquidation threshold — leave a larger buffer" := by
  unfold projectHF at projected
  by_cases debtless : debt ≤ 0
  · rw [if_pos debtless] at projected
    cases projected
  · rw [if_neg debtless] at projected
    obtain ⟨hf, _, same⟩ := bind_eq_ok.mp projected
    by_cases close : hf.lt hfBlock = false ∧ hf.lt hfWarn
    · simp only [if_pos close] at same
      cases same
      rfl
    · simp only [if_neg close] at same
      cases same

/-- A simulation alone does not warn of the membership. -/
theorem simulation_warnings {action asset label : String} {r : RiskResult}
    (simulated : simulation action asset label r collateral debt = .ok sim) :
    supplyWarn ∉ sim.warnings := by
  simp [simulation] at simulated
  obtain ⟨text, level, warn, projected, rfl⟩ := simulated
  cases warn with
  | none => exact List.not_mem_nil
  | some warn =>
    intro member
    have isWarn : supplyWarn = warn := List.mem_singleton.mp member
    have starts : warn.toList.head? = some 'p' := by
      rw [projectHF_warning projected]
      simp [String.toList_append]
    rw [← isWarn] at starts
    exact absurd starts (by decide +kernel)

/-- What a supply adds: the weighted value in a market with an entered position, and the warning
elsewhere. -/
theorem addedCollateral_ok {amount : Int} {added : Nat} {warnings : List String}
    (run : Gives deps (Sees c) w (addedCollateral op amount) w' (added, warnings)) :
    (op.enteredPosition = true ∧ added = weightedNative
        (c.prices (w.lendora.oracleOn c) op.market.cToken) amount.toNat
        (c.collateralFactor op.market.cToken) ∧ warnings = []) ∨
      (op.enteredPosition = false ∧ added = 0 ∧ warnings = [supplyWarn]) := by
  unfold addedCollateral at run
  cases isEntered : op.enteredPosition with
  | true =>
    simp [isEntered, cTokenCollateralFactor] at run
    obtain ⟨_, rfl, rfl⟩ := run
    exact .inl ⟨rfl, rfl, rfl⟩
  | false =>
    simp [isEntered] at run
    exact .inr ⟨rfl, run.2.1.symm, run.2.2.symm⟩

/-- A supply follows the membership of a cached market if and only if the account holds or owes
something in it when it has entered it: an entered market that is empty counts as not entered. -/
theorem supply_membership_iff {deps : Deps} {evm : EvmDeps} {ctx : Context}
    {c : LendoraChain} {input : LendoraSupplyInput} {out : LendoraTxOutput} {w w' : World}
    {events : Events}
    (run : Alone deps w (lendoraBuildSupplyTx deps evm ctx input) events w' (.ok out))
    (reads : Reads c events) :
    ∃ owner m amount, SupplyCall deps w ctx input owner m amount ∧
      (m.cToken ∈ w.lendora.cTokens →
        (FollowsMembership c w.lendora owner m.cToken amount out.simulation ↔
          (m.cToken ∈ c.entered owner →
            0 < c.cTokens owner m.cToken ∨ 0 < c.borrow owner m.cToken))) := by
  have run : Gives deps (fun e => Sees c e ∧ e ∈ events) w _ w' out :=
    ⟨events, run, fun e member => ⟨reads e member, member⟩⟩
  simp [lendoraBuildSupplyTx] at run
  obtain ⟨_, op, common, _, isAmount, _, added, warnings, valued, sim, simulated, finished⟩ := run
  have opened := opCommon_ok (common.mono fun _ => And.left)
  have positive := (humanToBaseUnits_bounds isAmount).1
  obtain ⟨amount, rfl⟩ := Int.eq_ofNat_of_zero_le (Int.le_of_lt positive)
  have addedIs := addedCollateral_ok (valued.mono fun _ => And.left)
  rw [gives_lendora common, Int.toNat_natCast] at addedIs
  have text := simulation_text simulated
  rw [opened.sumCollateral, opened.sumBorrow] at text
  have quiet := simulation_warnings simulated
  obtain ⟨isOut, _⟩ := finishWithAllowance_ok (finished.mono fun _ => And.right)
  refine ⟨op.owner, op.market, amount,
    ⟨opened.owned, opened.named, checkNative_erc20 rfl opened.supported, isAmount⟩, ?_⟩
  intro cached
  have member : op.enteredPosition = true ↔ op.market.cToken ∈ c.entered op.owner ∧
      (0 < c.cTokens op.owner op.market.cToken ∨ 0 < c.borrow op.owner op.market.cToken) := by
    rw [opened.enteredPosition_iff]
    simp only [LendoraChain.holds, Bool.or_eq_true, decide_eq_true_eq]
    tauto
  rw [isOut]
  rcases addedIs with ⟨entered, isAdded, isWarnings⟩ | ⟨notSeen, isAdded, isWarnings⟩
  · obtain ⟨isEntered, holds⟩ := member.mp entered
    rw [isAdded] at text
    rw [isWarnings, List.append_nil]
    exact ⟨fun _ _ => holds,
      fun _ => ⟨fun _ => ⟨text, quiet⟩, fun absent => absurd isEntered absent⟩⟩
  · rw [isAdded, Int.natCast_zero, Int.add_zero] at text
    have warned : supplyWarn ∈ sim.warnings ++ warnings := by
      rw [isWarnings]
      exact List.mem_append_right _ List.mem_cons_self
    constructor
    · -- The projection warns, so the market cannot be entered.
      intro follows isEntered
      exact absurd warned (follows.entered isEntered).2
    · intro holds
      have isAbsent : op.market.cToken ∉ c.entered op.owner := by
        intro isEntered
        have seen := member.mpr ⟨isEntered, holds isEntered⟩
        rw [notSeen] at seen
        cases seen
      exact ⟨fun isEntered => absurd isEntered isAbsent, fun _ => ⟨text, warned⟩⟩

/-- A supply of five base units by the owner of `oneCollateral`. -/
def supplyInput (asset : String) : LendoraSupplyInput := ⟨asset, "0.000000000000000005", "first"⟩

/-- Its run, with both markets entered. -/
def supplyRun (asset : String) :
    Events × World × Except Fault LendoraTxOutput :=
  runOn meterDeps (oneCollateral true) twoSymbols lendWorld
    (lendoraBuildSupplyTx meterDeps lendEvm ownerContext (supplyInput asset))

/-- The supply is a run with no other request. -/
theorem supplyRun_ok {asset : String} (isOut : (supplyRun asset).2.2 = .ok out) :
    Alone meterDeps lendWorld (lendoraBuildSupplyTx meterDeps lendEvm
      ownerContext (supplyInput asset)) (supplyRun asset).1
      (supplyRun asset).2.1 (.ok out) := by
  have run := runOn_alone meterDeps (oneCollateral true) twoSymbols lendWorld
    (lendoraBuildSupplyTx meterDeps lendEvm ownerContext (supplyInput asset))
  rw [← supplyRun, isOut] at run
  exact run

/-- The supply in the first market, in which the account has its collateral. -/
theorem supply_membership_iff_first :
    ∃ out, (supplyRun "usdc").2.2 = .ok out ∧ ∃ owner m amount,
      SupplyCall meterDeps lendWorld ownerContext (supplyInput "usdc") owner m
        amount ∧
      (m.cToken ∈ lendWorld.lendora.cTokens →
        (FollowsMembership (oneCollateral true) lendWorld.lendora owner m.cToken amount
            out.simulation ↔
          (m.cToken ∈ (oneCollateral true).entered owner →
            0 < (oneCollateral true).cTokens owner m.cToken ∨
              0 < (oneCollateral true).borrow owner m.cToken))) := by
  have builds : (supplyRun "usdc").2.2.isOk = true := by
    rw [supplyRun, lendWorld_eq]
    decide +kernel
  obtain ⟨out, isOut⟩ := exists_of_isOk builds
  exact ⟨out, isOut, supply_membership_iff (supplyRun_ok isOut)
    (runOn_reads meterDeps (oneCollateral true) twoSymbols lendWorld _)⟩

/-- The warnings of a run, if it returned. -/
def warningsOf : Except Fault LendoraTxOutput → List String
  | .ok out => out.simulation.warnings
  | .error _ => []

/-- The projection does not follow the membership: a first supply to a market that is entered is
reported as not enabled. -/
theorem supply_membership_fails :
    ¬ ∀ (deps : Deps) (evm : EvmDeps) (ctx : Context) (c : LendoraChain)
      (input : LendoraSupplyInput) (out : LendoraTxOutput) (w w' : World)
      (events : Events),
      Alone deps w (lendoraBuildSupplyTx deps evm ctx input) events w' (.ok out) →
      Reads c events → ∀ owner m amount, SupplyCall deps w ctx input owner m amount →
        m.cToken ∈ w.lendora.cTokens →
        FollowsMembership c w.lendora owner m.cToken amount out.simulation := by
  intro all
  have builds : (supplyRun "usdt").2.2.isOk = true := by
    rw [supplyRun, lendWorld_eq]
    decide +kernel
  have warned : supplyWarn ∈ warningsOf (supplyRun "usdt").2.2 := by
    rw [supplyRun, lendWorld_eq]
    decide +kernel
  obtain ⟨out, isOut⟩ := exists_of_isOk builds
  rw [isOut] at warned
  have isCall : SupplyCall meterDeps lendWorld ownerContext (supplyInput "usdt")
      .zero secondMarket 5 := by
    refine ⟨⟨⟨"tenant", "svp1owner", [0], false⟩, ⟨_, 0, rfl, rfl⟩, _, rfl, rfl⟩, ?_, rfl, ?_⟩
    · rw [lendWorld_lendora]
      exact .inl (by decide +kernel)
    · decide +kernel
  have follows := all meterDeps lendEvm ownerContext (oneCollateral true)
    (supplyInput "usdt") out lendWorld _ _ (supplyRun_ok isOut)
    (runOn_reads meterDeps (oneCollateral true) twoSymbols lendWorld _) .zero secondMarket 5 isCall
    (by decide +kernel)
  exact (follows.entered (List.mem_cons_of_mem _ List.mem_cons_self)).2 warned

/-- A call of the repay tool for an owner and a market with an ERC-20 underlying. -/
structure RepayCall (deps : Deps) (w : World) (ctx : Context)
    (input : LendoraRepayInput) (owner : Address) (m : Market) : Prop where
  owned : OwnedBy deps w ctx owner
  named : w.lendora.Names input.asset m
  erc20 : m.isCEther = false

/-- A request for the whole debt: said so, without an amount, or with one that covers the debt. -/
def LendoraRepayInput.Whole (input : LendoraRepayInput) (decimals : Int) (debt : Nat) : Prop :=
  input.full = true ∨ input.amount = "" ∨
    ∃ amount, humanToBaseUnits input.amount decimals = .ok amount ∧ (debt : Int) ≤ amount

/-- Less than the debt is not all of it. -/
theorem not_whole {decimals amount : Int} {debt : Nat} (notFull : input.full = false)
    (accepted : humanToBaseUnits input.amount decimals = .ok amount) (below : amount < debt) :
    ¬ input.Whole decimals debt := by
  rintro (isFull | isEmpty | ⟨other, accepted', covers⟩)
  · cases notFull.symm.trans isFull
  · rw [isEmpty] at accepted
    exact absurd accepted error_ne_ok
  · cases accepted.symm.trans accepted'
    omega

/-- All of a debt is the largest word. -/
theorem repayFull_eq (isPlan : repayFull op = .ok plan) :
    plan = ⟨maxUint256, op.debt, "full"⟩ ∧ op.debt ≠ 0 := by
  unfold repayFull at isPlan
  by_cases none : op.debt = 0
  · rw [if_pos none] at isPlan
    cases isPlan
  · rw [if_neg none] at isPlan
    cases isPlan
    exact ⟨rfl, none⟩

/-- The two plans of a repay. -/
theorem repayPlan_ok (isPlan : repayPlan op input = .ok plan) :
    (input.Whole op.market.underlyingDecimals op.debt ∧
      plan = ⟨maxUint256, op.debt, "full"⟩ ∧ op.debt ≠ 0) ∨
    (¬ input.Whole op.market.underlyingDecimals op.debt ∧ ∃ amount : Int, amount < op.debt ∧
      humanToBaseUnits input.amount op.market.underlyingDecimals = .ok amount ∧
      plan = ⟨amount, amount, input.amount⟩) := by
  unfold repayPlan at isPlan
  by_cases asked : input.full = true ∨ input.amount = ""
  · rw [if_pos asked] at isPlan
    exact .inl ⟨asked.imp_right .inl, repayFull_eq isPlan⟩
  · rw [if_neg asked] at isPlan
    obtain ⟨amount, wrapped, isPlan⟩ := bind_eq_ok.mp isPlan
    have accepted := wrapFault_eq_ok.mp wrapped
    by_cases covers : (op.debt : Int) ≤ amount
    · rw [if_pos covers] at isPlan
      exact .inl ⟨.inr (.inr ⟨amount, accepted, covers⟩), repayFull_eq isPlan⟩
    · rw [if_neg covers] at isPlan
      cases isPlan
      have notFull : input.full = false := by simpa using fun isFull => asked (.inl isFull)
      have below := Int.not_le.mp covers
      exact .inr ⟨not_whole notFull accepted below, amount, below, accepted, rfl⟩

/-- The debt the engine sums over the cached markets other than one. -/
def LendoraCache.otherDebt (cache : LendoraCache) (c : LendoraChain) (owner m : Address) : Int :=
  sumOver (fun x => (c.debtBy (cache.oracleOn c) owner x : Int)) (cache.cTokens.filter (· ≠ m))

/-- The debt is the market's and the others'. -/
theorem debtOn_others (c : LendoraChain) (owner : Address) {cache : LendoraCache} {m : Address}
    (nodup : cache.cTokens.Nodup) (cached : m ∈ cache.cTokens) : cache.debtOn c owner =
      nativeValue (c.prices (cache.oracleOn c) m) (c.borrow owner m) +
        cache.otherDebt c owner m :=
  sumOver_others nodup cached

/-- The selector of `repayBorrow`. -/
def selRepayBorrow : Bytes := [0x0e, 0x75, 0x27, 0x02]

/-- The selector of `repayBorrow`. -/
theorem selector_repayBorrow : Abi.selector "repayBorrow(uint256)" = selRepayBorrow := by
  decide +kernel

/-- Call data that a market reads as a repay of an amount. -/
def RepaysBorrow (data : Bytes) (argument : Int) : Prop :=
  data.take 4 = selRepayBorrow ∧ (Abi.uintAt data 0 : Int) = argument

/-- The argument is read back. -/
theorem repaysBorrow_pack {argument : Int} (nonneg : 0 ≤ argument) (fits : argument < 2 ^ 256) :
    RepaysBorrow (packRepayBorrow argument) argument := by
  refine ⟨Abi.take_pack selector_repayBorrow rfl, ?_⟩
  rw [packRepayBorrow, Abi.uintAt_pack selector_repayBorrow rfl rfl, Int.emod_eq_of_lt nonneg fits]

/-- A repay with its argument and what it pulls, as the debt of the market and the request ask for.
The debt that is projected is the engine's less the value of what is pulled. -/
structure FaithfulRepay (c : LendoraChain) (cache : LendoraCache)
    (events : Events) (owner : Address) (m : Market)
    (input : LendoraRepayInput) (out : LendoraTxOutput) (argument : Int) (pull : Nat) : Prop where
  sentinel : argument = 2 ^ 256 - 1 ↔
    input.Whole m.underlyingDecimals (c.borrow owner m.cToken)
  exact : ¬ input.Whole m.underlyingDecimals (c.borrow owner m.cToken) →
    humanToBaseUnits input.amount m.underlyingDecimals = .ok argument ∧
      argument < c.borrow owner m.cToken ∧ argument = pull
  demanded : pull ≤ c.borrow owner m.cToken
  ends : ∃ allowance data, AllowanceRead events owner m allowance ∧
    RepaysBorrow data argument ∧ Ends m pull data allowance out
  projected : healthText (c.margin owner + cache.debtOn c owner)
    (cache.debtOn c owner - nativeValue (c.prices (cache.oracleOn c) m.cToken) pull) =
      .ok out.simulation.projectedHealthFactor
  nonneg : 0 ≤ cache.debtOn c owner - nativeValue (c.prices (cache.oracleOn c) m.cToken) pull
  whole : input.Whole m.underlyingDecimals (c.borrow owner m.cToken) →
    cache.debtOn c owner - nativeValue (c.prices (cache.oracleOn c) m.cToken) pull =
      cache.otherDebt c owner m.cToken
  part : ¬ input.Whole m.underlyingDecimals (c.borrow owner m.cToken) →
    ((cache.debtOn c owner - nativeValue (c.prices (cache.oracleOn c) m.cToken) pull) -
      (cache.otherDebt c owner m.cToken + nativeValue (c.prices (cache.oracleOn c) m.cToken)
        (c.borrow owner m.cToken - pull))).natAbs ≤ 1

/-- The other debts are not negative. -/
theorem otherDebt_nonneg (c : LendoraChain) (cache : LendoraCache) (owner m : Address) :
    0 ≤ cache.otherDebt c owner m :=
  sumOver_nonneg (fun _ => Int.natCast_nonneg _) _

/-- What is left of a debt without a part, rounded down, is the rounded rest or one more. -/
theorem nativeValue_rest (price : Nat) {owed paid : Nat} (below : paid ≤ owed) :
    nativeValue price owed = nativeValue price (owed - paid) + nativeValue price paid ∨
      nativeValue price owed = nativeValue price (owed - paid) + nativeValue price paid + 1 := by
  have split := nativeValue_add price (owed - paid) paid
  rw [Nat.sub_add_cancel below] at split
  exact split

/-- A repay in a cached market with a debt encodes and projects what the debt and the request ask
for. No market is cached twice, as `refresh_nodup` has it, and a debt is a word. -/
theorem repay_encoding_projection {deps : Deps} {evm : EvmDeps} {ctx : Context}
    {c : LendoraChain} {input : LendoraRepayInput} {out : LendoraTxOutput} {w w' : World}
    {events : Events} (nodup : w.lendora.cTokens.Nodup)
    (words : ∀ owner m, c.borrow owner m < 2 ^ 256)
    (run : Alone deps w (lendoraBuildRepayTx deps evm ctx input) events w' (.ok out))
    (reads : Reads c events) :
    ∃ owner m, RepayCall deps w ctx input owner m ∧ (m.cToken ∈ w.lendora.cTokens →
      0 < c.borrow owner m.cToken →
      ∃ argument pull, FaithfulRepay c w.lendora events owner m input out argument pull) := by
  have run : Gives deps (fun e => Sees c e ∧ e ∈ events) w _ w' out :=
    ⟨events, run, fun e member => ⟨reads e member, member⟩⟩
  simp [lendoraBuildRepayTx] at run
  obtain ⟨_, op, common, plan, planned, _, price, priced, sim, simulated, finished⟩ := run
  have opened := opCommon_ok (common.mono fun _ => And.left)
  obtain ⟨rfl, rfl⟩ := gives_priceNativeVia.mp (priced.mono fun _ => And.left)
  obtain ⟨isSim, allowance, isRead, ends⟩ :=
    finishWithAllowance_ok (finished.mono fun _ => And.right)
  have text := simulation_text simulated
  have summed := opened.sumBorrow
  rw [opened.sumCollateral, summed, gives_lendora common, ← isSim] at text
  refine ⟨op.owner, op.market,
    ⟨opened.owned, opened.named, checkNative_erc20 rfl opened.supported⟩, ?_⟩
  intro cached owes
  have isDebt := opened.debt_eq cached
  have debtIs := debtOn_others c op.owner nodup cached
  have others := otherDebt_nonneg c w.lendora op.owner op.market.cToken
  have word := words op.owner op.market.cToken
  rcases repayPlan_ok planned with
    ⟨whole, isPlan, _⟩ | ⟨notWhole, amount, below, accepted, isPlan⟩
  · rw [isDebt] at whole isPlan
    rw [isPlan] at ends text
    rw [Int.toNat_natCast, if_neg (by omega)] at text
    exact ⟨maxUint256, c.borrow op.owner op.market.cToken, {
      sentinel := ⟨fun _ => whole, fun _ => rfl⟩
      exact := fun notWhole => absurd whole notWhole
      demanded := Nat.le_refl _
      ends := ⟨allowance, _, isRead, repaysBorrow_pack (by decide) (by decide), ends⟩
      projected := text
      nonneg := by omega
      whole := fun _ => by omega
      part := fun notWhole => absurd whole notWhole }⟩
  · rw [isDebt] at notWhole below
    have positive := (humanToBaseUnits_bounds accepted).1
    obtain ⟨pull, asNat⟩ := Int.eq_ofNat_of_zero_le (Int.le_of_lt positive)
    rw [isPlan, asNat] at ends text
    rw [asNat] at accepted below
    have less : pull ≤ c.borrow op.owner op.market.cToken := by omega
    have rest := nativeValue_rest (c.prices (w.lendora.oracleOn c) op.market.cToken) less
    rw [Int.toNat_natCast, if_neg (by omega)] at text
    exact ⟨pull, pull, {
      sentinel := by
        refine ⟨fun isMax => ?_, fun whole => absurd whole notWhole⟩
        omega
      exact := fun _ => ⟨accepted, below, rfl⟩
      demanded := less
      ends := ⟨allowance, _, isRead, repaysBorrow_pack (by omega) (by omega), ends⟩
      projected := text
      nonneg := by omega
      whole := fun whole => absurd whole notWhole
      part := fun _ => by omega }⟩

/-- A repay of five base units of a debt of 80. -/
def repayInput : LendoraRepayInput := ⟨"usdt", "0.000000000000000005", false, "first"⟩

/-- The run of the repay. -/
def repayRun : Events × World × Except Fault LendoraTxOutput :=
  runOn meterDeps twoMarkets twoSymbols lendWorld
    (lendoraBuildRepayTx meterDeps lendEvm ownerContext repayInput)

/-- A repayment of five. -/
theorem repay_encoding_projection_five :
    ∃ out, repayRun.2.2 = .ok out ∧ ∃ owner m,
      RepayCall meterDeps lendWorld ownerContext repayInput owner m ∧
      ∃ argument pull, FaithfulRepay twoMarkets lendWorld.lendora repayRun.1 owner m repayInput out
        argument pull := by
  have builds : repayRun.2.2.isOk = true := by
    rw [repayRun, lendWorld_eq]
    decide +kernel
  obtain ⟨out, isOut⟩ := exists_of_isOk builds
  have run := runOn_alone meterDeps twoMarkets twoSymbols lendWorld
    (lendoraBuildRepayTx meterDeps lendEvm ownerContext repayInput)
  rw [← repayRun, isOut] at run
  have words : ∀ owner m, twoMarkets.borrow owner m < 2 ^ 256 := by
    intro owner m
    change (if m = .ofBytes [2] then 80 else 0) < 2 ^ 256
    split <;> decide
  obtain ⟨owner, m, isCall, faithful⟩ := repay_encoding_projection lendWorld_nodup words run
    (runOn_reads meterDeps twoMarkets twoSymbols lendWorld _)
  have resolves : lendWorld.lendora.resolve repayInput.asset = some secondMarket := by
    rw [lendWorld_lendora]
    decide +kernel
  rw [isCall.named.known resolves] at faithful isCall
  exact ⟨out, isOut, owner, secondMarket, isCall, faithful (by decide +kernel)
    (show 0 < (if secondMarket.cToken = .ofBytes [2] then 80 else 0) by decide)⟩

end SvpMcp
