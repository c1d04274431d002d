import SvpMcp.Verif.Approvals
import SvpMcp.Verif.SupplyRepay

/-!
# Approve first, then retry

A deposit, a supply, a repay and the approval each derive an amount on their own. They agree exactly
when the amount a call names is enough at the decimals the token reports.
-/

namespace SvpMcp

open Handler Program

variable {deps : Deps} {evm : EvmDeps} {ctx : Context} {w : World} {env later : Env}

section Missing

variable {α β : Type} {g : Grant} {allowance : Nat} {format : String} {operands : List String}
  {amount : Int} {approval : α} {next : Option α → Handler β}

/-- The check of an allowance: an approval to ask for, if it is short. -/
def Grant.missing (g : Grant) (format : String) (operands : List String) (amount : Int)
    (approval : α) : Handler (Option α) := do
  let (out : Bytes) ← evmRead g.client
    (.callContract g.token (packERC20Allowance g.owner g.spender)) format operands
  let allowance ← ofResult (unpacked "allowance" (Abi.unpackUint out))
  if (allowance : Int) < amount then return some approval else return none

/-- A handler that checks an allowance goes on as the allowance says. -/
theorem missing_step (is : g.Is env allowance) :
    resultIn deps w env (g.missing format operands amount approval >>= next) =
      resultIn deps w env (next (if (allowance : Int) < amount then some approval else none)) := by
  obtain ⟨out, answered, isUnpacked⟩ := is
  refine resultIn_step ?_
  refine (resultIn_step (resultIn_evmRead.mpr answered)).trans ?_
  refine (resultIn_step (resultIn_ofResult.mpr (unpacked_eq_ok.mpr isUnpacked))).trans ?_
  split <;> rfl

/-- A handler that checks an allowance and returns has read it. -/
theorem missing_reads {result : β}
    (isResult : resultIn deps w env (g.missing format operands amount approval >>= next) =
      .ok result) : ∃ allowance, g.Is env allowance := by
  simp [Grant.missing] at isResult
  obtain ⟨out, answered, allowance, isUnpacked, _⟩ := isResult
  exact ⟨allowance, out, answered, isUnpacked⟩

end Missing

section Deposits

variable {direction : BridgeDirection} {input : BuildBridgeDepositInput} {leg : BridgeLeg}
  {sender recipient : Address} {amount : Int} {tp : TenantPolicy}
  {amountHuman retryTool clientID : String}

/-- The allowance a deposit pulls from. -/
def BridgeLeg.grant (leg : BridgeLeg) (owner : Address) : Grant :=
  ⟨leg.client, leg.route.srcToken, owner, leg.bridge⟩

/-- What a deposit checks and asks for. -/
theorem checkBridgeAllowance_missing (leg : BridgeLeg) (sender : Address) (amount : Int)
    (amountHuman retryTool : String) : ∃ format operands approval,
    checkBridgeAllowance leg sender amount amountHuman retryTool =
        (leg.grant sender).missing format operands amount approval ∧
      approval.token = leg.route.srcToken.hex ∧ approval.spender = leg.bridge.hex ∧
      approval.minAmount = amountHuman ∧ approval.chainID = leg.srcChainID :=
  ⟨_, _, _, rfl, rfl, rfl, rfl, rfl⟩

/-- A deposit that is assembled has a payload and asks for nothing. -/
theorem assembleDeposit_payload {data : Bytes} {value : Option Int} {out : BridgeDepositOutput}
    (isOut : resultIn deps w env (assembleDeposit leg sender recipient amount data value amountHuman
      clientID retryTool) = .ok out) : ∃ p, out.asked = (some p, none) := by
  simp [assembleDeposit] at isOut
  obtain ⟨p, _, rfl⟩ := isOut
  exact ⟨p, rfl⟩

/-- A node that answers lets a deposit be assembled. -/
theorem assembleDeposit_returns {data : Bytes} {value : Option Int}
    (answers : Assembles env leg.client) : ∃ out p, resultIn deps w env (assembleDeposit leg sender
      recipient amount data value amountHuman clientID retryTool) = .ok out ∧
      out.asked = (some p, none) := by
  obtain ⟨p, isPayload⟩ := assembleEVM_returns answers _
  exact ⟨_, p, (resultIn_step isPayload).trans rfl, rfl⟩

/-- A deposit that is built was let in. -/
theorem build_admits {out : BridgeDepositOutput}
    (isOut : resultIn deps w env (direction.build deps evm ctx input) = .ok out) :
    ∃ tp, Admits deps w env ctx tp := by
  rw [BridgeDirection.build_eq] at isOut
  simp [buildBridge] at isOut
  obtain ⟨tp, admitted, _⟩ := isOut
  exact ⟨tp, admitted⟩

/-- The deposit of a token, from the leg and the parties on. -/
theorem build_token (admitted : Admits deps w env ctx tp)
    (parties : bridgeParties deps tp.owner input.recipient = .ok (sender, recipient))
    (resolved : direction.leg deps evm input = .ok leg)
    (accepted : humanToBaseUnits input.amount leg.route.decimals = .ok amount)
    (isToken : leg.route.nativeSource = false) :
    resultIn deps w env (direction.build deps evm ctx input) =
      resultIn deps w env (assembleTokenDeposit leg sender recipient amount input.amount
        input.clientID direction.tool) := by
  rw [BridgeDirection.build_eq]
  refine (resultIn_step (resultIn_authorize.mpr admitted)).trans ?_
  refine (resultIn_step (resultIn_ofResult.mpr parties)).trans ?_
  refine (resultIn_step (resultIn_ofResult.mpr resolved)).trans ?_
  refine (resultIn_step (resultIn_baseAmount.mpr accepted)).trans ?_
  rw [isToken, if_neg Bool.false_ne_true]

/-- A deposit that asks for an approval waits for the allowance of its leg. -/
theorem bridge_awaits {payload : Option EVMTxPayload} {step : ApprovalStep}
    (asked : resultIn deps w env ((ApprovingCall.bridge direction input).build deps evm ctx) =
      .ok (payload, some step)) :
    ∃ leg owner amount, direction.leg deps evm input = .ok leg ∧
      humanToBaseUnits input.amount leg.route.decimals = .ok amount ∧
      step.minAmount = input.amount ∧ step.chainID = leg.srcChainID ∧
      Awaits deps evm ctx w env (.bridge direction input) step (leg.grant owner) amount := by
  simp [ApprovingCall.build, BridgeDirection.build_eq, buildBridge, assembleBridgeDeposit] at asked
  obtain ⟨tp, admitted, sender, recipient, parties, leg, resolved, amount, accepted, out, isOut,
    isAsked⟩ := asked
  cases native : leg.route.nativeSource with
  | true =>
    rw [native, if_pos rfl] at isOut
    obtain ⟨p, built⟩ := assembleDeposit_payload isOut
    cases built.symm.trans isAsked
  | false =>
    rw [native, if_neg Bool.false_ne_true] at isOut
    obtain ⟨format, operands, approval, isCheck, isToken, isSpender, isMinimum, isChain⟩ :=
      checkBridgeAllowance_missing leg sender amount input.amount direction.tool
    rw [assembleTokenDeposit, isCheck] at isOut
    obtain ⟨allowance, is⟩ := missing_reads isOut
    rw [missing_step is] at isOut
    by_cases short : (allowance : Int) < amount
    · rw [if_pos short] at isOut
      cases isOut
      cases isAsked
      refine ⟨leg, sender, amount, resolved, accepted, isMinimum, isChain, ?_⟩
      exact {
        admitted := ⟨tp, admitted, ownerEthAddress_eq_ok.mpr (bridgeParties_ok parties).1⟩
        token := isToken
        spender := isSpender
        short := ⟨allowance, is, short⟩
        resumes := by
          intro later allowance _ serves is enough
          obtain ⟨tp', admitted'⟩ := serves.admits
          cases admits_unique admitted admitted'
          obtain ⟨out, p, isOut, built⟩ := assembleDeposit_returns (serves.assembles leg.client)
          refine ⟨p, resultIn_bind.mpr ⟨out, ?_, congrArg Except.ok built⟩⟩
          rw [build_token admitted' parties resolved accepted native, assembleTokenDeposit, isCheck,
            missing_step is, if_neg (Int.not_lt.mpr enough)]
          exact isOut
        waits := by
          intro later allowance p _ is short built
          obtain ⟨out, isOut, built⟩ := resultIn_bind.mp built
          obtain ⟨tp', admitted'⟩ := build_admits isOut
          cases admits_unique admitted admitted'
          rw [build_token admitted' parties resolved accepted native, assembleTokenDeposit, isCheck,
            missing_step is, if_pos short] at isOut
          cases isOut
          cases built }
    · rw [if_neg short] at isOut
      obtain ⟨p, built⟩ := assembleDeposit_payload isOut
      cases built.symm.trans isAsked

end Deposits

section Lendora

variable {op : OpContext} {pull : Int} {data : Bytes}
  {tool asset amountLabel clientID description : String} {sim : LendoraSimulation}

/-- The allowance a supply or a repay pulls from. -/
def OpContext.grant (op : OpContext) : Grant :=
  ⟨homeClient, op.market.underlying, op.owner, op.market.cToken⟩

/-- The same operation, annotated with another block. -/
def OpContext.atBlock (op : OpContext) (block : UInt64) : OpContext :=
  { op with risk := { op.risk with blockNumber := block } }

/-- What every operation starts from, as it was read. -/
structure Starts (deps : Deps) (ctx : Context) (w : World) (env : Env)
    (asset : String) (op : OpContext) : Prop where
  admitted : ∃ tp, Admits deps w env ctx tp ∧ ownerEthAddress deps.codec tp.owner = .ok op.owner ∧
    op.ownerBech = tp.owner
  enabled : deps.evmEnabled = true
  market : resultIn deps w env (resolveAsset asset) = .ok op.market
  risk : resultIn deps w env (computeRisk op.owner) = .ok op.risk

/-- What an operation starts from. -/
theorem opCommon_starts (isOp : resultIn deps w env (opCommon deps evm ctx tool asset) = .ok op) :
    Starts deps ctx w env asset op := by
  simp [opCommon, requireLendora, requireEVM] at isOp
  obtain ⟨tp, admitted, enabled, _, market, isMarket, _, owner, isOwner, risk, isRisk, rfl⟩ := isOp
  exact {
    admitted := ⟨tp, admitted, isOwner, rfl⟩
    enabled := enabled
    market := isMarket
    risk := isRisk }

/-- A tool that starts with an operation and returns has let the request in. -/
theorem opCommon_admits {α β : Type} {next : OpContext → Handler α} {last : α → Handler β}
    {out : β}
    (isOut : resultIn deps w env ((opCommon deps evm ctx tool asset >>= next) >>= last) = .ok out) :
    ∃ tp, Admits deps w env ctx tp := by
  simp only [resultIn_bind] at isOut
  obtain ⟨_, ⟨op, isOp, _⟩, _⟩ := isOut
  obtain ⟨tp, admitted, _⟩ := (opCommon_starts isOp).admitted
  exact ⟨tp, admitted⟩

/-- While the contracts stand still an operation starts from the same, but for the block. -/
theorem opCommon_still (same : later.lendora = env.lendora)
    (isOp : resultIn deps w env (opCommon deps evm ctx tool asset) = .ok op)
    (admits : ∃ tp, Admits deps w later ctx tp) :
    ∃ block, resultIn deps w later (opCommon deps evm ctx tool asset) = .ok (op.atBlock block) := by
  simp [opCommon, requireLendora, requireEVM] at isOp ⊢
  obtain ⟨tp, admitted, enabled, listed, market, isMarket, supported, owner, isOwner, risk, isRisk,
    rfl⟩ := isOp
  obtain ⟨tp', admitted'⟩ := admits
  cases admits_unique admitted admitted'
  obtain ⟨block, isRisk'⟩ := computeRisk_still same isRisk
  have allows := readsLendora_allows owner
  rw [← resultIn_still same (resolveAsset_only allows.plain allows.cache _)] at isMarket
  exact ⟨block, tp, admitted', enabled, listed, market, isMarket, supported, owner, isOwner, _,
    isRisk', rfl⟩

/-- What a supply and a repay check and ask for. -/
theorem checkLendoraAllowance_missing (op : OpContext) (pull : Int) (amountLabel tool : String) :
    ∃ format operands approval, checkLendoraAllowance op.market op.owner pull amountLabel tool =
        op.grant.missing format operands pull approval ∧
      approval.token = op.market.underlying.hex ∧ approval.spender = op.market.cToken.hex ∧
      approval.minAmount = amountLabel :=
  ⟨_, _, _, rfl, rfl, rfl, rfl⟩

/-- An operation that is finished has a payload and asks for nothing. -/
theorem finishOp_payload {recipient : Address} {ownerBech : String} {out : LendoraTxOutput}
    (isOut : resultIn deps w env
      (finishOp deps ownerBech recipient data clientID tool description sim) = .ok out) :
    ∃ p, out.asked = (some p, none) := by
  simp [finishOp] at isOut
  obtain ⟨p, _, rfl⟩ := isOut
  exact ⟨p, rfl⟩

/-- A node that answers lets an operation be finished. -/
theorem finishOp_returns {recipient owner : Address} {ownerBech : String}
    (isOwner : ownerEthAddress deps.codec ownerBech = .ok owner)
    (answers : Assembles env homeClient) : ∃ out p, resultIn deps w env
      (finishOp deps ownerBech recipient data clientID tool description sim) = .ok out ∧
      out.asked = (some p, none) := by
  obtain ⟨p, isPayload⟩ := assembleERC_returns isOwner answers _ _ _ _ _
  exact ⟨_, p, (resultIn_step isPayload).trans rfl, rfl⟩

/-- A call ends with the allowance of an operation, as long as the contracts stand still. -/
def Finishes (deps : Deps) (evm : EvmDeps) (ctx : Context) (w : World) (env : Env)
    (call : ApprovingCall) (tool asset : String) (op : OpContext) (pull : Int)
    (amountLabel : String) : Prop :=
  ∀ later block, later.lendora = env.lendora →
    resultIn deps w later (opCommon deps evm ctx tool asset) = .ok (op.atBlock block) →
    ∃ data clientID description sim, resultIn deps w later (call.build deps evm ctx) =
      resultIn deps w later (do
        let out ← finishWithAllowance deps (op.atBlock block) pull data amountLabel clientID tool
          description sim
        return out.asked)

variable {payload : Option EVMTxPayload}

/-- Such a call waits for the allowance of its operation when it asks for an approval. -/
theorem lendora_awaits {call : ApprovingCall} {step : ApprovalStep}
    (isOp : resultIn deps w env (opCommon deps evm ctx tool asset) = .ok op)
    (finishes : Finishes deps evm ctx w env call tool asset op pull amountLabel)
    (admits : ∀ later out, resultIn deps w later (call.build deps evm ctx) = .ok out →
      ∃ tp, Admits deps w later ctx tp)
    (asked : resultIn deps w env (call.build deps evm ctx) = .ok (payload, some step)) :
    step.minAmount = amountLabel ∧ step.chainID = 0 ∧
      Awaits deps evm ctx w env call step op.grant pull := by
  obtain ⟨tp, admitted, isOwner, isBech⟩ := (opCommon_starts isOp).admitted
  have isOwner' : ownerEthAddress deps.codec op.ownerBech = .ok op.owner := isBech ▸ isOwner
  obtain ⟨data, clientID, description, sim, isFinish⟩ :=
    finishes env op.risk.blockNumber rfl isOp
  rw [isFinish] at asked
  obtain ⟨out, isOut, isAsked⟩ := resultIn_bind.mp asked
  have isAsked : out.asked = (payload, some step) := Except.ok.inj isAsked
  obtain ⟨format, operands, approval, isCheck, isToken, isSpender, isMinimum⟩ :=
    checkLendoraAllowance_missing op pull amountLabel tool
  have isCheck' (block : UInt64) : checkLendoraAllowance (op.atBlock block).market
      (op.atBlock block).owner pull amountLabel tool = _ := isCheck
  rw [finishWithAllowance, isCheck'] at isOut
  obtain ⟨allowance, is⟩ := missing_reads isOut
  rw [missing_step is] at isOut
  by_cases short : (allowance : Int) < pull
  · rw [if_pos short] at isOut
    cases isOut
    cases isAsked
    refine ⟨isMinimum, rfl, ?_⟩
    exact {
      admitted := ⟨tp, admitted, isOwner⟩
      token := isToken
      spender := isSpender
      short := ⟨allowance, is, short⟩
      resumes := by
        intro later allowance same serves is enough
        obtain ⟨block, isOp'⟩ := opCommon_still same isOp serves.admits
        obtain ⟨data, clientID, description, sim, isFinish⟩ := finishes later block same isOp'
        obtain ⟨out, p, isOut, built⟩ := finishOp_returns isOwner' (serves.assembles homeClient)
        refine ⟨p, isFinish.trans (resultIn_bind.mpr ⟨out, ?_, congrArg Except.ok built⟩)⟩
        rw [finishWithAllowance, isCheck', missing_step is, if_neg (Int.not_lt.mpr enough)]
        exact isOut
      waits := by
        intro later allowance p same is short built
        obtain ⟨block, isOp'⟩ := opCommon_still same isOp (admits later _ built)
        obtain ⟨data, clientID, description, sim, isFinish⟩ := finishes later block same isOp'
        obtain ⟨out, isOut, built⟩ := resultIn_bind.mp (isFinish.symm.trans built)
        rw [finishWithAllowance, isCheck', missing_step is, if_pos short] at isOut
        cases isOut
        cases built }
  · rw [if_neg short] at isOut
    obtain ⟨p, built⟩ := finishOp_payload isOut
    cases built.symm.trans isAsked

/-- The simulation is annotated with the block and depends on nothing else of it. -/
theorem simulation_atBlock {action asset amount : String} {r : RiskResult}
    {collateral debt : Int} (block : UInt64)
    (simulated : simulation action asset amount r collateral debt = .ok sim) :
    simulation action asset amount { r with blockNumber := block } collateral debt =
      .ok { sim with blockNumber := block } := by
  simp [simulation] at simulated
  obtain ⟨_, _, _, projected, rfl⟩ := simulated
  rw [simulation, projected]
  rfl

/-- A supply that asks for an approval waits for the allowance of what it supplies. -/
theorem supply_awaits {input : LendoraSupplyInput} {step : ApprovalStep}
    (asked : resultIn deps w env ((ApprovingCall.supply input).build deps evm ctx) =
      .ok (payload, some step)) :
    ∃ op amount, Starts deps ctx w env input.asset op ∧
      humanToBaseUnits input.amount op.market.underlyingDecimals = .ok amount ∧
      step.minAmount = input.amount ∧ step.chainID = 0 ∧
      Awaits deps evm ctx w env (.supply input) step op.grant amount := by
  obtain ⟨out, isOut, _⟩ := resultIn_bind.mp asked
  simp only [lendoraBuildSupplyTx, resultIn_bind, resultIn_baseAmount, resultIn_ofCall] at isOut
  obtain ⟨op, isOp, amount, accepted, ⟨added, warnings⟩, isAdded, sim, isSim, isOut⟩ := isOut
  have finishes : Finishes deps evm ctx w env (.supply input) "lendora_build_supply_tx"
      input.asset op amount input.amount := by
    intro later block same isOp'
    have allows := readsLendora_allows op.owner
    rw [← resultIn_still same (addedCollateral_only allows.plain allows.cache _ _)] at isAdded
    refine ⟨packMint amount, input.clientID,
      "supply " ++ input.amount ++ " " ++ op.market.symbol ++ " to Lendora",
      { sim with blockNumber := block, warnings := sim.warnings ++ warnings },
      resultIn_first ?_ _⟩
    refine (resultIn_step isOp').trans ?_
    refine (resultIn_step (resultIn_baseAmount.mpr accepted)).trans ?_
    refine (resultIn_step isAdded).trans ?_
    exact resultIn_step ((resultIn_ofCall _).trans (simulation_atBlock block isSim))
  obtain ⟨isMinimum, isChain, awaits⟩ :=
    lendora_awaits isOp finishes (fun _ _ isOut => opCommon_admits isOut) asked
  exact ⟨op, amount, opCommon_starts isOp, accepted, isMinimum, isChain, awaits⟩

/-- A repay that asks for an approval waits for the allowance of what it pulls. -/
theorem repay_awaits {input : LendoraRepayInput} {step : ApprovalStep}
    (asked : resultIn deps w env ((ApprovingCall.repay input).build deps evm ctx) =
      .ok (payload, some step)) :
    ∃ op plan, Starts deps ctx w env input.asset op ∧ repayPlan op input = .ok plan ∧
      step.minAmount = plan.amountLabel ∧ step.chainID = 0 ∧
      Awaits deps evm ctx w env (.repay input) step op.grant plan.pull := by
  obtain ⟨out, isOut, _⟩ := resultIn_bind.mp asked
  simp only [lendoraBuildRepayTx, resultIn_bind, resultIn_ofCall] at isOut
  obtain ⟨op, isOp, plan, isPlan, price, isPrice, sim, isSim, isOut⟩ := isOut
  have finishes : Finishes deps evm ctx w env (.repay input) "lendora_build_repay_tx"
      input.asset op plan.pull plan.amountLabel := by
    intro later block same isOp'
    have allows := readsLendora_allows op.owner
    rw [← resultIn_still same (cTokenUnderlyingPriceNativeVia_only allows.plain allows.cache _)]
      at isPrice
    refine ⟨packRepayBorrow plan.packAmount, input.clientID,
      "repay " ++ plan.amountLabel ++ " " ++ op.market.symbol ++ " to Lendora",
      { sim with blockNumber := block }, resultIn_first ?_ _⟩
    refine (resultIn_step isOp').trans ?_
    refine (resultIn_step ((resultIn_ofCall _).trans isPlan)).trans ?_
    refine (resultIn_step isPrice).trans ?_
    exact resultIn_step ((resultIn_ofCall _).trans (simulation_atBlock block isSim))
  obtain ⟨isMinimum, isChain, awaits⟩ :=
    lendora_awaits isOp finishes (fun _ _ isOut => opCommon_admits isOut) asked
  exact ⟨op, plan, opCommon_starts isOp, isPlan, isMinimum, isChain, awaits⟩

end Lendora

section Convergence

variable {call : ApprovingCall} {payload : Option EVMTxPayload} {step : ApprovalStep}

/-- An amount keeps its place at the decimals a token reports. -/
def SufficesOn (env : Env) (client : EvmClient) (token : Address) (human : String)
    (decimals : Int) : Prop :=
  ∃ places, TokenDecimals env client token places ∧ SufficesAt human decimals places

/-- What the tenant owes in a market, as the market reports it. -/
def OwesIn (deps : Deps) (ctx : Context) (w : World) (env : Env) (m : Market)
    (debt : Nat) : Prop :=
  ∃ tp owner, ∃ snap : SnapshotAnswer, Admits deps w env ctx tp ∧
    ownerEthAddress deps.codec tp.owner = .ok owner ∧
    env.lendora (.getAccountSnapshot m.cToken owner) = .ok snap ∧ snap.borrowBalance = debt

/-- The amount a call names is enough for the approval: the token does not report fewer decimals
than the registry or the market has. A deposit's source chain is one the approval reaches, and a
repay names an amount below the debt. -/
def ApprovingCall.Covered (deps : Deps) (evm : EvmDeps) (ctx : Context) (w : World)
    (env : Env) : ApprovingCall → Prop
  | bridge direction input => deps.evmEnabled = true ∧ ∃ leg,
      direction.leg deps evm input = .ok leg ∧
      evmAssemblerFor deps evm leg.srcChainID = .ok leg.client ∧
      SufficesOn env leg.client leg.route.srcToken input.amount leg.route.decimals
  | supply input => ∃ m, resultIn deps w env (resolveAsset input.asset) = .ok m ∧
      SufficesOn env homeClient m.underlying input.amount m.underlyingDecimals
  | repay input => ∃ m debt, ∃ amount : Int,
      resultIn deps w env (resolveAsset input.asset) = .ok m ∧
      OwesIn deps ctx w env m debt ∧ input.full = false ∧
      humanToBaseUnits input.amount m.underlyingDecimals = .ok amount ∧ amount < debt ∧
      SufficesOn env homeClient m.underlying input.amount m.underlyingDecimals

/-- The token's decimals decide whether the approval of an accepted amount is enough. -/
theorem sufficesOn_iff {human : String} {decimals amount : Int}
    (accepted : humanToBaseUnits human decimals = .ok amount) (env : Env) (client : EvmClient)
    (token : Address) :
    (∃ (places : Nat) (approved : Int), TokenDecimals env client token places ∧
      humanToBaseUnits human places = .ok approved ∧ amount ≤ approved) ↔
      SufficesOn env client token human decimals := by
  constructor
  · rintro ⟨places, approved, reported, accepted', enough⟩
    exact ⟨places, reported, (sufficesAt_iff accepted).mp ⟨approved, accepted', enough⟩⟩
  · rintro ⟨places, reported, keeps⟩
    obtain ⟨approved, accepted', enough⟩ := (sufficesAt_iff accepted).mpr keeps
    exact ⟨places, approved, reported, accepted', enough⟩

/-- When a deposit converges. -/
theorem converges_bridge_iff {direction : BridgeDirection} {input : BuildBridgeDepositInput}
    (asked : resultIn deps w env ((ApprovingCall.bridge direction input).build deps evm ctx) =
      .ok (payload, some step)) :
    Converges deps evm ctx w env (.bridge direction input) step ↔
      (ApprovingCall.bridge direction input).Covered deps evm ctx w env := by
  obtain ⟨leg, owner, amount, resolved, accepted, isMinimum, isChain, awaits⟩ := bridge_awaits asked
  rw [converges_iff awaits, isMinimum, isChain]
  have decides := sufficesOn_iff accepted env leg.client leg.route.srcToken
  constructor
  · rintro ⟨enabled, reaches, enough⟩
    exact ⟨enabled, leg, resolved, reaches, decides.mp enough⟩
  · rintro ⟨enabled, leg', resolved', reaches, enough⟩
    cases resolved.symm.trans resolved'
    exact ⟨enabled, reaches, decides.mpr enough⟩

/-- Without a chain id it is the home chain. -/
theorem evmAssemblerFor_home (deps : Deps) (evm : EvmDeps) :
    evmAssemblerFor deps evm 0 = .ok homeClient := by
  rw [evmAssemblerFor, if_pos (.inl rfl)]

/-- When a supply converges. -/
theorem converges_supply_iff {input : LendoraSupplyInput}
    (asked : resultIn deps w env ((ApprovingCall.supply input).build deps evm ctx) =
      .ok (payload, some step)) :
    Converges deps evm ctx w env (.supply input) step ↔
      (ApprovingCall.supply input).Covered deps evm ctx w env := by
  obtain ⟨op, amount, starts, accepted, isMinimum, isChain, awaits⟩ := supply_awaits asked
  rw [converges_iff awaits, isMinimum, isChain]
  have decides := sufficesOn_iff accepted env homeClient op.market.underlying
  constructor
  · rintro ⟨_, _, enough⟩
    exact ⟨op.market, starts.market, decides.mp enough⟩
  · rintro ⟨m, isMarket, enough⟩
    cases starts.market.symm.trans isMarket
    exact ⟨starts.enabled, evmAssemblerFor_home deps evm, decides.mpr enough⟩

/-- `full` is not an amount. -/
theorem full_not_accepted (decimals amount : Int) :
    humanToBaseUnits "full" decimals ≠ .ok amount := by
  have unread : LegacyDec.ofString "full".toList = none := by decide
  rw [humanToBaseUnits, unread]
  exact error_ne_ok

/-- A debt the engine finds is the one the market reports. -/
theorem starts_owes {asset : String} {op : OpContext} (starts : Starts deps ctx w env asset op)
    (owes : op.debt ≠ 0) : OwesIn deps ctx w env op.market op.debt := by
  obtain ⟨tp, admitted, isOwner, _⟩ := starts.admitted
  unfold OpContext.debt at owes ⊢
  cases found : op.risk.marketPosition op.market.cToken with
  | none =>
    rw [found] at owes
    exact absurd rfl owes
  | some pos =>
    have located : op.risk.positions.find? (fun p => p.cToken = op.market.cToken) = some pos :=
      found
    have selected := List.find?_some located
    have isMarket : pos.cToken = op.market.cToken := of_decide_eq_true selected
    obtain ⟨snap, answered, isDebt⟩ :=
      computeRisk_reported starts.risk pos (List.mem_of_find?_eq_some found)
    rw [isMarket] at answered
    exact ⟨tp, op.owner, snap, admitted, isOwner, answered, isDebt.symm⟩

/-- A debt is one number. -/
theorem owesIn_unique {m : Market} {debt debt' : Nat} (owes : OwesIn deps ctx w env m debt)
    (owes' : OwesIn deps ctx w env m debt') : debt = debt' := by
  obtain ⟨tp, owner, snap, admitted, isOwner, answered, isDebt⟩ := owes
  obtain ⟨tp', owner', snap', admitted', isOwner', answered', isDebt'⟩ := owes'
  cases admits_unique admitted admitted'
  cases isOwner.symm.trans isOwner'
  cases answered.symm.trans answered'
  exact isDebt.symm.trans isDebt'

/-- When a repayment converges. -/
theorem converges_repay_iff {input : LendoraRepayInput}
    (asked : resultIn deps w env ((ApprovingCall.repay input).build deps evm ctx) =
      .ok (payload, some step)) :
    Converges deps evm ctx w env (.repay input) step ↔
      (ApprovingCall.repay input).Covered deps evm ctx w env := by
  obtain ⟨op, plan, starts, isPlan, isMinimum, isChain, awaits⟩ := repay_awaits asked
  rw [converges_iff awaits, isMinimum, isChain]
  rcases repayPlan_ok isPlan with ⟨whole, isFull, owes⟩ |
    ⟨notWhole, amount, below, accepted, isPart⟩
  · -- The label of the whole debt is no amount.
    rw [isFull]
    constructor
    · rintro ⟨_, _, places, approved, _, accepted, _⟩
      exact absurd accepted (full_not_accepted _ _)
    · rintro ⟨m, debt, amount, isMarket, owesDebt, notFull, accepted, below, _⟩
      cases starts.market.symm.trans isMarket
      cases owesIn_unique (starts_owes starts owes) owesDebt
      exact absurd whole (not_whole notFull accepted below)
  · have decides := sufficesOn_iff accepted env homeClient op.market.underlying
    have positive := (humanToBaseUnits_bounds accepted).1
    have owes := starts_owes starts (by omega)
    have notFull : input.full = false := by simpa using fun isFull => notWhole (.inl isFull)
    rw [isPart]
    constructor
    · rintro ⟨_, _, enough⟩
      exact ⟨op.market, op.debt, amount, starts.market, owes, notFull, accepted, below,
        decides.mp enough⟩
    · rintro ⟨m, debt, amount, isMarket, _, _, accepted', _, enough⟩
      cases starts.market.symm.trans isMarket
      exact ⟨starts.enabled, evmAssemblerFor_home deps evm, decides.mpr enough⟩

end Convergence

/-- A call that asks for an approval converges exactly when the approval covers it: the token
reports at least the decimals the call's amount was computed with, the source chain of a deposit
is one the approval reaches, and a repay names an amount below the debt instead of the whole. -/
theorem approve_then_retry_iff {deps : Deps} {evm : EvmDeps} {ctx : Context}
    {w : World} {env : Env} {call : ApprovingCall} {payload : Option EVMTxPayload}
    {step : ApprovalStep}
    (asked : Returns deps w env (call.build deps evm ctx) (.ok (payload, some step))) :
    Converges deps evm ctx w env call step ↔ call.Covered deps evm ctx w env := by
  have asked := build_returns_iff.mp asked
  cases call with
  | bridge direction input => exact converges_bridge_iff asked
  | supply input => exact converges_supply_iff asked
  | repay input => exact converges_repay_iff asked

/-- A deposit of seven base units, above the allowance of six. -/
def shortDeposit : ApprovingCall :=
  .bridge .outbound ⟨"Sepolia", "usdc", "0.000007", "", "first"⟩

/-- The approval a result asks for, if it asks for one. -/
def stepOf : Except Fault (Option EVMTxPayload × Option ApprovalStep) → Option ApprovalStep
  | .ok out => out.2
  | .error _ => none

/-- A step comes with a result. -/
theorem exists_of_stepOf {h : Handler (Option EVMTxPayload × Option ApprovalStep)}
    {deps : Deps} {w : World} {env : Env} {step : ApprovalStep}
    (isStep : stepOf (resultIn deps w env h) = some step) :
    ∃ payload, resultIn deps w env h = .ok (payload, some step) := by
  cases result : resultIn deps w env h with
  | error fault =>
    rw [result] at isStep
    cases isStep
  | ok out =>
    obtain ⟨payload, found⟩ := out
    rw [result] at isStep
    cases isStep
    exact ⟨payload, rfl⟩

/-- The deposit of seven base units of a token with the decimals of the registry converges. -/
theorem approve_then_retry_iff_usdc : ∃ payload step,
    Returns meterDeps meterWorld meterEnv
      (shortDeposit.build meterDeps bridgeEvm ownerContext)
      (.ok (payload, some step)) ∧
    Converges meterDeps bridgeEvm ownerContext meterWorld meterEnv shortDeposit
      step := by
  obtain ⟨step, isStep⟩ := Option.isSome_iff_exists.mp (show (stepOf (resultIn meterDeps meterWorld
    meterEnv (shortDeposit.build meterDeps bridgeEvm ownerContext))).isSome = true
      by decide +kernel)
  obtain ⟨payload, asked⟩ := exists_of_stepOf isStep
  have asked := build_returns_iff.mpr asked
  refine ⟨payload, step, asked, (approve_then_retry_iff asked).mpr ⟨rfl, ?_⟩⟩
  obtain ⟨leg, resolved⟩ := exists_of_isOk (show (BridgeDirection.outbound.leg meterDeps bridgeEvm
    ⟨"Sepolia", "usdc", "0.000007", "", "first"⟩).isOk = true by decide +kernel)
  have known : ((BridgeDirection.outbound.leg meterDeps bridgeEvm
      ⟨"Sepolia", "usdc", "0.000007", "", "first"⟩).toOption.map
        fun leg => (leg.srcChainID, leg.client, leg.route.decimals)) =
      some (1, homeClient, 6) := by decide +kernel
  rw [resolved] at known
  have parts := Option.some.inj known
  simp only [Prod.mk.injEq] at parts
  obtain ⟨isChain, isClient, isDecimals⟩ := parts
  refine ⟨leg, resolved, ?_, ?_⟩
  · rw [isChain, isClient]
    rfl
  · rw [isClient, isDecimals]
    refine ⟨6, ⟨Abi.word 6, rfl, by decide +kernel⟩, by decide, by decide, ⟨7000000000000⟩, ?_⟩
    decide +kernel

/-- The repay of the whole debt of 80, at a node whose allowances are six. -/
def fullRepay : ApprovingCall := .repay ⟨"usdt", "", true, "first"⟩

/-- Approving does not always converge: a repay of the whole debt asks for an approval of `full`,
which is no amount. -/
theorem full_repay_not_converging :
    ¬ ∀ (deps : Deps) (evm : EvmDeps) (ctx : Context) (w : World) (env : Env)
      (call : ApprovingCall) (payload : Option EVMTxPayload) (step : ApprovalStep),
      Returns deps w env (call.build deps evm ctx) (.ok (payload, some step)) →
      Converges deps evm ctx w env call step := by
  intro all
  obtain ⟨step, isStep⟩ := Option.isSome_iff_exists.mp (show (stepOf (resultIn meterDeps lendWorld
    (chainEnv twoMarkets twoSymbols) (fullRepay.build meterDeps lendEvm
      ownerContext))).isSome = true by decide +kernel)
  obtain ⟨payload, asked⟩ := exists_of_stepOf isStep
  have converges := all _ _ _ _ _ _ _ _ (build_returns_iff.mpr asked)
  obtain ⟨m, debt, amount, _, _, notFull, _⟩ := (converges_repay_iff asked).mp converges
  cases notFull

end SvpMcp
