import SvpMcp.Verif.BridgeDeposits
import SvpMcp.Verif.LendoraReads

/-!
# Calls that wait for an approval

`Converges` says what the answer to a short allowance promises: the approval can be built, and with
the allowance it sets the call goes through. `Awaits` says what such a call reads.
-/

namespace SvpMcp

open Handler Program

variable {α : Type} {client : EvmClient} {deps : Deps} {evm : EvmDeps} {ctx : Context}
  {w : World} {env later : Env}

/-- A read returns what the chain answers. -/
@[simp]
theorem resultIn_evmRead {query : EvmQuery} {format : String} {operands : List String}
    {answer : EvmAnswer query} :
    resultIn (α := no_index (EvmAnswer query)) deps w env (evmRead client query format operands) =
      .ok answer ↔
      env.evm client query = .ok answer := by
  simp [evmRead]
  rfl

/-- An amount is accepted when its units are. -/
@[simp]
theorem resultIn_baseAmount {argument human : String} {decimals amount : Int} :
    resultIn deps w env (baseAmount argument human decimals) = .ok amount ↔
      humanToBaseUnits human decimals = .ok amount := by
  simp [baseAmount]

/-- The decimals a token reports. -/
def TokenDecimals (env : Env) (client : EvmClient) (token : Address) (decimals : Nat) : Prop :=
  ∃ out : Bytes, env.evm client (.callContract token packERC20Decimals) = .ok out ∧
    Abi.unpackUint8 out = some decimals

/-- The decimals that are returned are those the token reports. -/
@[simp]
theorem resultIn_erc20DecimalsOn {token : Address} {decimals : Int} :
    resultIn deps w env (erc20DecimalsOn client token) = .ok decimals ↔
      ∃ places : Nat, decimals = places ∧ TokenDecimals env client token places := by
  simp [erc20DecimalsOn, TokenDecimals]
  constructor
  · rintro ⟨out, answered, places, isPlaces, rfl⟩
    exact ⟨places, rfl, out, answered, isPlaces⟩
  · rintro ⟨places, rfl, out, answered, isPlaces⟩
    exact ⟨out, answered, places, isPlaces, rfl⟩

/-- The node of a client answers what a transaction is assembled from. -/
structure Assembles (env : Env) (client : EvmClient) : Prop where
  chainID : ∃ id : Int, env.evm client .chainID = .ok id
  nonce : ∀ account, ∃ nonce : UInt64, env.evm client (.pendingNonceAt account) = .ok nonce
  tip : ∃ tip : Int, env.evm client .suggestGasTipCap = .ok tip
  baseFee : ∃ fee : Int, env.evm client .baseFee = .ok fee
  gas : ∀ msg, ∃ gas : UInt64, env.evm client (.estimateGas msg) = .ok gas

/-- Assembling changes no store. -/
theorem assembleEVM_quiet (client : EvmClient) (args : EVMArgs) :
    Only (LeavesWorld deps) (assembleEVM client args) :=
  assembleEVM_only (fun _ _ _ => rfl) (fun _ _ => rfl) args

/-- An assembled payload is the sender's and makes the call it was assembled for. -/
theorem assembleEVM_result {args : EVMArgs} {p : EVMTxPayload}
    (isPayload : resultIn deps w env (assembleEVM client args) = .ok p) :
    p.signerAddress = args.sender.hex ∧ p.Calls args.recipient (args.value.getD 0) args.data := by
  obtain ⟨_, _, run⟩ := (returns_iff (assembleEVM_quiet client args)).mpr isPayload
  exact ⟨assembleEVM_signer (alone_gives run), assembleEVM_calls (alone_gives run)⟩

/-- A node that answers yields a payload. -/
theorem assembleEVM_returns (answers : Assembles env client) (args : EVMArgs) :
    ∃ p, resultIn deps w env (assembleEVM client args) = .ok p := by
  obtain ⟨id, isId⟩ := answers.chainID
  obtain ⟨nonce, isNonce⟩ := answers.nonce args.sender
  obtain ⟨tip, isTip⟩ := answers.tip
  obtain ⟨fee, isFee⟩ := answers.baseFee
  obtain ⟨gas, isGas⟩ := answers.gas
    ⟨args.sender, args.recipient, args.value.getD 0, args.data, fee * 2 + tip, tip⟩
  simp only [assembleEVM, resultIn_bind, resultIn_evmRead]
  exact ⟨_, id, isId, nonce, isNonce, tip, isTip, fee, isFee, gas, isGas, _, rfl, rfl⟩

/-- An allowance: whose tokens a spender may pull, and on which chain. -/
structure Grant where
  client : EvmClient
  token : Address
  owner : Address
  spender : Address
deriving DecidableEq

/-- The allowance a node reports. -/
def Grant.Is (g : Grant) (env : Env) (allowance : Nat) : Prop :=
  ∃ out : Bytes,
    env.evm g.client (.callContract g.token (packERC20Allowance g.owner g.spender)) = .ok out ∧
      Abi.unpackUint out = some allowance

/-- A payload of an owner that sets an allowance. -/
def EVMTxPayload.Approves (p : EVMTxPayload) (g : Grant) (amount : Nat) : Prop :=
  p.signerAddress = g.owner.hex ∧ p.Calls g.token 0 (packERC20Approve g.spender amount)

/-- The data give spender and amount. -/
theorem packERC20Approve_inj {spender spender' : Address} {amount amount' : Nat}
    (fits : amount < 2 ^ 256) (fits' : amount' < 2 ^ 256)
    (same : packERC20Approve spender amount = packERC20Approve spender' amount') :
    spender = spender' ∧ amount = amount' := by
  have spenders : Address.ofBytes (slice (packERC20Approve spender amount) (4 + 12) (4 + 32)) =
      spender := read_address (i := 0) selector_approve rfl rfl
  have spenders' : Address.ofBytes (slice (packERC20Approve spender' amount') (4 + 12) (4 + 32)) =
      spender' := read_address (i := 0) selector_approve rfl rfl
  have amounts : (BigEndian.read (slice (packERC20Approve spender amount) (4 + 32)
      (4 + 64)) : Int) = amount :=
    read_uint (i := 1) selector_approve rfl rfl (by omega) (by omega)
  have amounts' : (BigEndian.read (slice (packERC20Approve spender' amount') (4 + 32)
      (4 + 64)) : Int) = amount' :=
    read_uint (i := 1) selector_approve rfl rfl (by omega) (by omega)
  rw [same] at spenders amounts
  exact ⟨spenders.symm.trans spenders', by omega⟩

/-- A payload approves one amount. -/
theorem approves_unique {p : EVMTxPayload} {g g' : Grant} {amount amount' : Nat}
    (fits : amount < 2 ^ 256) (fits' : amount' < 2 ^ 256) (approves : p.Approves g amount)
    (approves' : p.Approves g' amount') :
    g.token = g'.token ∧ g.owner = g'.owner ∧ g.spender = g'.spender ∧ amount = amount' := by
  have owners : g.owner = g'.owner := Address.hex_inj (approves.1.symm.trans approves'.1)
  have ⟨tokens, _, calls⟩ := calls_unique approves.2 approves'.2
  have ⟨spenders, amounts⟩ := packERC20Approve_inj fits fits' calls
  exact ⟨tokens, owners, spenders, amounts⟩

/-- What a limited approval is built from. -/
structure Approvable (deps : Deps) (evm : EvmDeps) (ctx : Context) (w : World)
    (env : Env) (input : BuildERC20ApproveInput) (g : Grant) (amount : Int) : Prop where
  admitted : ∃ tp, Admits deps w env ctx tp ∧ ownerEthAddress deps.codec tp.owner = .ok g.owner
  enabled : deps.evmEnabled = true
  client : evmAssemblerFor deps evm input.chainID = .ok g.client
  token : parseEVMAddress input.token "token" = .ok g.token
  spender : parseEVMAddress input.spender "spender" = .ok g.spender
  limited : input.unlimited = false
  accepted : ∃ places : Nat, TokenDecimals env g.client g.token places ∧
    humanToBaseUnits input.amount places = .ok amount

section Approve

variable {input : BuildERC20ApproveInput} {p : EVMTxPayload}

/-- What is assembled for a token. -/
theorem assembleERC_result {owner clientID toolName description : String} {recipient : Address}
    {data : Bytes}
    (isPayload : resultIn deps w env (assembleERC deps client owner recipient data clientID toolName
      description) = .ok p) :
    ∃ sender, ownerEthAddress deps.codec owner = .ok sender ∧ p.signerAddress = sender.hex ∧
      p.Calls recipient 0 data := by
  obtain ⟨sender, isSender, isPayload⟩ := resultIn_bind.mp isPayload
  have ⟨signs, calls⟩ := assembleEVM_result isPayload
  exact ⟨sender, resultIn_ofResult.mp isSender, signs, calls⟩

/-- A node that answers has it assembled. -/
theorem assembleERC_returns {owner : String} {sender : Address}
    (isOwner : ownerEthAddress deps.codec owner = .ok sender) (answers : Assembles env client)
    (recipient : Address) (data : Bytes) (clientID toolName description : String) :
    ∃ p, resultIn deps w env
      (assembleERC deps client owner recipient data clientID toolName description) = .ok p :=
  exists_resultIn_bind (resultIn_ofResult.mpr isOwner) (assembleEVM_returns answers _)

/-- A payload of a limited approval approves what its request can be built from. -/
theorem buildERC20Approve_result (limited : input.unlimited = false)
    (isPayload : resultIn deps w env (buildERC20Approve deps evm ctx input) = .ok p) :
    ∃ g amount, Approvable deps evm ctx w env input g amount ∧ p.Approves g amount.toNat := by
  simp [buildERC20Approve, requireEVM, approvalAmount, limited] at isPayload
  obtain ⟨tp, admitted, enabled, client, isClient, token, isToken, spender, isSpender, places,
    reported, amount, accepted, isPayload⟩ := isPayload
  obtain ⟨owner, isOwner, signs, calls⟩ := assembleERC_result isPayload
  have whole : ((amount.toNat : Nat) : Int) = amount :=
    Int.toNat_of_nonneg (Int.le_of_lt (humanToBaseUnits_bounds accepted).1)
  refine ⟨⟨client, token, owner, spender⟩, amount, ?_, signs, ?_⟩
  · exact {
      admitted := ⟨tp, admitted, isOwner⟩
      enabled := enabled
      client := isClient
      token := isToken
      spender := isSpender
      limited := limited
      accepted := ⟨places, reported, accepted⟩ }
  · rw [whole]
    exact calls

/-- What a limited approval can be built from, it is built from, once the node answers. -/
theorem buildERC20Approve_returns {g : Grant} {amount : Int}
    (approvable : Approvable deps evm ctx w env input g amount)
    (answers : Assembles env g.client) :
    ∃ p, resultIn deps w env (buildERC20Approve deps evm ctx input) = .ok p := by
  obtain ⟨tp, admitted, isOwner⟩ := approvable.admitted
  obtain ⟨places, reported, accepted⟩ := approvable.accepted
  have isAmount : resultIn deps w env
      (approvalAmount g.client g.token input.amount input.unlimited) =
        .ok (amount, input.amount) := by
    simp [approvalAmount, approvable.limited]
    exact ⟨places, reported, accepted⟩
  obtain ⟨p, assembled⟩ := assembleERC_returns isOwner answers _ _ _ _ _
  simp only [buildERC20Approve, requireEVM, resultIn_bind, resultIn_authorize, resultIn_require,
    resultIn_ofResult]
  exact ⟨p, tp, admitted, (), approvable.enabled, _, approvable.client, _, approvable.token, _,
    approvable.spender, _, isAmount, assembled⟩

end Approve

/-- The contracts answer as before. -/
structure SameContracts (env later : Env) : Prop where
  reads : ∀ client contract data,
    later.evm client (.callContract contract data) = env.evm client (.callContract contract data)
  lendora : later.lendora = env.lendora

/-- An allowance has been set, and the contracts answer every other read as before. -/
structure Granted (g : Grant) (amount : Nat) (env later : Env) : Prop where
  allowance : later.evm g.client
    (.callContract g.token (packERC20Allowance g.owner g.spender)) = .ok (Abi.word amount)
  reads : ∀ client contract data,
    ¬ (client = g.client ∧ contract = g.token ∧ data = packERC20Allowance g.owner g.spender) →
    later.evm client (.callContract contract data) = env.evm client (.callContract contract data)
  lendora : later.lendora = env.lendora

/-- The tenant is let in, and the nodes answer what a transaction is assembled from. -/
structure Serves (deps : Deps) (w : World) (env : Env) (ctx : Context) : Prop where
  admits : ∃ tp, Admits deps w env ctx tp
  assembles : ∀ client, Assembles env client

/-- The approval a tool asks for, in the arguments of `build_erc20_approve`. -/
structure ApprovalStep where
  token : String
  spender : String
  minAmount : String
  chainID : UInt64
deriving DecidableEq, Repr

/-- The request for the approval. -/
def ApprovalStep.input (step : ApprovalStep) (clientID : String) : BuildERC20ApproveInput :=
  ⟨step.token, step.spender, step.minAmount, false, step.chainID, clientID⟩

/-- The calls that ask for an approval. -/
inductive ApprovingCall where
  | bridge (direction : BridgeDirection) (input : BuildBridgeDepositInput)
  | supply (input : LendoraSupplyInput)
  | repay (input : LendoraRepayInput)
deriving DecidableEq

/-- What a Lendora tool returns of a payload and of an approval. -/
def LendoraTxOutput.asked (out : LendoraTxOutput) : Option EVMTxPayload × Option ApprovalStep :=
  (out.payload, out.approvalRequired.map fun a => ⟨a.token, a.spender, a.minAmount, 0⟩)

/-- What a bridge tool returns of a payload and of an approval. -/
def BridgeDepositOutput.asked (out : BridgeDepositOutput) :
    Option EVMTxPayload × Option ApprovalStep :=
  (out.payload, out.approvalRequired.map fun a => ⟨a.token, a.spender, a.minAmount, a.chainID⟩)

/-- The payload of a call, or the approval that must come first. A Lendora approval is for the
home chain, the default of `build_erc20_approve`. -/
def ApprovingCall.build (deps : Deps) (evm : EvmDeps) (ctx : Context) :
    ApprovingCall → Handler (Option EVMTxPayload × Option ApprovalStep)
  | bridge direction input => return (← direction.build deps evm ctx input).asked
  | supply input => return (← lendoraBuildSupplyTx deps evm ctx input).asked
  | repay input => return (← lendoraBuildRepayTx deps evm ctx input).asked

/-- Approving converges: the approval of the step is built while the contracts answer as before,
and once the allowance it sets is in place the call returns a payload and asks for nothing. -/
def Converges (deps : Deps) (evm : EvmDeps) (ctx : Context) (w : World) (env : Env)
    (call : ApprovingCall) (step : ApprovalStep) : Prop :=
  ∃ (g : Grant) (amount : Nat), evmAssemblerFor deps evm step.chainID = .ok g.client ∧
    amount < 2 ^ 256 ∧
    (∀ later clientID, SameContracts env later → Serves deps w later ctx →
      ∃ p, Returns deps w later (buildERC20Approve deps evm ctx (step.input clientID)) (.ok p) ∧
        p.Approves g amount) ∧
    ∀ later, Granted g amount env later → Serves deps w later ctx →
      ∃ p, Returns deps w later (call.build deps evm ctx) (.ok (some p, none))

/-- The operations of the calls that ask for an approval, and of the approval. -/
structure AllowsBuilding (allowed : ServerOp → Prop) : Prop where
  tenants : ∀ id, allowed (.tenant id)
  rates : ∀ key, allowed (.rateAllow key)
  clock : allowed .now
  reads : ∀ client query, allowed (.evm client query)
  lendora : ∀ query, allowed (.lendora query)
  cache : allowed .lendoraCache

section Only

variable {allowed : ServerOp → Prop}

/-- An approval is built from reads. -/
theorem buildERC20Approve_only (allows : AllowsBuilding allowed) (deps : Deps) (evm : EvmDeps)
    (ctx : Context) (input : BuildERC20ApproveInput) :
    Only allowed (buildERC20Approve deps evm ctx input) := by
  have amounts (client : EvmClient) (token : Address) :
      Only allowed (approvalAmount client token input.amount input.unlimited) := by
    simp [approvalAmount, erc20DecimalsOn, baseAmount, allows.reads]
  simp [buildERC20Approve, requireEVM, assembleERC, authorize_only allows.tenants allows.rates,
    amounts, assembleEVM_only (allows.reads _) allows.clock]

/-- A deposit is built from reads. -/
theorem buildBridge_only (allows : AllowsBuilding allowed) (deps : Deps)
    (ctx : Context) (tool amount recipientArg clientID : String)
    (resolveLeg : Except Err BridgeLeg) :
    Only allowed (buildBridge deps ctx tool amount recipientArg clientID resolveLeg) := by
  simp [buildBridge, authorize_only allows.tenants allows.rates,
    assembleBridgeDeposit_only (allows.reads _) allows.clock]

/-- The reads of an account are among those of a build. -/
theorem AllowsBuilding.allowsLendora (allows : AllowsBuilding allowed) (owner : Address) :
    AllowsLendora allowed owner :=
  ⟨fun query _ => allows.lendora query, fun query _ => allows.lendora query, allows.cache⟩

/-- The start of an operation reads. -/
theorem opCommon_only (allows : AllowsBuilding allowed) (deps : Deps) (evm : EvmDeps)
    (ctx : Context) (tool asset : String) :
    Only allowed (opCommon deps evm ctx tool asset) := by
  simp [opCommon, requireLendora, requireEVM, authorize_only allows.tenants allows.rates,
    resolveAsset_only (fun query _ => allows.lendora query) allows.cache,
    computeRisk_only (allows.allowsLendora _) (allows.reads _ _)]

/-- The added collateral is read without an account. -/
theorem addedCollateral_only
    (plain : ∀ query : LendoraQuery, query.account = none → allowed (.lendora query))
    (cache : allowed .lendoraCache) (op : OpContext) (amount : Int) :
    Only allowed (addedCollateral op amount) := by
  simp [addedCollateral, cTokenUnderlyingPriceNativeVia_only plain cache, cTokenCollateralFactor,
    plain, LendoraQuery.account.eq_def]

/-- The end of an operation reads. -/
theorem finishWithAllowance_only (allows : AllowsBuilding allowed) (deps : Deps) (op : OpContext)
    (pull : Int) (data : Bytes) (amountLabel clientID tool description : String)
    (sim : LendoraSimulation) : Only allowed
      (finishWithAllowance deps op pull data amountLabel clientID tool description sim) := by
  have checks : Only allowed
      (checkLendoraAllowance op.market op.owner pull amountLabel tool) := by
    simp [checkLendoraAllowance, allows.reads]
  refine only_bind checks fun missing => ?_
  cases missing with
  | some approval => exact only_pure _
  | none => simp [finishOp, assembleERC, assembleEVM_only (allows.reads _) allows.clock]

/-- The calls that ask for an approval only read. -/
theorem build_only (allows : AllowsBuilding allowed) (deps : Deps) (evm : EvmDeps)
    (ctx : Context) (call : ApprovingCall) :
    Only allowed (call.build deps evm ctx) := by
  have plain : ∀ query : LendoraQuery, query.account = none → allowed (.lendora query) :=
    fun query _ => allows.lendora query
  cases call with
  | bridge direction input =>
    simp [ApprovingCall.build, BridgeDirection.build_eq, buildBridge_only allows]
  | supply input =>
    simp [ApprovingCall.build, lendoraBuildSupplyTx, baseAmount, opCommon_only allows,
      addedCollateral_only plain allows.cache, finishWithAllowance_only allows]
  | repay input =>
    simp [ApprovingCall.build, lendoraBuildRepayTx, opCommon_only allows,
      cTokenUnderlyingPriceNativeVia_only plain allows.cache, finishWithAllowance_only allows]

end Only

/-- Building changes no store. -/
theorem leavesWorld_allows (deps : Deps) : AllowsBuilding (LeavesWorld deps) where
  tenants _ _ _ := rfl
  rates _ _ _ := rfl
  clock _ _ := rfl
  reads _ _ _ _ := rfl
  lendora _ _ _ := rfl
  cache _ _ := rfl

/-- A run of the approval, as its result. -/
theorem approve_returns_iff {input : BuildERC20ApproveInput}
    {result : Except Fault EVMTxPayload} :
    Returns deps w env (buildERC20Approve deps evm ctx input) result ↔
      resultIn deps w env (buildERC20Approve deps evm ctx input) = result :=
  returns_iff (buildERC20Approve_only (leavesWorld_allows deps) _ _ _ _)

/-- A run of a call that asks for an approval, as its result. -/
theorem build_returns_iff {call : ApprovingCall}
    {result : Except Fault (Option EVMTxPayload × Option ApprovalStep)} :
    Returns deps w env (call.build deps evm ctx) result ↔
      resultIn deps w env (call.build deps evm ctx) = result :=
  returns_iff (build_only (leavesWorld_allows deps) _ _ _ _)

/-- Nodes that answer what a transaction is assembled from. -/
def Env.assembling (env : Env) : Env :=
  { env with
    evm := fun client query => match query with
      | .chainID => .ok (1 : Int)
      | .pendingNonceAt _ => .ok (0 : UInt64)
      | .suggestGasTipCap => .ok (1 : Int)
      | .baseFee => .ok (1 : Int)
      | .estimateGas _ => .ok (21000 : UInt64)
      | .callContract contract data => env.evm client (.callContract contract data)
      | .blockNumber => env.evm client .blockNumber }

/-- Such nodes, with an allowance in place. -/
def Env.granting (env : Env) (g : Grant) (amount : Nat) : Env :=
  { env with
    evm := fun client query => match query with
      | .callContract contract data =>
        if client = g.client ∧ contract = g.token ∧
            data = packERC20Allowance g.owner g.spender then .ok (Abi.word amount)
        else env.evm client (.callContract contract data)
      | other => env.assembling.evm client other }

/-- The node that assembles serves. -/
theorem assembling_serves {tp : TenantPolicy} (admitted : Admits deps w env ctx tp) :
    Serves deps w env.assembling ctx where
  admits := ⟨tp, admitted⟩
  assembles _ := ⟨⟨_, rfl⟩, fun _ => ⟨_, rfl⟩, ⟨_, rfl⟩, ⟨_, rfl⟩, fun _ => ⟨_, rfl⟩⟩

/-- It has the same contracts. -/
theorem assembling_sameContracts (env : Env) : SameContracts env env.assembling :=
  ⟨fun _ _ _ => rfl, rfl⟩

/-- So does the one that has granted. -/
theorem granting_serves {tp : TenantPolicy} (admitted : Admits deps w env ctx tp) (g : Grant)
    (amount : Nat) : Serves deps w (env.granting g amount) ctx where
  admits := ⟨tp, admitted⟩
  assembles _ := ⟨⟨_, rfl⟩, fun _ => ⟨_, rfl⟩, ⟨_, rfl⟩, ⟨_, rfl⟩, fun _ => ⟨_, rfl⟩⟩

/-- There the allowance is granted. -/
theorem granting_granted (env : Env) (g : Grant) (amount : Nat) :
    Granted g amount env (env.granting g amount) where
  allowance := if_pos ⟨rfl, rfl, rfl⟩
  reads _ _ _ other := if_neg other
  lendora := rfl

/-- What is granted is the allowance. -/
theorem granted_is {g : Grant} {amount : Nat} (fits : amount < 2 ^ 256)
    (granted : Granted g amount env later) : g.Is later amount :=
  ⟨Abi.word amount, granted.allowance, Abi.unpackUint_word fits⟩

/-- A call waits for an allowance of some amount: it asks for it while the allowance is short,
and returns a payload as soon as it is not. -/
structure Awaits (deps : Deps) (evm : EvmDeps) (ctx : Context) (w : World) (env : Env)
    (call : ApprovingCall) (step : ApprovalStep) (g : Grant) (amount : Int) : Prop where
  admitted : ∃ tp, Admits deps w env ctx tp ∧ ownerEthAddress deps.codec tp.owner = .ok g.owner
  token : step.token = g.token.hex
  spender : step.spender = g.spender.hex
  short : ∃ allowance : Nat, g.Is env allowance ∧ (allowance : Int) < amount
  resumes : ∀ later (allowance : Nat), later.lendora = env.lendora → Serves deps w later ctx →
    g.Is later allowance → amount ≤ allowance →
    ∃ p, resultIn deps w later (call.build deps evm ctx) = .ok (some p, none)
  waits : ∀ later (allowance : Nat) p, later.lendora = env.lendora → g.Is later allowance →
    (allowance : Int) < amount →
    resultIn deps w later (call.build deps evm ctx) ≠ .ok (some p, none)

/-- An address is read back. -/
theorem parseEVMAddress_hex (a : Address) (field : String) :
    parseEVMAddress a.hex field = .ok a := by
  rw [parseEVMAddress, Address.trimSpace_hex]
  simp only [Address.isHex_hex, if_true, String.ofList_toList, Address.ofHex_hex]

/-- What an approval is built from is determined by its request. -/
theorem approvable_unique {input : BuildERC20ApproveInput} {g g' : Grant} {amount amount' : Int}
    (approvable : Approvable deps evm ctx w env input g amount)
    (approvable' : Approvable deps evm ctx w env input g' amount') : g = g' ∧ amount = amount' := by
  obtain ⟨tp, admitted, isOwner⟩ := approvable.admitted
  obtain ⟨tp', admitted', isOwner'⟩ := approvable'.admitted
  cases admits_unique admitted admitted'
  have owners : g.owner = g'.owner := Except.ok.inj (isOwner.symm.trans isOwner')
  have clients : g.client = g'.client :=
    Except.ok.inj (approvable.client.symm.trans approvable'.client)
  have tokens : g.token = g'.token := Except.ok.inj (approvable.token.symm.trans approvable'.token)
  have spenders : g.spender = g'.spender :=
    Except.ok.inj (approvable.spender.symm.trans approvable'.spender)
  have grants : g = g' := by
    cases g
    cases g'
    cases owners
    cases clients
    cases tokens
    cases spenders
    rfl
  subst grants
  obtain ⟨places, ⟨out, answered, isUnpacked⟩, accepted⟩ := approvable.accepted
  obtain ⟨places', ⟨out', answered', isUnpacked'⟩, accepted'⟩ := approvable'.accepted
  cases answered.symm.trans answered'
  cases isUnpacked.symm.trans isUnpacked'
  exact ⟨rfl, Except.ok.inj (accepted.symm.trans accepted')⟩

section Condition

variable {call : ApprovingCall} {step : ApprovalStep} {g : Grant} {amount : Int}

/-- The approval a call waits for is built from the step it returns. -/
theorem awaits_approvable {approved : Int} {places : Nat} {clientID : String}
    (awaits : Awaits deps evm ctx w env call step g amount) (enabled : deps.evmEnabled = true)
    (client : evmAssemblerFor deps evm step.chainID = .ok g.client)
    (reported : TokenDecimals env g.client g.token places)
    (accepted : humanToBaseUnits step.minAmount places = .ok approved)
    (same : SameContracts env later) (serves : Serves deps w later ctx) :
    Approvable deps evm ctx w later (step.input clientID) g approved where
  admitted := by
    obtain ⟨tp, admitted, isOwner⟩ := awaits.admitted
    obtain ⟨tp', admitted'⟩ := serves.admits
    cases admits_unique admitted admitted'
    exact ⟨tp, admitted', isOwner⟩
  enabled := enabled
  client := client
  token := by
    rw [ApprovalStep.input, awaits.token]
    exact parseEVMAddress_hex _ _
  spender := by
    rw [ApprovalStep.input, awaits.spender]
    exact parseEVMAddress_hex _ _
  limited := rfl
  accepted := by
    obtain ⟨out, answered, isUnpacked⟩ := reported
    exact ⟨places, ⟨out, (same.reads _ _ _).trans answered, isUnpacked⟩, accepted⟩

/-- What a step's approval is built from is what the call waits for, but for the chain. -/
theorem approvable_awaited {built : Grant} {approved : Int} {clientID : String}
    (awaits : Awaits deps evm ctx w env call step g amount)
    (approvable : Approvable deps evm ctx w later (step.input clientID) built approved) :
    built = { g with client := built.client } := by
  have isToken : built.token = g.token := by
    have parsed := approvable.token
    rw [ApprovalStep.input, awaits.token, parseEVMAddress_hex] at parsed
    exact (Except.ok.inj parsed).symm
  have isSpender : built.spender = g.spender := by
    have parsed := approvable.spender
    rw [ApprovalStep.input, awaits.spender, parseEVMAddress_hex] at parsed
    exact (Except.ok.inj parsed).symm
  have isOwner : built.owner = g.owner := by
    obtain ⟨tp, admitted, isOwner⟩ := awaits.admitted
    obtain ⟨tp', admitted', isOwner'⟩ := approvable.admitted
    cases admits_unique admitted admitted'
    exact (Except.ok.inj (isOwner.symm.trans isOwner')).symm
  rw [← isToken, ← isSpender, ← isOwner]

/-- An allowance on another chain leaves the one a call waits for as it is. -/
theorem granting_elsewhere {other : Grant} {approved allowance : Nat} (is : g.Is env allowance)
    (elsewhere : other.client ≠ g.client) : g.Is (env.granting other approved) allowance := by
  obtain ⟨out, answered, isUnpacked⟩ := is
  have untouched := (granting_granted env other approved).reads g.client g.token
    (packERC20Allowance g.owner g.spender) fun here => elsewhere here.1.symm
  exact ⟨out, untouched.trans answered, isUnpacked⟩

/-- A payload after the retry shows that the allowance was set where the call looks, and that it
is enough. -/
theorem retried_covers {other : Grant} {approved : Nat} {p : EVMTxPayload}
    (awaits : Awaits deps evm ctx w env call step g amount) (fits : approved < 2 ^ 256)
    (isOther : other = { g with client := other.client })
    (retried : resultIn deps w (env.granting other approved) (call.build deps evm ctx) =
      .ok (some p, none)) : other = g ∧ amount ≤ approved := by
  have granted := granting_granted env other approved
  have onChain : other.client = g.client := by
    by_contra elsewhere
    obtain ⟨allowance, is, less⟩ := awaits.short
    exact awaits.waits (env.granting other approved) allowance p granted.lendora
      (granting_elsewhere is elsewhere) less retried
  rw [onChain] at isOther
  subst isOther
  refine ⟨rfl, ?_⟩
  by_contra more
  exact awaits.waits (env.granting g approved) approved p granted.lendora
    (granted_is fits granted) (Int.not_le.mp more) retried

/-- A call that waits converges exactly when the approval it asks for goes to its chain and, at
the decimals the token reports there, is at least the amount it waits for. -/
theorem converges_iff (awaits : Awaits deps evm ctx w env call step g amount) :
    Converges deps evm ctx w env call step ↔
      deps.evmEnabled = true ∧ evmAssemblerFor deps evm step.chainID = .ok g.client ∧
        ∃ (places : Nat) (approved : Int), TokenDecimals env g.client g.token places ∧
          humanToBaseUnits step.minAmount places = .ok approved ∧ amount ≤ approved := by
  obtain ⟨tp, admitted, isOwner⟩ := awaits.admitted
  constructor
  · rintro ⟨granted, approved, isClient, fits, approves, retries⟩
    obtain ⟨p, returned, isApproval⟩ := approves env.assembling ""
      (assembling_sameContracts env) (assembling_serves admitted)
    obtain ⟨built, base, approvable, isBuilt⟩ :=
      buildERC20Approve_result rfl (approve_returns_iff.mp returned)
    obtain ⟨places, reported, accepted⟩ := approvable.accepted
    have ⟨positive, bounded⟩ := humanToBaseUnits_bounds accepted
    have fitsToo : base.toNat < 2 ^ 256 := by omega
    have ⟨tokens, owners, spenders, amounts⟩ := approves_unique fits fitsToo isApproval isBuilt
    have sameClient : granted.client = built.client :=
      Except.ok.inj (isClient.symm.trans approvable.client)
    have isGranted : granted = built := by
      cases granted
      cases built
      cases tokens
      cases owners
      cases spenders
      cases sameClient
      rfl
    subst isGranted
    obtain ⟨p', retried⟩ := retries (env.granting granted approved)
      (granting_granted env granted approved) (granting_serves admitted granted approved)
    have ⟨here, enough⟩ := retried_covers awaits fits (approvable_awaited awaits approvable)
      (build_returns_iff.mp retried)
    subst here
    have isBase : base = approved := by omega
    exact ⟨approvable.enabled, isClient, places, base, reported, accepted, isBase ▸ enough⟩
  · rintro ⟨enabled, isClient, places, approved, reported, accepted, enough⟩
    have ⟨positive, bounded⟩ := humanToBaseUnits_bounds accepted
    have whole : (approved.toNat : Int) = approved := Int.toNat_of_nonneg (Int.le_of_lt positive)
    have fits : approved.toNat < 2 ^ 256 := by omega
    refine ⟨g, approved.toNat, isClient, fits, ?_, ?_⟩
    · intro later clientID same serves
      have approvable : Approvable deps evm ctx w later (step.input clientID) g approved :=
        awaits_approvable awaits enabled isClient reported accepted same serves
      obtain ⟨p, returned⟩ := buildERC20Approve_returns approvable (serves.assembles g.client)
      obtain ⟨built, base, approvable', isBuilt⟩ := buildERC20Approve_result rfl returned
      have ⟨isGrant, isBase⟩ := approvable_unique approvable' approvable
      rw [isGrant, isBase] at isBuilt
      exact ⟨p, approve_returns_iff.mpr returned, isBuilt⟩
    · intro later granted serves
      obtain ⟨p, returned⟩ := awaits.resumes later approved.toNat granted.lendora serves
        (granted_is fits granted) (whole ▸ enough)
      exact ⟨p, build_returns_iff.mpr returned⟩

end Condition

end SvpMcp
