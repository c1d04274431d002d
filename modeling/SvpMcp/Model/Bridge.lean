import SvpMcp.Model.EvmTools

/-!
# The bridge tools

The deposit tools of `tools/bridge.go`. An ERC-20 whose allowance is short yields an approval step
in place of a payload.
-/

namespace SvpMcp

open Handler

/-- `bridgeLeg`; the client stands for the assembler bound to it as well. -/
structure BridgeLeg where
  route : Route
  srcChainID : UInt64
  destChainID : UInt64
  bridge : Address
  client : EvmClient
deriving DecidableEq

/-- The approval a deposit waits for. -/
structure BridgeApproval where
  tool : String
  token : String
  spender : String
  minAmount : String
  chainID : UInt64
  retryTool : String
  message : String
deriving DecidableEq, Repr

/-- `BridgeDepositOutput`; without a payload it asks for an approval. -/
structure BridgeDepositOutput where
  /-- The payload; absent is the zero payload. -/
  payload : Option EVMTxPayload
  sourceChainID : UInt64
  destChainID : UInt64
  symbol : String
  sourceToken : String
  targetToken : String
  recipient : String
  amountBase : String
  approvalRequired : Option BridgeApproval
deriving DecidableEq, Repr

/-- How a token is shown. -/
def bridgeTokenLabel (token : Address) : String :=
  if token = .zero then "native" else token.hex

variable (deps : Deps)

/-- `bridgeParties` — the owner's address and the recipient. -/
def bridgeParties (owner recipientArg : String) :
    Except Err (Address × Address) := do
  let sender ← ownerEthAddress deps.codec owner
  if recipientArg = "" then return (sender, sender)
  else
    let recipient ← parseEVMAddress recipientArg "recipient"
    return (sender, recipient)

/-- `checkBridgeAllowance` — the approval that is missing, if any. -/
def checkBridgeAllowance (leg : BridgeLeg) (owner : Address) (amount : Int)
    (amountHuman retryTool : String) : Handler (Option BridgeApproval) := do
  let token := leg.route.srcToken
  let (out : Bytes) ← evmRead leg.client (.callContract token (packERC20Allowance owner leg.bridge))
    "read allowance for %s: %w" [token.hex]
  let allowance ← ofResult (unpacked "allowance" (Abi.unpackUint out))
  if (allowance : Int) < amount then
    return some {
      tool := "build_erc20_approve", token := token.hex, spender := leg.bridge.hex
      minAmount := amountHuman, chainID := leg.srcChainID, retryTool
      message := "bridge allowance for " ++ token.hex ++
        " is insufficient — call build_erc20_approve (token " ++ token.hex ++ ", spender " ++
        leg.bridge.hex ++ ", amount >= " ++ amountHuman ++ ", chain_id " ++
        Registry.formatID leg.srcChainID ++ ") first, then retry " ++ retryTool }
  else return none

/-- The end of `assembleBridgeDeposit`. -/
def assembleDeposit (leg : BridgeLeg) (sender recipient : Address) (amount : Int)
    (data : Bytes) (value : Option Int) (amountHuman clientID toolName : String) :
    Handler BridgeDepositOutput := do
  let payload ← assembleEVM leg.client {
    clientID, sender, recipient := leg.bridge, data, value
    summary := ⟨toolName, "bridge " ++ amountHuman ++ " " ++ leg.route.symbol ++ " from chain " ++
      Registry.formatID leg.srcChainID ++ " to chain " ++ Registry.formatID leg.destChainID ++
      " (recipient " ++ recipient.hex ++ ")"⟩ }
  return {
    payload := some payload
    sourceChainID := leg.srcChainID
    destChainID := leg.destChainID
    symbol := leg.route.symbol
    sourceToken := bridgeTokenLabel leg.route.srcToken
    targetToken := bridgeTokenLabel leg.route.targetToken
    recipient := recipient.hex
    amountBase := String.ofList (Decimal.print amount)
    approvalRequired := none }

/-- The output that asks for an approval. -/
def approvalFirst (leg : BridgeLeg) (recipient : Address) (amount : Int)
    (approval : BridgeApproval) : BridgeDepositOutput where
  payload := none
  sourceChainID := leg.srcChainID
  destChainID := leg.destChainID
  symbol := leg.route.symbol
  sourceToken := bridgeTokenLabel leg.route.srcToken
  targetToken := bridgeTokenLabel leg.route.targetToken
  recipient := recipient.hex
  amountBase := String.ofList (Decimal.print amount)
  approvalRequired := some approval

/-- The ERC-20 branch of `assembleBridgeDeposit`. -/
def assembleTokenDeposit (leg : BridgeLeg) (sender recipient : Address) (amount : Int)
    (amountHuman clientID toolName : String) : Handler BridgeDepositOutput := do
  let missing ← checkBridgeAllowance leg sender amount amountHuman toolName
  match missing with
  | some approval => return approvalFirst leg recipient amount approval
  | none =>
    assembleDeposit leg sender recipient amount
      (packDeposit leg.route.srcToken amount leg.destChainID leg.route.targetToken recipient) none
      amountHuman clientID toolName

/-- The deposit of one leg. -/
def assembleBridgeDeposit (leg : BridgeLeg) (sender recipient : Address)
    (amountHuman clientID toolName : String) : Handler BridgeDepositOutput := do
  let amount ← baseAmount "amount" amountHuman leg.route.decimals
  if leg.route.nativeSource then
    -- The native coin rides as the value.
    assembleDeposit leg sender recipient amount
      (packDepositNative leg.destChainID leg.route.targetToken recipient) (some amount)
      amountHuman clientID toolName
  else assembleTokenDeposit leg sender recipient amount amountHuman clientID toolName

variable (evm : EvmDeps) (ctx : Context)

/-- What the two directions share. -/
def buildBridge (tool amount recipientArg clientID : String) (resolveLeg : Except Err BridgeLeg) :
    Handler BridgeDepositOutput := do
  let tp ← authorize ctx tool
  let (sender, recipient) ← ofResult (bridgeParties deps tp.owner recipientArg)
  let leg ← ofResult resolveLeg
  assembleBridgeDeposit leg sender recipient amount clientID tool

/-- A registry's error, as `userErrf("%s", err.Error())` reports it. -/
def registryError {α : Type} (result : Except Errorf α) : Except Err α :=
  result.mapError .errorf

/-- `requireBridge` — the contract, the routes and the source chain. -/
def requireBridge : Except Err (Address × Registry × UInt64) :=
  if deps.evmEnabled = false then
    .error (.errorf ⟨"EVM is not enabled on this server (no evm_rpc_url configured)", []⟩)
  else
    match evm.bridge, evm.bridgeRoutes with
    | some contract, some routes => .ok (contract, routes, evm.bridgeSourceChainID)
    | _, _ => .error (.errorf ⟨"bridging is not enabled on this server " ++
        "(no evm_bridge_addr / evm_bridge_routes_path configured)", []⟩)

/-- `BuildBridgeDepositInput` and `BuildBridgeDepositInboundInput`. -/
structure BuildBridgeDepositInput where
  /-- The chain at the other end. -/
  otherChain : String
  token : String
  amount : String
  /-- Who receives it; empty is the owner. -/
  recipient : String
  clientID : String
deriving DecidableEq, Repr

/-- The leg of `BuildBridgeDeposit`. -/
def outboundLeg (input : BuildBridgeDepositInput) :
    Except Err BridgeLeg := do
  let (contract, routes, srcChainID) ← requireBridge deps evm
  let destChainID ← registryError (routes.resolveDestChain input.otherChain srcChainID)
  let route ← registryError (routes.lookup srcChainID destChainID input.token)
  return ⟨route, srcChainID, destChainID, contract, homeClient⟩

/-- The tool `build_bridge_deposit`. -/
def buildBridgeDeposit (input : BuildBridgeDepositInput) : Handler BridgeDepositOutput :=
  buildBridge deps ctx "build_bridge_deposit" input.amount input.recipient input.clientID
    (outboundLeg deps evm input)

/-- `requireInboundBridge` — the routes; the home chain and the foreign chains are in `evm` and
`deps`. -/
def requireInboundBridge : Except Err Registry :=
  match evm.bridgeRoutes with
  | none => .error (.errorf ⟨"bridging is not enabled on this server " ++
      "(no evm_bridge_addr / evm_bridge_routes_path configured)", []⟩)
  | some routes =>
    if deps.foreignChains = [] then
      .error (.errorf
        ⟨"inbound bridging is not enabled on this server (no evm_foreign_chain configured)", []⟩)
    else .ok routes

/-- The leg of `BuildBridgeDepositInbound`. -/
def inboundLeg (input : BuildBridgeDepositInput) :
    Except Err BridgeLeg := do
  let routes ← requireInboundBridge deps evm
  let srcChainID ← registryError (routes.resolveSourceChain input.otherChain evm.homeChainID)
  refuseIf (srcChainID ∉ deps.foreignChains) (.errorf
    ⟨"source chain %d has an inbound route but is not configured for inbound bridging (no " ++
      "matching evm_foreign_chain)", [Registry.formatID srcChainID]⟩)
  let route ← registryError (routes.lookup srcChainID evm.homeChainID input.token)
  return ⟨route, srcChainID, evm.homeChainID, evm.foreignBridge srcChainID, some srcChainID⟩

/-- The tool `build_bridge_deposit_inbound`. -/
def buildBridgeDepositInbound (input : BuildBridgeDepositInput) : Handler BridgeDepositOutput :=
  buildBridge deps ctx "build_bridge_deposit_inbound" input.amount input.recipient input.clientID
    (inboundLeg deps evm input)

end SvpMcp
