import SvpMcp.Model.BridgeRegistry
import SvpMcp.Model.EvmPayload

/-!
# The tools that build EVM transactions

The ERC-20, swap and bridge tools of `tools/erc.go`, `tools/swap.go` and `tools/bridge.go`, from
the request to the payload.
-/

namespace SvpMcp

open Calendar Handler

/-- `Deps.EVM`, without the client and the router, which `Deps` has. -/
structure EvmDeps where
  homeChainID : UInt64
  /-- The contract of `Bridge`, if configured. -/
  bridge : Option Address
  /-- `BridgeRoutes`, if configured. -/
  bridgeRoutes : Option Registry
  bridgeSourceChainID : UInt64
  /-- The bridge contract of each of the `ForeignChains`. -/
  foreignBridge : UInt64 → Address
  /-- The Comptroller of `Lendora`, if configured. -/
  comptroller : Option Address

/-- The calldata of `transfer`. -/
def packERC20Transfer (recipient : Address) (amount : Int) : Bytes :=
  Abi.pack "transfer(address,uint256)" [.address recipient, .uint amount]

/-- `PackERC20Approve`, and `PackApprove` of the router's binding. -/
def packERC20Approve (spender : Address) (amount : Int) : Bytes :=
  Abi.pack "approve(address,uint256)" [.address spender, .uint amount]

/-- The calldata of `transferFrom`. -/
def packERC20TransferFrom (sender recipient : Address) (amount : Int) : Bytes :=
  Abi.pack "transferFrom(address,address,uint256)"
    [.address sender, .address recipient, .uint amount]

/-- `PackERC20Allowance`, and `PackAllowance` of the router's binding. -/
def packERC20Allowance (owner spender : Address) : Bytes :=
  Abi.pack "allowance(address,address)" [.address owner, .address spender]

/-- `PackERC20Decimals`, and `PackDecimals` of the router's binding. -/
def packERC20Decimals : Bytes :=
  Abi.pack "decimals()" []

/-- The calldata of a quote. -/
def packGetAmountsOut (amountIn : Int) (path : List Address) : Bytes :=
  Abi.pack "getAmountsOut(uint256,address[])" [.uint amountIn, .addresses path]

/-- The calldata of a swap of tokens. -/
def packSwapExactTokensForTokens (amountIn amountOutMin : Int) (path : List Address)
    (recipient : Address) (deadline : Int) : Except String Bytes :=
  Abi.tryPack "swapExactTokensForTokens(uint256,uint256,address[],address,uint256)"
    [.uint amountIn, .uint amountOutMin, .addresses path, .address recipient, .uint deadline]

/-- The calldata of a swap that gives the native coin. -/
def packSwapExactSVPForTokens (amountOutMin : Int) (path : List Address) (recipient : Address)
    (deadline : Int) : Except String Bytes :=
  Abi.tryPack "swapExactSVPForTokens(uint256,address[],address,uint256)"
    [.uint amountOutMin, .addresses path, .address recipient, .uint deadline]

/-- The calldata of a swap that takes the native coin. -/
def packSwapExactTokensForSVP (amountIn amountOutMin : Int) (path : List Address)
    (recipient : Address) (deadline : Int) : Except String Bytes :=
  Abi.tryPack "swapExactTokensForSVP(uint256,uint256,address[],address,uint256)"
    [.uint amountIn, .uint amountOutMin, .addresses path, .address recipient, .uint deadline]

/-- The calldata of a token deposit. -/
def packDeposit (token : Address) (amount : Int) (targetChainID : UInt64)
    (targetToken destination : Address) : Bytes :=
  Abi.pack "deposit(address,uint256,uint64,address,address)"
    [.address token, .uint amount, .uint targetChainID.toNat, .address targetToken,
      .address destination]

/-- The calldata of a deposit of the native coin. -/
def packDepositNative (targetChainID : UInt64) (targetToken destination : Address) : Bytes :=
  Abi.pack "depositNative(uint64,address,address)"
    [.uint targetChainID.toNat, .address targetToken, .address destination]

/-- A result of a contract, as its decoder reports an error. -/
def unpacked {α : Type} (method : String) (result : Option α) : Except Err α :=
  match result with
  | some value => .ok value
  | none => .error (.wrap ("decode " ++ method ++ ": %w") [] (.external "abi"))

/-- The amounts of a quote. -/
def unpackAmounts (data : Bytes) : Except Err (List Nat) := do
  let amounts ← unpacked "getAmountsOut" (Abi.unpackUints data)
  refuseIf (amounts = []) (.errorf ⟨"getAmountsOut returned an unexpected shape", []⟩)
  return amounts

/-- The largest word. -/
def maxUint256 : Int := 2 ^ 256 - 1

variable (deps : Deps)

/-- Refuse when EVM is not enabled. -/
def requireEVM : Handler Unit :=
  require deps.evmEnabled
    (.errorf ⟨"EVM is not enabled on this server (no evm_rpc_url configured)", []⟩)

/-- Read an address of a request. -/
def parseEVMAddress (s field : String) : Except Err Address :=
  let t := Strings.trimSpace s.toList
  if Address.isHex t then .ok (.ofHex (String.ofList t))
  else .error (.errorf ⟨"%s %q is not a valid 0x address", [field, s]⟩)

/-- `erc20DecimalsOn`, and `tokenDecimals` of a token. -/
def erc20DecimalsOn (client : EvmClient) (token : Address) : Handler Int := do
  let (out : Bytes) ← evmRead client (.callContract token packERC20Decimals)
    "read decimals for %s (is it an ERC-20?): %w" [token.hex]
  let dec ← ofResult ((unpacked "decimals" (Abi.unpackUint8 out)).mapError fun e =>
    .wrap "read decimals for %s: %w" [token.hex] e)
  return (dec : Int)

/-- `evmAssemblerFor` — the client of a chain; its assembler is bound to it. -/
def evmAssemblerFor (evm : EvmDeps) (chainID : UInt64) : Except Err EvmClient :=
  if chainID = 0 ∨ chainID = evm.homeChainID then .ok homeClient
  else if chainID ∈ deps.foreignChains then .ok (some chainID)
  else .error (.errorf
    ⟨"chain_id %d is not configured on this server (no home or evm_foreign_chain match)",
      [Registry.formatID chainID]⟩)

/-- Assemble a call without value. -/
def assembleERC (client : EvmClient) (owner : String) (recipient : Address) (data : Bytes)
    (clientID toolName description : String) : Handler EVMTxPayload := do
  let sender ← ofResult (ownerEthAddress deps.codec owner)
  assembleEVM client { clientID, sender, recipient, data, summary := ⟨toolName, description⟩ }

/-- The base amount of a human one, with the prefix of its argument. -/
def baseAmount (argument human : String) (decimals : Int) : Handler Int :=
  ofCall (wrapFault (argument ++ ": %w") (humanToBaseUnits human decimals))

/-- The arguments of `build_erc20_transfer`. -/
structure BuildERC20TransferInput where
  token : String
  recipient : String
  amount : String
  clientID : String
deriving DecidableEq, Repr

variable (ctx : Context)

/-- The tool `build_erc20_transfer`. -/
def buildERC20Transfer (input : BuildERC20TransferInput) : Handler EVMTxPayload := do
  let tp ← authorize ctx "build_erc20_transfer"
  requireEVM deps
  let token ← ofResult (parseEVMAddress input.token "token")
  let recipient ← ofResult (parseEVMAddress input.recipient "to")
  let dec ← erc20DecimalsOn homeClient token
  let amount ← baseAmount "amount" input.amount dec
  assembleERC deps homeClient tp.owner token (packERC20Transfer recipient amount) input.clientID
    "build_erc20_transfer"
    ("transfer " ++ input.amount ++ " of " ++ token.hex ++ " to " ++ recipient.hex)

/-- The arguments of `build_erc20_approve`. -/
structure BuildERC20ApproveInput where
  token : String
  spender : String
  /-- The allowance, in human units. -/
  amount : String
  unlimited : Bool
  /-- The chain; zero is the home chain. -/
  chainID : UInt64
  clientID : String
deriving DecidableEq, Repr

/-- The allowance of an approval, and its label. -/
def approvalAmount (client : EvmClient) (token : Address) (amount : String) (unlimited : Bool) :
    Handler (Int × String) :=
  if unlimited then return (maxUint256, "unlimited")
  else do
    let dec ← erc20DecimalsOn client token
    let base ← baseAmount "amount" amount dec
    return (base, amount)

/-- The tool `build_erc20_approve`. -/
def buildERC20Approve (evm : EvmDeps) (ctx : Context) (input : BuildERC20ApproveInput) :
    Handler EVMTxPayload := do
  let tp ← authorize ctx "build_erc20_approve"
  requireEVM deps
  let client ← ofResult (evmAssemblerFor deps evm input.chainID)
  let token ← ofResult (parseEVMAddress input.token "token")
  let spender ← ofResult (parseEVMAddress input.spender "spender")
  let (amount, label) ← approvalAmount client token input.amount input.unlimited
  assembleERC deps client tp.owner token (packERC20Approve spender amount) input.clientID
    "build_erc20_approve"
    ("approve " ++ spender.hex ++ " to spend " ++ label ++ " of " ++ token.hex)

/-- The arguments of `build_erc20_transfer_from`. -/
structure BuildERC20TransferFromInput where
  token : String
  /-- Whose tokens are pulled. -/
  sender : String
  recipient : String
  amount : String
  clientID : String
deriving DecidableEq, Repr

/-- The tool `build_erc20_transfer_from`. -/
def buildERC20TransferFrom (input : BuildERC20TransferFromInput) : Handler EVMTxPayload := do
  let tp ← authorize ctx "build_erc20_transfer_from"
  requireEVM deps
  let token ← ofResult (parseEVMAddress input.token "token")
  let sender ← ofResult (parseEVMAddress input.sender "from")
  let recipient ← ofResult (parseEVMAddress input.recipient "to")
  let dec ← erc20DecimalsOn homeClient token
  let amount ← baseAmount "amount" input.amount dec
  assembleERC deps homeClient tp.owner token (packERC20TransferFrom sender recipient amount)
    input.clientID "build_erc20_transfer_from"
    ("transferFrom " ++ sender.hex ++ " -> " ++ recipient.hex ++ ", " ++ input.amount ++ " of " ++
      token.hex)

end SvpMcp
