import SvpMcp.Model.EvmTools

/-!
# The ERC-721 tools

The NFT tools of `tools/erc.go`. A token id is a bare decimal number, not scaled by a contract's
decimals.
-/

namespace SvpMcp

open Handler

/-- The calldata of `transferFrom`. -/
def packERC721TransferFrom (sender recipient : Address) (tokenID : Int) : Bytes :=
  Abi.pack "transferFrom(address,address,uint256)"
    [.address sender, .address recipient, .uint tokenID]

/-- The calldata of `safeTransferFrom`. -/
def packERC721SafeTransferFrom (sender recipient : Address) (tokenID : Int) : Bytes :=
  Abi.pack "safeTransferFrom(address,address,uint256)"
    [.address sender, .address recipient, .uint tokenID]

/-- The calldata of `approve`. -/
def packERC721Approve (recipient : Address) (tokenID : Int) : Bytes :=
  Abi.pack "approve(address,uint256)" [.address recipient, .uint tokenID]

/-- `PackERC721SetApprovalForAll`; a `bool` is packed as the number one or zero. -/
def packERC721SetApprovalForAll (operator : Address) (approved : Bool) : Bytes :=
  Abi.pack "setApprovalForAll(address,bool)"
    [.address operator, .uint (if approved then 1 else 0)]

/-- Read the id of a token. -/
def parseTokenID (s : String) : Except Err Int :=
  let t := Strings.trimSpace s.toList
  if t = [] then .error (.errorf ⟨"token_id is required", []⟩)
  else
    match Decimal.read t with
    | none => .error (.errorf ⟨"token_id %q is not a base-10 integer", [s]⟩)
    | some v =>
      if v < 0 then .error (.errorf ⟨"token_id must not be negative, got %q", [s]⟩) else .ok v

/-- The arguments of an NFT transfer. -/
structure BuildERC721TransferInput where
  contract : String
  /-- The current owner. -/
  sender : String
  recipient : String
  tokenID : String
  clientID : String
deriving DecidableEq, Repr

variable (deps : Deps) (ctx : Context)

/-- `buildERC721Transfer`, of a tool and its packer. -/
def buildERC721Transfer (tool : String) (input : BuildERC721TransferInput)
    (pack : Address → Address → Int → Bytes) :
    Handler EVMTxPayload := do
  let tp ← authorize ctx tool
  requireEVM deps
  let contract ← ofResult (parseEVMAddress input.contract "contract")
  let sender ← ofResult (parseEVMAddress input.sender "from")
  let recipient ← ofResult (parseEVMAddress input.recipient "to")
  let id ← ofResult (parseTokenID input.tokenID)
  assembleERC deps homeClient tp.owner contract (pack sender recipient id) input.clientID tool
    (tool ++ " token " ++ input.tokenID ++ " on " ++ contract.hex ++ ": " ++ sender.hex ++ " -> " ++
      recipient.hex)

/-- The tool `build_erc721_transfer_from`. -/
def buildERC721TransferFrom (input : BuildERC721TransferInput) : Handler EVMTxPayload :=
  buildERC721Transfer deps ctx "build_erc721_transfer_from" input packERC721TransferFrom

/-- The tool `build_erc721_safe_transfer_from`. -/
def buildERC721SafeTransferFrom (input : BuildERC721TransferInput) : Handler EVMTxPayload :=
  buildERC721Transfer deps ctx "build_erc721_safe_transfer_from" input packERC721SafeTransferFrom

/-- The arguments of `build_erc721_approve`. -/
structure BuildERC721ApproveInput where
  contract : String
  /-- Who is granted control of the token. -/
  spender : String
  tokenID : String
  clientID : String
deriving DecidableEq, Repr

/-- The tool `build_erc721_approve`. -/
def buildERC721Approve (input : BuildERC721ApproveInput) : Handler EVMTxPayload := do
  let tp ← authorize ctx "build_erc721_approve"
  requireEVM deps
  let contract ← ofResult (parseEVMAddress input.contract "contract")
  let spender ← ofResult (parseEVMAddress input.spender "spender")
  let id ← ofResult (parseTokenID input.tokenID)
  assembleERC deps homeClient tp.owner contract (packERC721Approve spender id) input.clientID
    "build_erc721_approve"
    ("approve " ++ spender.hex ++ " for token " ++ input.tokenID ++ " on " ++ contract.hex)

/-- The arguments of an operator's approval. -/
structure BuildERC721SetApprovalForAllInput where
  contract : String
  /-- The operator that is granted or revoked. -/
  operator : String
  approved : Bool
  clientID : String
deriving DecidableEq, Repr

/-- The tool `build_erc721_set_approval_for_all`. -/
def buildERC721SetApprovalForAll (input : BuildERC721SetApprovalForAllInput) :
    Handler EVMTxPayload := do
  let tp ← authorize ctx "build_erc721_set_approval_for_all"
  requireEVM deps
  let contract ← ofResult (parseEVMAddress input.contract "contract")
  let operator ← ofResult (parseEVMAddress input.operator "operator")
  let verb := if input.approved then "grant operator" else "revoke operator"
  assembleERC deps homeClient tp.owner contract
    (packERC721SetApprovalForAll operator input.approved) input.clientID
    "build_erc721_set_approval_for_all"
    (verb ++ " " ++ operator.hex ++ " for all of " ++ contract.hex)

end SvpMcp
