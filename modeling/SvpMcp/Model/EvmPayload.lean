import SvpMcp.Model.Funds

/-!
# Building and signing EVM transactions

The assembler, which fills in nonce, gas and fees from the node, and the reference signer.
Signature and encoding are third-party code and enter as an `EvmSigner`.
-/

namespace SvpMcp

open Calendar Handler

/-- What a payload is for. -/
structure EVMSummary where
  toolName : String
  description : String
deriving DecidableEq, Repr

/-- An unsigned EVM transaction, as text. -/
structure EVMTxPayload where
  version : Int
  clientID : String
  evmChainID : String
  signerAddress : String
  txType : String
  recipient : String
  nonce : String
  gas : String
  /-- The bound on the whole fee per gas, in decimal. -/
  maxFeePerGas : String
  /-- The bound on the tip per gas, in decimal. -/
  maxPriorityFeePerGas : String
  value : String
  /-- The call data, in hex. -/
  data : String
  expiresAt : Time
  summary : EVMSummary
deriving DecidableEq, Repr

/-- `builder.EVMArgs`; a nil value is zero. -/
structure EVMArgs where
  clientID : String
  /-- The tenant owner's address. -/
  sender : Address
  recipient : Address
  data : Bytes
  value : Option Int := none
  summary : EVMSummary

/-- Whose client a read goes to: the home chain's, or a foreign chain's. -/
abbrev EvmClient := Option UInt64

/-- The home chain's client. -/
def homeClient : EvmClient := none

/-- A read of a client, with the error a failure is reported as. -/
def evmRead (client : EvmClient) (query : EvmQuery) (format : String) (operands : List String) :
    Handler (EvmAnswer query) := do
  let answer ← call (.evm client query)
  ofResult (answer.mapError fun text => .wrap format operands (.external text))

/-- `EVMAssembler.Assemble`. -/
def assembleEVM (client : EvmClient) (args : EVMArgs) : Handler EVMTxPayload := do
  let value := args.value.getD 0
  let (chainID : Int) ← evmRead client .chainID "evm chain id: %w" []
  let (nonce : UInt64) ← evmRead client (.pendingNonceAt args.sender) "pending nonce for %s: %w"
    [args.sender.hex]
  let (tip : Int) ← evmRead client .suggestGasTipCap "suggest gas tip cap: %w" []
  let (baseFee : Int) ← evmRead client .baseFee "base fee: %w" []
  let maxFee := baseFee * 2 + tip
  let (gas : UInt64) ← evmRead client
    (.estimateGas ⟨args.sender, args.recipient, value, args.data, maxFee, tip⟩)
    "estimate gas: %w" []
  let (now : Time) ← call .now
  return {
    version := currentVersion
    clientID := args.clientID
    evmChainID := String.ofList (Decimal.print chainID)
    signerAddress := args.sender.hex
    txType := "eip1559"
    recipient := args.recipient.hex
    nonce := formatUint nonce
    gas := formatUint (gas * 5 / 4)
    maxFeePerGas := String.ofList (Decimal.print maxFee)
    maxPriorityFeePerGas := String.ofList (Decimal.print tip)
    value := String.ofList (Decimal.print value)
    data := String.ofList (Hexutil.encode args.data)
    expiresAt := now + defaultPayloadTTL
    summary := args.summary }

/-- An EVM transaction with a fee cap. -/
structure DynamicFeeTx where
  chainID : Int
  nonce : UInt64
  gasTipCap : Int
  gasFeeCap : Int
  gas : UInt64
  recipient : Address
  value : Int
  data : Bytes
deriving DecidableEq

/-- A number of a payload, as the signer reports its error. -/
def parseBigField (field text : String) : Except Err Int :=
  match Decimal.read text.toList with
  | some n => .ok n
  | none => .error (.errorf ⟨"parse " ++ field ++ " %q", [text]⟩)

/-- The value of a payload; an empty one is zero. -/
def parseValueField (text : String) : Except Err Int :=
  if text = "" then .ok 0 else parseBigField "value" text

/-- The call data of a payload; an empty text is no data. -/
def parseDataField (text : String) : Except Err Bytes :=
  if text = "" then .ok [] else wrapExternal "decode data: %w" (Hexutil.decode text.toList)

/-- The transaction `SignEVM` reads from a payload. -/
def EVMTxPayload.unsignedTx (p : EVMTxPayload) : Except Err DynamicFeeTx := do
  let chainID ← parseBigField "evm_chain_id" p.evmChainID
  let nonce ← parseUintField "nonce" p.nonce
  let gas ← parseUintField "gas" p.gas
  let gasFeeCap ← parseBigField "max_fee_per_gas" p.maxFeePerGas
  let gasTipCap ← parseBigField "max_priority_fee_per_gas" p.maxPriorityFeePerGas
  let value ← parseValueField p.value
  let data ← parseDataField p.data
  return { chainID, nonce, gasTipCap, gasFeeCap, gas, recipient := .ofHex p.recipient, value, data }

/-- A private key, by what the signer uses of it (`ethcrypto`, `ethtypes`). -/
structure EvmSigner where
  /-- `ToECDSA` and `PubkeyToAddress`. -/
  address : Except String Address
  /-- `SignTx` with the latest signer of the transaction's chain, and `MarshalBinary`. -/
  signTx : DynamicFeeTx → Except Err Bytes

/-- `signer.SignEVM` — the raw transaction, in hex. -/
def signEVM (key : EvmSigner) (p : EVMTxPayload) : Except Err String := do
  refuseIf (p.version ≠ currentVersion) (.errorf
    ⟨"unsupported EVMTxPayload version %d (want %d)",
      [String.ofList (Decimal.print p.version), String.ofList (Decimal.print currentVersion)]⟩)
  let sender ← wrapExternal "convert key to ECDSA: %w" key.address
  refuseIf (p.signerAddress ≠ "" ∧ sender ≠ .ofHex p.signerAddress) (.errorf
    ⟨"key-derived address %s does not match payload.signer_address %s",
      [sender.hex, p.signerAddress]⟩)
  let tx ← p.unsignedTx
  let raw ← key.signTx tx
  return String.ofList (Hexutil.encode raw)

end SvpMcp
