import SvpMcp.Lib.Regexp
import SvpMcp.Model.Server

/-!
# The broadcast handlers

Inspect the transaction, check it against the caps, call the node, audit, and record the spend once
the node has accepted it. The runtime chooses the order of each map.
-/

namespace SvpMcp

open Handler

/-- The pattern of a fee that is too low. -/
def insufficientFeeRE : Regexp :=
  .sequence
    [.literal "insufficient fee", .alt (.literal "s") .empty, .literal ";",
     .many Regexp.isSpace, .literal "got:", .many Regexp.isSpace,
     .group (.seq (.char Regexp.isNotSpace) (.many Regexp.isNotSpace)),
     .char Regexp.isSpace, .many Regexp.isSpace, .literal "required:", .many Regexp.isSpace,
     .group (.seq (.char Regexp.isNotSpace) (.manyLazy Regexp.isNotSpace)),
     .alt
       (.sequence [.many Regexp.isSpace, .literal ":", .many Regexp.isSpace,
         .literal "insufficient fee"])
       .textEnd]

/-- The error of a rejected transaction. -/
def parseBroadcastError (r : BroadcastResult) : Option Err :=
  if r.code = 0 then none
  else
    match insufficientFeeRE.findSubmatch r.rawLog.toList with
    | some [got, required] =>
      some (.insufficientFee (String.ofList required) (String.ofList got))
    | _ => none

/-- `TransferOut.Check` for every entry; the first rejection is returned. -/
def checkAll (owner : String) : List (String × Int) → Handler Unit
  | [] => pure ()
  | (sym, amt) :: rest => do
    let result ← call (.checkTransferOut owner sym amt)
    ofResult (result.mapError .symbolCapExceeded)
    checkAll owner rest

/-- `TransferOut.Record` for every entry. -/
def recordAll (owner : String) : List (String × Int) → Handler Unit
  | [] => pure ()
  | (sym, amt) :: rest => do
    call (.recordTransferOut owner sym amt)
    recordAll owner rest

/-- Visit a map with `checkAll`. -/
def checkTransferOut (owner : String) (amounts : Table String Int) : Handler Unit := do
  let order ← call (.rangeMap amounts.pairs)
  checkAll owner order.1

/-- Visit a map with `recordAll`. -/
def recordTransferOut (owner : String) (amounts : Table String Int) : Handler Unit := do
  let order ← call (.rangeMap amounts.pairs)
  recordAll owner order.1

/-- The arguments of `broadcast_signed_tx`. -/
structure BroadcastSignedTxInput where
  clientID : String
  txRawBytesB64 : String
deriving DecidableEq, Repr

variable (deps : Deps)

/-- The decoded transaction and its signer, when the signer is the tenant's owner. -/
def decodeSignedTx (tp : TenantPolicy) (input : BroadcastSignedTxInput) :
    Handler (Bytes × String) := do
  let rawBytes ← ofResult (match Base64.decode input.txRawBytesB64.toList with
    | some rawBytes => .ok rawBytes
    | none => .error (.wrap "decode tx_raw_bytes_b64: %w" [] (.external "illegal base64 data")))
  let signerAddr ← ofCall ((signerAddressFromTxRaw deps.codec rawBytes).mapError fun
    | .error e => .error (.wrap "decode signed tx: %w" [] e)
    | .panic reason => .panic reason)
  require (signerAddr = tp.owner)
    (.errorf ⟨"signer address %s does not match tenant owner %s", [signerAddr, tp.owner]⟩)
  return (rawBytes, signerAddr)

/-- The daily withdraw check of `BroadcastSignedTx`: the quantums the transaction withdraws. -/
def enforceWithdraw (tp : TenantPolicy) (rawBytes : Bytes) : Handler UInt64 := do
  let withdrawQ ← ofResult ((extractWithdrawQuantums deps.codec rawBytes).mapError fun e =>
    .wrap "inspect tx: %w" [] e)
  if withdrawQ > 0 then do
    let result ← call (.enforce tp.tenantID .withdraw withdrawQ)
    ofResult (result.mapError .capExceeded)
    return withdrawQ
  else return withdrawQ

/-- The transfer-out check of `BroadcastSignedTx`: the amounts the transaction sends. -/
def enforceBankSends (tp : TenantPolicy) (rawBytes : Bytes) (signerAddr : String) :
    Handler (Table String Int) := do
  let bankOut ← ofCall ((extractBankSends deps.codec rawBytes signerAddr).mapError fun
    | .error e => .error (.wrap "inspect tx: %w" [] e)
    | .panic reason => .panic reason)
  checkTransferOut tp.owner bankOut
  return bankOut

/-- The audit row of a broadcast; a failed call leaves the result at its zero value. -/
def broadcastEntry (tp : TenantPolicy) (clientID : String)
    (res : Except String BroadcastResult) : AuditEntry :=
  match res with
  | .error _ =>
    { tenantID := tp.tenantID, owner := tp.owner, tool := "broadcast_signed_tx", clientID,
      txHash := "", code := 0, outcome := .chainReject, reason := "" }
  | .ok r =>
    { tenantID := tp.tenantID, owner := tp.owner, tool := "broadcast_signed_tx", clientID,
      txHash := r.txHash, code := r.code,
      outcome := if r.code ≠ 0 then .chainReject else .broadcast, reason := r.rawLog }

/-- The last part of `BroadcastSignedTx`: record what an accepted transaction moved. -/
def settleSignedTx (tp : TenantPolicy) (withdrawQ : UInt64) (bankOut : Table String Int)
    (res : BroadcastResult) : Handler BroadcastResult :=
  if res.code ≠ 0 then
    match parseBroadcastError res with
    | some e => fail e
    | none => pure res
  else do
    if withdrawQ > 0 then call (.recordWithdraw tp.tenantID withdrawQ)
    recordTransferOut tp.owner bankOut
    return res

/-- A signed transaction that has passed every check. -/
structure CheckedTx where
  tp : TenantPolicy
  rawBytes : Bytes
  withdrawQ : UInt64
  /-- The amounts it sends by cap symbol. -/
  bankOut : Table String Int

variable (ctx : Context)

/-- `BroadcastSignedTx` up to the call of the node. -/
def checkSignedTx (input : BroadcastSignedTxInput) :
    Handler CheckedTx := do
  let tp ← authorize ctx "broadcast_signed_tx"
  claimClientID tp.tenantID input.clientID
  let (rawBytes, signerAddr) ← decodeSignedTx deps tp input
  let withdrawQ ← enforceWithdraw deps tp rawBytes
  let bankOut ← enforceBankSends deps tp rawBytes signerAddr
  return ⟨tp, rawBytes, withdrawQ, bankOut⟩

/-- `BroadcastSignedTx` from the node's answer on. -/
def concludeSignedTx (clientID : String) (tx : CheckedTx) (res : Except String BroadcastResult) :
    Handler BroadcastResult := do
  call (.audit (broadcastEntry tx.tp clientID res))
  let res ← ofResult (wrapExternal "Tx.Service/BroadcastTx: %w" res)
  settleSignedTx tx.tp tx.withdrawQ tx.bankOut res

/-- `BroadcastSignedTx` from the call of the node on. -/
def submitSignedTx (clientID : String) (tx : CheckedTx) : Handler BroadcastResult := do
  let res ← call (.broadcastSync tx.rawBytes)
  concludeSignedTx clientID tx res

/-- The tool `broadcast_signed_tx`. -/
def broadcastSignedTx (input : BroadcastSignedTxInput) : Handler BroadcastResult := do
  let tx ← checkSignedTx deps ctx input
  submitSignedTx input.clientID tx

/-- The arguments of `broadcast_evm_tx`. -/
structure BroadcastEVMTxInput where
  clientID : String
  rawTxHex : String
deriving DecidableEq, Repr

/-- The decoded transaction, when its sender is the tenant's owner, and the owner's address. -/
def decodeEVMTx (tp : TenantPolicy) (input : BroadcastEVMTxInput) :
    Handler (EvmTx × Address) := do
  let rawBytes ← ofResult (wrapExternal "decode raw_tx_hex: %w"
    (Hexutil.decode input.rawTxHex.toList))
  let tx ← ofResult (wrapExternal "decode signed evm tx: %w"
    (deps.evmCodec.unmarshalBinary rawBytes))
  let sender ← ofResult (wrapExternal "recover evm sender: %w" (deps.evmCodec.sender tx))
  let ownerEth ← ofResult (ownerEthAddress deps.codec tp.owner)
  require (sender = ownerEth)
    (.errorf ⟨"evm sender %s does not match tenant owner %s", [sender.hex, ownerEth.hex]⟩)
  return (tx, ownerEth)

/-- The foreign chain a transaction was signed for, if it is a configured one. -/
def foreignChain (tx : EvmTx) : Option UInt64 :=
  let chainID := UInt64.ofNat tx.chainId
  if deps.foreignChains.contains chainID then some chainID else none

/-- The amounts a transaction on the home chain moves out; a foreign one moves none. -/
def evmTransferOut (tx : EvmTx) (ownerEth : Address) : Table String Int :=
  match foreignChain deps tx with
  | some _ => ∅
  | none =>
    let (router, wsvp) := deps.uniswap.getD (.zero, .zero)
    decodeTransferOut tx.recipient (some tx.value) tx.data ownerEth router wsvp

/-- The audit row of a broadcast of an EVM transaction. -/
def evmEntry (tp : TenantPolicy) (clientID : String) (tx : EvmTx) (sent : Except String String) :
    AuditEntry :=
  match sent with
  | .error reason =>
    { tenantID := tp.tenantID, owner := tp.owner, tool := "broadcast_evm_tx", clientID,
      txHash := deps.evmCodec.hashHex tx, code := 0, outcome := .chainReject, reason }
  | .ok txHash =>
    { tenantID := tp.tenantID, owner := tp.owner, tool := "broadcast_evm_tx", clientID,
      txHash, code := 0, outcome := .broadcast, reason := "" }

/-- An EVM transaction that has passed every check. -/
structure CheckedEVMTx where
  tp : TenantPolicy
  tx : EvmTx
  /-- The amounts it moves out by cap symbol. -/
  transferOut : Table String Int

/-- `BroadcastEVMTx` up to the call of the node. -/
def checkEVMTx (input : BroadcastEVMTxInput) :
    Handler CheckedEVMTx := do
  let tp ← authorize ctx "broadcast_evm_tx"
  require deps.evmEnabled
    (.errorf ⟨"EVM is not enabled on this server (no evm_rpc_url configured)", []⟩)
  claimClientID tp.tenantID input.clientID
  let (tx, ownerEth) ← decodeEVMTx deps tp input
  let transferOut := evmTransferOut deps tx ownerEth
  checkTransferOut tp.owner transferOut
  return ⟨tp, tx, transferOut⟩

/-- `BroadcastEVMTx` from the call of the node on. -/
def submitEVMTx (clientID : String) (checked : CheckedEVMTx) : Handler String := do
  let sent ← call (.sendTransaction (foreignChain deps checked.tx) checked.tx)
  call (.audit (evmEntry deps checked.tp clientID checked.tx sent))
  let txHash ← ofResult (wrapExternal "broadcast evm tx: %w" sent)
  recordTransferOut checked.tp.owner checked.transferOut
  return txHash

/-- The tool `broadcast_evm_tx`. -/
def broadcastEVMTx (input : BroadcastEVMTxInput) :
    Handler String := do
  let checked ← checkEVMTx deps ctx input
  submitEVMTx deps input.clientID checked

/-- A broadcast request with the tenant the middleware attached to it. -/
inductive BroadcastRequest where
  | signedTx (ctx : Context) (input : BroadcastSignedTxInput)
  | evmTx (ctx : Context) (input : BroadcastEVMTxInput)

/-- The handler of a request, without its answer. -/
def BroadcastRequest.handler : BroadcastRequest → Handler Unit
  | .signedTx ctx input => do
    let _ ← broadcastSignedTx deps ctx input
    return ()
  | .evmTx ctx input => do
    let _ ← broadcastEVMTx deps ctx input
    return ()

/-- Concurrent requests against one server: under a schedule, each turn lets one of them make
its next call. -/
def serve (w : World) (requests : List BroadcastRequest) (schedule : List (Nat × Env)) :
    Pool World Env ServerOp Reply (Except Fault Unit) :=
  (Pool.start w (requests.map fun r => (r.handler deps).run)).run (server deps) schedule

end SvpMcp
