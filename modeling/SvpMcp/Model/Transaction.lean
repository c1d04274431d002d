import SvpMcp.Model.Assets
import SvpMcp.Model.Limits
import SvpMcp.Model.TransferOut

/-!
# Signed transactions and their inspection

The functions of `tools/cross.go` that read a transaction before a broadcast. Protobuf, the registry
and bech32 are third-party code and enter as a `TxCodec`; a nil dereference is a fault of its own.
-/

namespace SvpMcp

/-- An error value a handler returns. -/
inductive Err where
  /-- `fmt.Errorf` without a wrapped cause, and `userErrf`. -/
  | errorf (e : Errorf)
  /-- `fmt.Errorf` whose last verb `%w` wraps a cause. -/
  | wrap (format : String) (operands : List String) (cause : Err)
  /-- `tools.ErrNoTenant`. -/
  | noTenant
  /-- `*limits.ErrCapExceeded`. -/
  | capExceeded (e : ErrCapExceeded)
  /-- `*limits.ErrSymbolCapExceeded`. -/
  | symbolCapExceeded (e : ErrSymbolCapExceeded)
  /-- `*chain.ErrInsufficientFee`. -/
  | insufficientFee (required got : String)
  | indexerNotFound
  /-- An error of a library or of a remote node, by its text. -/
  | external (text : String)
deriving DecidableEq, Repr

/-- How a call can fail: by returning an error or by a panic. -/
inductive Fault where
  | error (e : Err)
  | panic (reason : String)
deriving DecidableEq, Repr

/-- The panic of a nil dereference. -/
def nilDereference : Fault :=
  .panic "runtime error: invalid memory address or nil pointer dereference"

/-- `codectypes.Any` — an encoded message and the name of its type. -/
structure ProtoAny where
  typeURL : String
  value : Bytes
deriving DecidableEq, Repr

/-- `sdk.Coin`; an amount absent from the wire is nil. -/
structure Coin where
  denom : String
  amount : Option Int
deriving DecidableEq, Repr

/-- A subaccount of an owner. -/
structure SubaccountId where
  owner : String
  number : UInt32
deriving DecidableEq, Repr

/-- A withdrawal to the wallet. -/
structure MsgWithdrawFromSubaccount where
  sender : SubaccountId
  recipient : String
  assetId : UInt32
  quantums : UInt64
deriving DecidableEq, Repr

/-- A deposit from the wallet. -/
structure MsgDepositToSubaccount where
  sender : String
  recipient : SubaccountId
  assetId : UInt32
  quantums : UInt64
deriving DecidableEq, Repr

/-- A transfer between subaccounts. -/
structure Transfer where
  sender : SubaccountId
  recipient : SubaccountId
  assetId : UInt32
  amount : UInt64
deriving DecidableEq, Repr

/-- A send of the bank module. -/
structure MsgSend where
  fromAddress : String
  toAddress : String
  amount : List Coin
deriving DecidableEq, Repr

/-- `banktypes.Input` and `banktypes.Output`. -/
structure BankEntry where
  address : String
  coins : List Coin
deriving DecidableEq, Repr

/-- What identifies an order. -/
structure OrderId where
  subaccountId : SubaccountId
  clientId : UInt32
  /-- The kind of order: zero for a short-term one. -/
  orderFlags : UInt32
  clobPairId : UInt32
deriving DecidableEq, Repr

/-- `clobtypes.Order_Side`. -/
inductive OrderSide where
  | unspecified
  | buy
  | sell
deriving DecidableEq, Repr

/-- `clobtypes.Order_TimeInForce`, as far as the server sets it. -/
inductive TimeInForce where
  | unspecified
  | ioc
  | postOnly
deriving DecidableEq, Repr

/-- `clobtypes.Order_ConditionType`. -/
inductive ConditionType where
  | unspecified
  | stopLoss
  | takeProfit
deriving DecidableEq, Repr

/-- The `GoodTilOneof` of an order and of a cancellation. -/
inductive GoodTil where
  | block (height : UInt32)
  | blockTime (seconds : UInt32)
deriving DecidableEq, Repr

/-- `clobtypes.Order`, with the fields the server sets. -/
structure Order where
  orderId : OrderId
  side : OrderSide
  quantums : UInt64
  subticks : UInt64
  timeInForce : TimeInForce
  reduceOnly : Bool
  conditionType : ConditionType := .unspecified
  /-- The price at which a conditional order becomes active. -/
  conditionalOrderTriggerSubticks : UInt64 := 0
  /-- Until when the order stands; nil when absent. -/
  goodTilOneof : Option GoodTil
deriving DecidableEq, Repr

/-- The cancellation of an order. -/
structure MsgCancelOrder where
  orderId : OrderId
  /-- Until when the cancellation stands; nil when absent. -/
  goodTilOneof : Option GoodTil
deriving DecidableEq, Repr

/-- The orders of one pair. -/
structure OrderBatch where
  clobPairId : UInt32
  clientIds : List UInt32
deriving DecidableEq, Repr

/-- The cancellation of many orders. -/
structure MsgBatchCancel where
  subaccountId : SubaccountId
  shortTermCancels : List OrderBatch
  goodTilBlock : UInt32
deriving DecidableEq, Repr

/-- A decoded message (`sdk.Msg`). A `MsgExec` holds the messages it executes. -/
inductive Msg where
  | withdrawFromSubaccount (m : MsgWithdrawFromSubaccount)
  | depositToSubaccount (m : MsgDepositToSubaccount)
  | createTransfer (transfer : Option Transfer)
  | send (m : MsgSend)
  | multiSend (inputs outputs : List BankEntry)
  | exec (grantee : String) (msgs : List Msg)
  | placeOrder (order : Order)
  | cancelOrder (m : MsgCancelOrder)
  | batchCancel (m : MsgBatchCancel)
  /-- A message of any other type. -/
  | other (any : ProtoAny)

/-- A transaction as it is sent. -/
structure TxRaw where
  bodyBytes : Bytes
  authInfoBytes : Bytes
  signatures : List Bytes
deriving DecidableEq, Repr

/-- `txtypes.TxBody`, with the fields the server sets or reads. -/
structure TxBody where
  messages : List ProtoAny
deriving DecidableEq, Repr

/-- `signing.SignMode`, as far as the server uses it. -/
inductive SignMode where
  | direct
  | other
deriving DecidableEq, Repr

/-- A signer and its sequence. -/
structure SignerInfo where
  publicKey : Option ProtoAny
  /-- The single sign mode; nil when absent. -/
  modeInfo : Option SignMode
  sequence : UInt64
deriving DecidableEq, Repr

/-- The fee of a transaction. -/
structure Fee where
  amount : List Coin
  gasLimit : UInt64
deriving DecidableEq, Repr

/-- The signers and the fee. -/
structure AuthInfo where
  signerInfos : List SignerInfo
  fee : Option Fee
deriving DecidableEq, Repr

/-- A public key, by its bytes (`cryptotypes.PubKey`). -/
structure PubKey where
  key : Bytes
deriving DecidableEq, Repr

/-- The third-party decoders. `UnpackAny` leaves its target nil when the type's name is empty. -/
structure TxCodec where
  /-- `proto.Unmarshal` into a `TxRaw`. -/
  unmarshalTxRaw : Bytes → Except String TxRaw
  /-- `proto.Unmarshal` into a `TxBody`. -/
  unmarshalTxBody : Bytes → Except String TxBody
  /-- `proto.Unmarshal` into an `AuthInfo`. -/
  unmarshalAuthInfo : Bytes → Except String AuthInfo
  /-- `InterfaceRegistry.UnpackAny` into an `sdk.Msg`. -/
  unpackMsg : ProtoAny → Except String (Option Msg)
  /-- `InterfaceRegistry.UnpackAny` into a `cryptotypes.PubKey`. -/
  unpackPubKey : ProtoAny → Except String (Option PubKey)
  address : PubKey → Bytes
  /-- `sdk.AccAddress.String`. -/
  accAddressString : Bytes → String
  /-- `sdk.AccAddressFromBech32`. -/
  accAddressFromBech32 : String → Except String Bytes

/-- The wrapping of a decoder's error. -/
def wrapExternal {α : Type} (format : String) (result : Except String α) : Except Err α :=
  result.mapError fun text => .wrap format [] (.external text)

variable (codec : TxCodec)

/-- The decoding `extractWithdrawQuantums` and `extractBankSends` begin with. -/
def decodeTxBody (rawTxBytes : Bytes) : Except Err TxBody := do
  let txRaw ← wrapExternal "unmarshal TxRaw: %w" (codec.unmarshalTxRaw rawTxBytes)
  wrapExternal "unmarshal TxBody: %w" (codec.unmarshalTxBody txRaw.bodyBytes)

/-- One turn of the loop of `extractWithdrawQuantums`. -/
def addWithdraw (total : UInt64) (anyMsg : ProtoAny) : Except Err UInt64 :=
  match codec.unpackMsg anyMsg with
  | .ok (some (.withdrawFromSubaccount w)) =>
    if w.assetId ≠ assetUsdcId then .ok total
    else
      let sum := total + w.quantums
      if sum < total then
        .error (.errorf ⟨"withdraw quantums total overflows uint64", []⟩)
      else .ok sum
  | _ => .ok total

/-- `extractWithdrawQuantums` — the USDC quantums of all withdrawals of the body. -/
def extractWithdrawQuantums (rawTxBytes : Bytes) : Except Err UInt64 := do
  let body ← decodeTxBody codec rawTxBytes
  body.messages.foldlM (addWithdraw codec) 0

/-- The inner loop of `extractBankSends`: one coin of a send. -/
def addCoin (out : Table String Int) (c : Coin) : Except Fault (Table String Int) :=
  match symbolForDenom c.denom with
  | none => .ok out
  | some sym =>
    match c.amount with
    | none => .error nilDereference
    | some amount => .ok (out.set sym ((out.get sym).getD 0 + amount))

/-- One turn of the loop of `extractBankSends`. -/
def addBankSend (signerAddr : String) (out : Table String Int) (anyMsg : ProtoAny) :
    Except Fault (Table String Int) :=
  match codec.unpackMsg anyMsg with
  | .ok (some (.send send)) =>
    if send.fromAddress ≠ signerAddr then .ok out else send.amount.foldlM addCoin out
  | _ => .ok out

/-- `extractBankSends` — the signer's outbound bank sends by cap symbol. -/
def extractBankSends (rawTxBytes : Bytes) (signerAddr : String) :
    Except Fault (Table String Int) := do
  let body ← (decodeTxBody codec rawTxBytes).mapError .error
  body.messages.foldlM (addBankSend codec signerAddr) ∅

/-- `signerAddressFromTxRaw` — the bech32 address of the only signer's key. -/
def signerAddressFromTxRaw (raw : Bytes) : Except Fault String := do
  let txRaw ← (wrapExternal "unmarshal TxRaw: %w" (codec.unmarshalTxRaw raw)).mapError .error
  let ai ← (wrapExternal "unmarshal AuthInfo: %w"
    (codec.unmarshalAuthInfo txRaw.authInfoBytes)).mapError .error
  match ai.signerInfos with
  | [info] =>
    match info.publicKey with
    | none => .error (.error (.errorf ⟨"signer info has no public key", []⟩))
    | some pkAny =>
      let pk ← (wrapExternal "unpack signer pubkey: %w" (codec.unpackPubKey pkAny)).mapError .error
      match pk with
      | none => .error nilDereference
      | some pk => .ok (codec.accAddressString (codec.address pk))
  | infos =>
    .error (.error (.errorf ⟨"expected exactly 1 signer, got %d",
      [String.ofList (Decimal.digits infos.length)]⟩))

end SvpMcp
