import SvpMcp.Model.Amounts
import SvpMcp.Model.Server

/-!
# Building and signing funds transactions

The four funds tools, the builders behind them, the assembly of a payload and the reference signer.
Protobuf, message validation and the key are parameters.
-/

namespace SvpMcp

open Calendar Handler

/-- `payload.Coin`. -/
structure PayloadCoin where
  denom : String
  amount : String
deriving DecidableEq, Repr

/-- `payload.Fee`. -/
structure PayloadFee where
  gasLimit : String
  amount : List PayloadCoin
deriving DecidableEq, Repr

/-- `payload.Summary`, with the fields the funds tools set. -/
structure Summary where
  toolName : String
  msgTypeURL : String
  subaccount : SubaccountId := ⟨"", 0⟩
  ticker : String := ""
  side : String := ""
  sizeHuman : String := ""
  priceHuman : String := ""
  goodTil : String := ""
  reduceOnly : Bool := false
  orderClientID : UInt32 := 0
  assetID : UInt32 := 0
  amountHuman : String := ""
  recipientOwner : String := ""
  recipientNum : UInt32 := 0
  denom : String := ""
deriving DecidableEq, Repr

/-- `payload.TxPayload`, without the two parts that are never precomputed. -/
structure TxPayload where
  version : Int
  clientID : String
  chainID : String
  signerAddress : String
  accountNumber : String
  sequence : String
  /-- Whether the transaction is a short-term order. -/
  isShortTermCLOB : Bool
  txBodyBytesB64 : String
  fee : PayloadFee
  summary : Summary
  expiresAt : Time
deriving DecidableEq, Repr

/-- The version of the payload format. -/
def currentVersion : Int := 1

/-- A signed transaction. -/
structure SignedTx where
  txRawBytesB64 : String
  signatureB64 : String
  pubKeyB64 : String
deriving DecidableEq, Repr

/-- What is signed. -/
structure SignDoc where
  bodyBytes : Bytes
  authInfoBytes : Bytes
  chainId : String
  accountNumber : UInt64
deriving DecidableEq, Repr

/-- The third-party encoders. -/
structure TxEncoder where
  /-- `codectypes.NewAnyWithValue` of a message. -/
  newAnyMsg : Msg → Except String ProtoAny
  /-- `codectypes.NewAnyWithValue` of a public key. -/
  newAnyPubKey : PubKey → Except String ProtoAny
  /-- `proto.Marshal` of a `TxBody`. -/
  marshalTxBody : TxBody → Except String Bytes
  /-- `proto.Marshal` of an `AuthInfo`. -/
  marshalAuthInfo : AuthInfo → Except String Bytes
  /-- `proto.Marshal` of a `SignDoc`. -/
  marshalSignDoc : SignDoc → Except String Bytes
  /-- `proto.Marshal` of a `TxRaw`. -/
  marshalTxRaw : TxRaw → Except String Bytes

/-- The third-party checks. -/
structure SdkChecks where
  validateDenom : String → Except String Unit
  /-- `math.NewIntFromString`. -/
  newIntFromString : String → Option Int
  /-- `ValidateBasic` of a message. -/
  validateBasic : Msg → Except String Unit

/-- The gas limit when none is configured. -/
def clobGasLimit : UInt64 := 1000000

/-- `DefaultPayloadTTL` — 30 s. -/
def defaultPayloadTTL : Int := 30000000000

/-- The fee and the chain of every payload. -/
structure Assembler where
  chainID : String
  feeDenom : String
  feeAmount : String
  gasLimit : UInt64
deriving DecidableEq, Repr

/-- An assembler with the default gas limit. -/
def newAssembler (chainID feeDenom feeAmount : String) (gasLimit : UInt64) : Assembler :=
  { chainID, feeDenom, feeAmount, gasLimit := if gasLimit = 0 then clobGasLimit else gasLimit }

/-- The order lives for a few blocks. -/
def OrderId.isShortTermOrder (id : OrderId) : Bool := id.orderFlags = 0

/-- Messages that pay no fee. -/
def isShortTermClobMsgs : List Msg → Bool
  | [.placeOrder order] => order.orderId.isShortTermOrder
  | [.cancelOrder m] => m.orderId.isShortTermOrder
  | [.batchCancel _] => true
  | _ => false

/-- The loop of `encodeTxBody`, from a position on. -/
def wrapMsgs (enc : TxEncoder) : Nat → List Msg → Except Err (List ProtoAny)
  | _, [] => .ok []
  | i, m :: rest => do
    let anyMsg ← (enc.newAnyMsg m).mapError fun text =>
      .wrap "wrap msg %d in Any: %w" [String.ofList (Decimal.digits i)] (.external text)
    let anyMsgs ← wrapMsgs enc (i + 1) rest
    return anyMsg :: anyMsgs

/-- The bytes of a body. -/
def encodeTxBody (enc : TxEncoder) (msgs : List Msg) : Except Err Bytes := do
  let anyMsgs ← wrapMsgs enc 0 msgs
  wrapExternal "marshal TxBody: %w" (enc.marshalTxBody ⟨anyMsgs⟩)

/-- `strconv.FormatUint` at base 10. -/
def formatUint (n : UInt64) : String :=
  String.ofList (Decimal.digits n.toNat)

/-- What a payload is assembled from. -/
structure Args where
  msgs : List Msg
  signerAddress : String
  account : AccountState
  clientID : String
  summary : Summary

/-- `Assembler.Assemble` at an instant. -/
def Assembler.assemble (a : Assembler) (enc : TxEncoder) (args : Args) (now : Time) :
    Except Err TxPayload := do
  let bodyBytes ← encodeTxBody enc args.msgs
  let isShortTermCLOB := isShortTermClobMsgs args.msgs
  return {
    version := currentVersion
    clientID := args.clientID
    chainID := a.chainID
    signerAddress := args.signerAddress
    accountNumber := formatUint args.account.accountNumber
    sequence := formatUint args.account.sequence
    isShortTermCLOB
    txBodyBytesB64 := String.ofList (Base64.encode bodyBytes)
    fee := ⟨formatUint a.gasLimit, if isShortTermCLOB then [] else [⟨a.feeDenom, a.feeAmount⟩]⟩
    summary := args.summary
    expiresAt := now + defaultPayloadTTL }

/-- What the builders are configured with and what they take from elsewhere. -/
structure BuilderDeps where
  assembler : Assembler
  encoder : TxEncoder
  sdk : SdkChecks

/-- `limits.HumanToQuantums`, as the tools and the builders report its error. -/
def humanUSDCQuantums (humanUSDC : String) : Except Err UInt64 :=
  (humanToQuantums humanUSDC).mapError fun e => .wrap "human_usdc: %w" [] (.errorf e)

/-- The amount of a USDC builder: the quantums, which must not be zero. -/
def positiveQuantums (humanUSDC : String) : Except Err UInt64 := do
  let quantums ← humanUSDCQuantums humanUSDC
  refuseIf (quantums = 0) (.errorf ⟨"human_usdc must be > 0", []⟩)
  return quantums

/-- The end every builder shares: assemble one message. -/
def BuilderDeps.assembleOne (b : BuilderDeps) (msg : Msg) (owner clientID : String)
    (summary : Summary) (account : AccountState) (now : Time) : Except Err TxPayload :=
  (b.assembler.assemble b.encoder ⟨[msg], owner, account, clientID, summary⟩ now).mapError
    fun e => .wrap "assemble: %w" [] e

/-- `DepositToSubaccountInput` and `WithdrawFromSubaccountInput`. -/
structure SubaccountInput where
  /-- The bank account and the subaccount's owner. -/
  owner : String
  subaccountNum : UInt32
  humanUSDC : String
  payloadClientID : String
deriving DecidableEq, Repr

namespace BuilderDeps

/-- The payload of a deposit. -/
def buildDepositToSubaccount (b : BuilderDeps) (input : SubaccountInput) (account : AccountState)
    (now : Time) : Except Err TxPayload := do
  let quantums ← positiveQuantums input.humanUSDC
  let subaccount : SubaccountId := ⟨input.owner, input.subaccountNum⟩
  let msg : Msg := .depositToSubaccount ⟨input.owner, subaccount, assetUsdcId, quantums⟩
  wrapExternal "MsgDepositToSubaccount.ValidateBasic: %w" (b.sdk.validateBasic msg)
  b.assembleOne msg input.owner input.payloadClientID
    { toolName := "build_deposit_to_subaccount"
      msgTypeURL := "/dydxprotocol.sending.MsgDepositToSubaccount"
      subaccount, assetID := assetUsdcId, amountHuman := input.humanUSDC } account now

/-- The payload of a withdrawal. -/
def buildWithdrawFromSubaccount (b : BuilderDeps) (input : SubaccountInput)
    (account : AccountState) (now : Time) : Except Err TxPayload := do
  let quantums ← positiveQuantums input.humanUSDC
  let subaccount : SubaccountId := ⟨input.owner, input.subaccountNum⟩
  let msg : Msg := .withdrawFromSubaccount ⟨subaccount, input.owner, assetUsdcId, quantums⟩
  wrapExternal "MsgWithdrawFromSubaccount.ValidateBasic: %w" (b.sdk.validateBasic msg)
  b.assembleOne msg input.owner input.payloadClientID
    { toolName := "build_withdraw_from_subaccount"
      msgTypeURL := "/dydxprotocol.sending.MsgWithdrawFromSubaccount"
      subaccount, assetID := assetUsdcId, amountHuman := input.humanUSDC } account now

/-- The payload of a transfer. -/
def buildTransferBetweenSubaccounts (b : BuilderDeps) (owner : String) (sender recipient : UInt32)
    (humanUSDC payloadClientID : String) (account : AccountState) (now : Time) :
    Except Err TxPayload := do
  refuseIf (sender = recipient) (.errorf
    ⟨"sender_subaccount_number must differ from recipient_subaccount_number", []⟩)
  let quantums ← positiveQuantums humanUSDC
  let msg : Msg :=
    .createTransfer (some ⟨⟨owner, sender⟩, ⟨owner, recipient⟩, assetUsdcId, quantums⟩)
  wrapExternal "MsgCreateTransfer.ValidateBasic: %w" (b.sdk.validateBasic msg)
  b.assembleOne msg owner payloadClientID
    { toolName := "build_transfer_between_subaccounts"
      msgTypeURL := "/dydxprotocol.sending.MsgCreateTransfer"
      subaccount := ⟨owner, sender⟩, assetID := assetUsdcId, amountHuman := humanUSDC
      recipientOwner := owner, recipientNum := recipient } account now

end BuilderDeps

/-- The arguments of a send. -/
structure BankSendInput where
  owner : String
  recipient : String
  amount : Coin
  amountHuman : String
  payloadClientID : String
deriving DecidableEq, Repr

/-- `Coin.IsValid` and `Coin.IsPositive`. -/
def isPositiveCoin (sdk : SdkChecks) (coin : Coin) : Bool :=
  match sdk.validateDenom coin.denom, coin.amount with
  | .ok _, some a => 0 < a
  | _, _ => false

/-- `sdk.NewCoins` of one valid coin — a zero amount is dropped. -/
def newCoins (coin : Coin) : List Coin :=
  if coin.amount = some 0 then [] else [coin]

/-- The payload of a send. -/
def BuilderDeps.buildBankSend (b : BuilderDeps) (codec : TxCodec) (input : BankSendInput)
    (account : AccountState) (now : Time) : Except Err TxPayload := do
  refuseIf (isPositiveCoin b.sdk input.amount = false)
    (.errorf ⟨"amount must be a positive coin", []⟩)
  let _ ← wrapExternal "owner: %w" (codec.accAddressFromBech32 input.owner)
  let _ ← wrapExternal "recipient: %w" (codec.accAddressFromBech32 input.recipient)
  b.assembleOne (.send ⟨input.owner, input.recipient, newCoins input.amount⟩) input.owner
    input.payloadClientID
    { toolName := "build_bank_send", msgTypeURL := "/cosmos.bank.v1beta1.MsgSend"
      amountHuman := input.amountHuman, recipientOwner := input.recipient
      denom := input.amount.denom } account now

/-- `knownDenoms` — the ticker and the decimals of a base denom. -/
def knownDenoms : List (String × String × Int) :=
  [(uusdcDenom, "USDC", 6), ("asvp", "SVP", 18)]

/-- `resolveSendAmount` — the coin and its label. `sdk.NewCoin` returns the coin as it is, since
the denom is valid and the amount is positive. -/
def resolveSendAmount (sdk : SdkChecks) (denom amount : String) : Except Fault (Coin × String) := do
  (sdk.validateDenom denom).mapError fun text =>
    .error (.wrap "invalid denom %q: %w" [denom] (.external text))
  match knownDenoms.lookup denom with
  | some (symbol, decimals) => do
    let amt ← humanToBaseUnits amount decimals
    return (⟨denom, some amt⟩, amount ++ " " ++ symbol)
  | none =>
    match sdk.newIntFromString amount with
    | none =>
      throw (.error (.errorf
        ⟨"unknown denom %q: amount must be a base-unit integer (no decimal point)", [denom]⟩))
    | some amt =>
      if ¬ 0 < amt then throw (.error (.errorf ⟨"amount must be > 0", []⟩))
      else return (⟨denom, some amt⟩, amount ++ " " ++ denom)

/-- `Chain.Account.Account`, as the tools report its error. -/
def accountState (owner : String) : Handler AccountState := do
  let account ← call (.account owner)
  ofResult (wrapExternal "read account state: %w" account)

/-- `BuildDepositToSubaccountInput` and `BuildWithdrawFromSubaccountInput`. -/
structure BuildSubaccountInput where
  subaccountNumber : UInt32
  humanUSDC : String
  payloadClientID : String
deriving DecidableEq, Repr

/-- The tool `build_deposit_to_subaccount`. -/
def buildDepositToSubaccount (deps : Deps) (b : BuilderDeps) (ctx : Context)
    (input : BuildSubaccountInput) : Handler TxPayload := do
  let tp ← authorizeSubaccount ctx "build_deposit_to_subaccount" input.subaccountNumber
  let quantums ← ofResult (humanUSDCQuantums input.humanUSDC)
  ofResult ((checkPerTx deps.limits .deposit quantums).mapError .capExceeded)
  let account ← accountState tp.owner
  let now ← call .now
  ofResult (b.buildDepositToSubaccount
    ⟨tp.owner, input.subaccountNumber, input.humanUSDC, input.payloadClientID⟩ account now)

/-- The tool `build_withdraw_from_subaccount`. -/
def buildWithdrawFromSubaccount (b : BuilderDeps) (ctx : Context)
    (input : BuildSubaccountInput) : Handler TxPayload := do
  let tp ← authorizeSubaccount ctx "build_withdraw_from_subaccount" input.subaccountNumber
  let quantums ← ofResult (humanUSDCQuantums input.humanUSDC)
  let enforced ← call (.enforce tp.tenantID .withdraw quantums)
  ofResult (enforced.mapError .capExceeded)
  let account ← accountState tp.owner
  let now ← call .now
  ofResult (b.buildWithdrawFromSubaccount
    ⟨tp.owner, input.subaccountNumber, input.humanUSDC, input.payloadClientID⟩ account now)

/-- The arguments of `build_bank_send`. -/
structure BuildBankSendInput where
  recipient : String
  denom : String
  /-- The amount, in human units for a known denom. -/
  amount : String
  payloadClientID : String
deriving DecidableEq, Repr

/-- The tool `build_bank_send`. -/
def buildBankSend (deps : Deps) (b : BuilderDeps) (ctx : Context)
    (input : BuildBankSendInput) : Handler TxPayload := do
  let tp ← authorize ctx "build_bank_send"
  let (coin, amountHuman) ← ofCall (resolveSendAmount b.sdk input.denom input.amount)
  let account ← accountState tp.owner
  let now ← call .now
  ofResult (b.buildBankSend deps.codec
    ⟨tp.owner, input.recipient, coin, amountHuman, input.payloadClientID⟩ account now)

/-- `BuildTransferBetweenSubaccountsInput`. -/
structure BuildTransferInput where
  senderSubaccountNumber : UInt32
  recipientSubaccountNumber : UInt32
  humanUSDC : String
  payloadClientID : String
deriving DecidableEq, Repr

/-- `Engine.CheckSubaccount`, with a prefix on its error. -/
def checkSubaccountAs (side tenantID : String) (subaccount : UInt32) : Handler Unit :=
  ExceptT.mk ((checkSubaccount tenantID subaccount).run.bind fun result =>
    .done (result.mapError fun
      | .error e => .error (.wrap (side ++ ": %w") [] e)
      | .panic reason => .panic reason))

/-- The tool `build_transfer_between_subaccounts`. -/
def buildTransferBetweenSubaccounts (deps : Deps) (b : BuilderDeps) (ctx : Context)
    (input : BuildTransferInput) : Handler TxPayload := do
  let tp ← authorize ctx "build_transfer_between_subaccounts"
  checkSubaccountAs "sender" tp.tenantID input.senderSubaccountNumber
  checkSubaccountAs "recipient" tp.tenantID input.recipientSubaccountNumber
  let quantums ← ofResult (humanUSDCQuantums input.humanUSDC)
  ofResult ((checkPerTx deps.limits .transfer quantums).mapError .capExceeded)
  let account ← accountState tp.owner
  let now ← call .now
  ofResult (b.buildTransferBetweenSubaccounts tp.owner input.senderSubaccountNumber
    input.recipientSubaccountNumber input.humanUSDC input.payloadClientID account now)

/-- A private key, by what the signer uses of it (`ethsecp256k1.PrivKey`). -/
structure PrivKey where
  pubKey : PubKey
  sign : Bytes → Except String Bytes

/-- The bytes that are signed. -/
def directSignBytes (enc : TxEncoder) (bodyBytes authInfoBytes : Bytes) (chainID : String)
    (accountNumber : UInt64) : Except Err Bytes :=
  wrapExternal "marshal SignDoc: %w"
    (enc.marshalSignDoc ⟨bodyBytes, authInfoBytes, chainID, accountNumber⟩)

/-- `strconv.ParseUint` of a payload field, as the signer reports its error. -/
def parseUintField (field text : String) : Except Err UInt64 :=
  match Decimal.readUint64 text.toList with
  | some n => .ok n
  | none =>
    .error (.wrap ("parse " ++ field ++ " %q: %w") [text] (.external "strconv.ParseUint"))

/-- The base64 decoding of a payload's body, as the signer reports its error. -/
def decodeBody (p : TxPayload) : Except Err Bytes :=
  match Base64.decode p.txBodyBytesB64.toList with
  | some bodyBytes => .ok bodyBytes
  | none => .error (.wrap "decode tx_body_bytes_b64: %w" [] (.external "illegal base64 data"))

/-- `signer.Sign` from the parsed fields on. -/
def signParsed (enc : TxEncoder) (priv : PrivKey) (p : TxPayload)
    (accNum seq gasLimit : UInt64) : Except Err SignedTx := do
  let pubAny ← wrapExternal "wrap pubkey in Any: %w" (enc.newAnyPubKey priv.pubKey)
  let authInfoBytes ← wrapExternal "marshal AuthInfo: %w" (enc.marshalAuthInfo
    ⟨[⟨some pubAny, some .direct, seq⟩], some ⟨[], gasLimit⟩⟩)
  let bodyBytes ← decodeBody p
  let signBytes ← (directSignBytes enc bodyBytes authInfoBytes p.chainID accNum).mapError
    fun e => .wrap "compute sign-bytes: %w" [] e
  let sig ← wrapExternal "sign: %w" (priv.sign signBytes)
  let txRawBytes ← wrapExternal "marshal TxRaw: %w"
    (enc.marshalTxRaw ⟨bodyBytes, authInfoBytes, [sig]⟩)
  return {
    txRawBytesB64 := String.ofList (Base64.encode txRawBytes)
    signatureB64 := String.ofList (Base64.encode sig)
    pubKeyB64 := String.ofList (Base64.encode priv.pubKey.key) }

/-- Sign a payload. -/
def sign (codec : TxCodec) (enc : TxEncoder) (priv : PrivKey) (p : TxPayload) :
    Except Err SignedTx := do
  refuseIf (p.version ≠ currentVersion) (.errorf
    ⟨"unsupported TxPayload version %d (want %d)",
      [String.ofList (Decimal.print p.version), String.ofList (Decimal.print currentVersion)]⟩)
  let signerAddr := codec.accAddressString (codec.address priv.pubKey)
  refuseIf (p.signerAddress ≠ "" ∧ signerAddr ≠ p.signerAddress) (.errorf
    ⟨"key-derived signer address %s does not match payload.signer_address %s",
      [signerAddr, p.signerAddress]⟩)
  let accNum ← parseUintField "account_number" p.accountNumber
  let seq ← parseUintField "sequence" p.sequence
  let gasLimit ← parseUintField "fee.gas_limit" p.fee.gasLimit
  signParsed enc priv p accNum seq gasLimit

end SvpMcp
