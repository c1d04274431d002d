import SvpMcp.Model.Funds
import SvpMcp.Verif.SignedBroadcast

/-!
# From a funds tool to the broadcast inspection

A payload of a funds tool, signed with the owner's key: the inspection finds the amount the tool
computed. Encoding is assumed to be lossless.
-/

namespace SvpMcp

open Calendar Handler Program

variable {signed : SignedTx} {enc : TxEncoder} {sdk : SdkChecks} {priv : PrivKey} {body : Bytes}
  {coin : Coin} {msg : Msg} {account : AccountState} {now : Time}

/-- Whatever the encoders encode, the decoders decode to the same value. -/
structure Lossless (codec : TxCodec) (enc : TxEncoder) : Prop where
  msg : ∀ m any, enc.newAnyMsg m = .ok any → codec.unpackMsg any = .ok (some m)
  pubKey : ∀ key any, enc.newAnyPubKey key = .ok any → codec.unpackPubKey any = .ok (some key)
  txBody : ∀ body bytes, enc.marshalTxBody body = .ok bytes → codec.unmarshalTxBody bytes = .ok body
  authInfo : ∀ info bytes,
    enc.marshalAuthInfo info = .ok bytes → codec.unmarshalAuthInfo bytes = .ok info
  txRaw : ∀ raw bytes, enc.marshalTxRaw raw = .ok bytes → codec.unmarshalTxRaw bytes = .ok raw

/-- Another error does not change a success. -/
@[simp]
theorem wrapExternal_eq_ok {α : Type} {format : String} {result : Except String α} {value : α} :
    wrapExternal format result = .ok value ↔ result = .ok value :=
  mapError_eq_ok

/-- What is known of a payload with one message. -/
structure Carries (enc : TxEncoder) (p : TxPayload) (owner : String) (msg : Msg) (any : ProtoAny)
    (body : Bytes) : Prop where
  encodes : enc.newAnyMsg msg = .ok any
  marshals : enc.marshalTxBody ⟨[any]⟩ = .ok body
  signer : p.signerAddress = owner
  text : p.txBodyBytesB64 = String.ofList (Base64.encode body)

variable {p : TxPayload}

/-- An assembled payload carries its message. -/
theorem assembleOne_carries {b : BuilderDeps} {owner clientID : String} {summary : Summary}
    (assembled : b.assembleOne msg owner clientID summary account now = .ok p) :
    ∃ any body, Carries b.encoder p owner msg any body := by
  simp [BuilderDeps.assembleOne, Assembler.assemble, encodeTxBody, wrapMsgs] at assembled
  obtain ⟨any, encodes, body, marshals, rfl⟩ := assembled
  exact ⟨any, body, encodes, marshals, rfl, rfl⟩

/-- What a signature of a payload puts together. -/
structure Parts where
  body : Bytes
  pubAny : ProtoAny
  accNum : UInt64
  seq : UInt64
  gasLimit : UInt64
  authInfo : Bytes
  signBytes : Bytes
  sig : Bytes
  raw : Bytes

/-- The auth info `Sign` builds. -/
def Parts.info (parts : Parts) : AuthInfo :=
  ⟨[⟨some parts.pubAny, some .direct, parts.seq⟩], some ⟨[], parts.gasLimit⟩⟩

/-- How the parts of a signed payload hang together. -/
structure SignedFrom (enc : TxEncoder) (priv : PrivKey) (p : TxPayload) (signed : SignedTx)
    (parts : Parts) : Prop where
  decoded : Base64.decode p.txBodyBytesB64.toList = some parts.body
  key : enc.newAnyPubKey priv.pubKey = .ok parts.pubAny
  accNum : Decimal.readUint64 p.accountNumber.toList = some parts.accNum
  seq : Decimal.readUint64 p.sequence.toList = some parts.seq
  gasLimit : Decimal.readUint64 p.fee.gasLimit.toList = some parts.gasLimit
  marshalled : enc.marshalAuthInfo parts.info = .ok parts.authInfo
  doc : enc.marshalSignDoc ⟨parts.body, parts.authInfo, p.chainID, parts.accNum⟩ =
    .ok parts.signBytes
  signs : priv.sign parts.signBytes = .ok parts.sig
  whole : enc.marshalTxRaw ⟨parts.body, parts.authInfo, [parts.sig]⟩ = .ok parts.raw
  text : signed.txRawBytesB64 = String.ofList (Base64.encode parts.raw)

/-- A number field is accepted when it is read. -/
@[simp]
theorem parseUintField_eq_ok {field text : String} {n : UInt64} :
    parseUintField field text = .ok n ↔ Decimal.readUint64 text.toList = some n := by
  unfold parseUintField
  cases Decimal.readUint64 text.toList with
  | none => simp
  | some found => simp

/-- A body is accepted when its text is read. -/
@[simp]
theorem decodeBody_eq_ok :
    decodeBody p = .ok body ↔ Base64.decode p.txBodyBytesB64.toList = some body := by
  unfold decodeBody
  cases Base64.decode p.txBodyBytesB64.toList with
  | none => simp
  | some bytes => simp

/-- A payload that is signed was put together from parts. -/
theorem sign_ok {codec : TxCodec} (isSigned : sign codec enc priv p = .ok signed) :
    ∃ parts, SignedFrom enc priv p signed parts := by
  simp [sign, signParsed, directSignBytes] at isSigned
  obtain ⟨_, _, accNum, isAccNum, seq, isSeq, gasLimit, isGasLimit, pubAny, key, info, marshalled,
    body, decoded, signBytes, doc, sig, signs, raw, whole, rfl⟩ := isSigned
  exact ⟨⟨body, pubAny, accNum, seq, gasLimit, info, signBytes, sig, raw⟩, decoded, key, isAccNum,
    isSeq, isGasLimit, marshalled, doc, signs, whole, rfl⟩

/-- A payload that carries a message, signed: the broadcast handler finds that message and the
address of the key. -/
theorem signed_decodes {codec : TxCodec} {owner : String} {any : ProtoAny}
    (lossless : Lossless codec enc) (carries : Carries enc p owner msg any body)
    (isSigned : sign codec enc priv p = .ok signed) :
    ∃ raw, Base64.decode signed.txRawBytesB64.toList = some raw ∧
      decodeTxBody codec raw = .ok ⟨[any]⟩ ∧ codec.unpackMsg any = .ok (some msg) ∧
      signerAddressFromTxRaw codec raw =
        .ok (codec.accAddressString (codec.address priv.pubKey)) := by
  obtain ⟨parts, built⟩ := sign_ok isSigned
  have sameBody : parts.body = body := by
    have decoded := built.decoded
    rw [carries.text, String.toList_ofList, Base64.decode_encode] at decoded
    exact (Option.some.inj decoded).symm
  have txRaw := lossless.txRaw _ _ built.whole
  have txBody := lossless.txBody _ _ carries.marshals
  have authInfo := lossless.authInfo _ _ built.marshalled
  have pubKey := lossless.pubKey _ _ built.key
  refine ⟨parts.raw, ?_, ?_, lossless.msg _ _ carries.encodes, ?_⟩
  · rw [built.text, String.toList_ofList, Base64.decode_encode]
  · rw [decodeTxBody, wrapExternal_eq_ok.mpr txRaw, sameBody]
    exact wrapExternal_eq_ok.mpr txBody
  · rw [signerAddressFromTxRaw, wrapExternal_eq_ok.mpr txRaw]
    change
      ((wrapExternal _ (codec.unmarshalAuthInfo parts.authInfo)).mapError Fault.error >>= _) = _
    rw [wrapExternal_eq_ok.mpr authInfo]
    change ((wrapExternal _ (codec.unpackPubKey parts.pubAny)).mapError Fault.error >>= _) = _
    rw [wrapExternal_eq_ok.mpr pubKey]
    rfl

section Inspect

variable {codec : TxCodec} {raw : Bytes} {any : ProtoAny}

/-- A single withdrawal is found. -/
theorem extract_withdraw {w : MsgWithdrawFromSubaccount}
    (decoded : decodeTxBody codec raw = .ok ⟨[any]⟩)
    (unpacked : codec.unpackMsg any = .ok (some (.withdrawFromSubaccount w)))
    (usdc : w.assetId = assetUsdcId) (signerAddr : String) :
    extractWithdrawQuantums codec raw = .ok w.quantums ∧
      extractBankSends codec raw signerAddr = .ok ∅ := by
  have added : addWithdraw codec 0 any = .ok w.quantums := by
    have noWrap : ¬ 0 + w.quantums < 0 := UInt64.not_lt.mpr (UInt64.zero_le)
    simp only [addWithdraw, unpacked]
    rw [if_neg (not_not.mpr usdc), if_neg noWrap, UInt64.zero_add]
  have skipped : addBankSend codec signerAddr ∅ any = .ok ∅ := by
    rw [addBankSend, unpacked]
  constructor
  · rw [extractWithdrawQuantums, decoded]
    change ([any].foldlM (addWithdraw codec) 0) = _
    rw [List.foldlM_cons, added]
    rfl
  · rw [extractBankSends, decoded]
    change ([any].foldlM (addBankSend codec signerAddr) ∅) = _
    rw [List.foldlM_cons, skipped]
    rfl

/-- The amounts of one sent coin by cap symbol. -/
def coinOut (denom : String) (amount : Int) : Table String Int :=
  match symbolForDenom denom with
  | some symbol => Table.set ∅ symbol amount
  | none => ∅

/-- A single send of one coin is found. -/
theorem extract_send {recipient denom signerAddr : String} {amount : Int}
    (decoded : decodeTxBody codec raw = .ok ⟨[any]⟩)
    (unpacked : codec.unpackMsg any =
      .ok (some (.send ⟨signerAddr, recipient, [⟨denom, some amount⟩]⟩))) :
    extractWithdrawQuantums codec raw = .ok 0 ∧
      extractBankSends codec raw signerAddr = .ok (coinOut denom amount) := by
  have skipped : addWithdraw codec 0 any = .ok 0 := by
    rw [addWithdraw, unpacked]
  have added : addBankSend codec signerAddr ∅ any = .ok (coinOut denom amount) := by
    simp only [addBankSend, unpacked]
    rw [if_neg (not_not.mpr rfl), List.foldlM_cons, coinOut, addCoin]
    cases symbolForDenom denom with
    | none => rfl
    | some symbol =>
      simp only [Table.get_empty, Option.getD_none, Int.zero_add]
      rfl
  constructor
  · rw [extractWithdrawQuantums, decoded]
    change ([any].foldlM (addWithdraw codec) 0) = _
    rw [List.foldlM_cons, skipped]
    rfl
  · rw [extractBankSends, decoded]
    change ([any].foldlM (addBankSend codec signerAddr) ∅) = _
    rw [List.foldlM_cons, added]
    rfl

end Inspect

/-- A withdrawal payload carries the withdrawal. -/
theorem buildWithdraw_carries {b : BuilderDeps} {input : SubaccountInput}
    (built : b.buildWithdrawFromSubaccount input account now = .ok p) :
    ∃ q any body, humanUSDCQuantums input.humanUSDC = .ok q ∧
      Carries b.encoder p input.owner (.withdrawFromSubaccount
        ⟨⟨input.owner, input.subaccountNum⟩, input.owner, assetUsdcId, q⟩) any body := by
  simp [BuilderDeps.buildWithdrawFromSubaccount, positiveQuantums] at built
  obtain ⟨q, parsed, _, _, assembled⟩ := built
  obtain ⟨any, body, carries⟩ := assembleOne_carries assembled
  exact ⟨q, any, body, parsed, carries⟩

/-- Its amount is positive. -/
theorem isPositiveCoin_amount (positive : isPositiveCoin sdk coin = true) :
    ∃ a, coin.amount = some a ∧ 0 < a := by
  unfold isPositiveCoin at positive
  split at positive
  · rename_i a _ present
    exact ⟨a, present, of_decide_eq_true positive⟩
  · cases positive

/-- A send payload carries the send of the coin, whose amount is positive. -/
theorem buildBankSend_carries {b : BuilderDeps} {codec : TxCodec} {input : BankSendInput}
    (built : b.buildBankSend codec input account now = .ok p) :
    ∃ amount any body, input.amount.amount = some amount ∧
      Carries b.encoder p input.owner
        (.send ⟨input.owner, input.recipient, [⟨input.amount.denom, some amount⟩]⟩) any body := by
  simp [BuilderDeps.buildBankSend] at built
  obtain ⟨positive, _, _, assembled⟩ := built
  obtain ⟨amount, present, nonzero⟩ := isPositiveCoin_amount positive
  have notZero : input.amount.amount ≠ some 0 := by
    rw [present]
    intro zero
    have same := Option.some.inj zero
    omega
  have coins : newCoins input.amount = [⟨input.amount.denom, some amount⟩] := by
    rw [newCoins, if_neg notZero, ← present]
  obtain ⟨any, body, carries⟩ := assembleOne_carries assembled
  rw [coins] at carries
  exact ⟨amount, any, body, present, carries⟩

/-- The resolved coin has the denom that was asked for. -/
theorem resolveSendAmount_denom {denom amount label : String}
    (resolved : resolveSendAmount sdk denom amount = .ok (coin, label)) : coin.denom = denom := by
  simp [resolveSendAmount] at resolved
  obtain ⟨_, resolved⟩ := resolved
  split at resolved
  · simp at resolved
    obtain ⟨_, _, rfl, _⟩ := resolved
    rfl
  · split at resolved
    · cases resolved
    · split at resolved
      · cases resolved
      · cases resolved
        rfl

/-- The `Enforce` call of an event. -/
def enforceCall (e : Event World Env ServerOp Reply) : Option (String × Tool × UInt64) :=
  match e.op with
  | .enforce tenantID tool q => some (tenantID, tool, q)
  | _ => none

/-- The operations that do not enforce a cap. -/
def AvoidsEnforce : ServerOp → Prop
  | .enforce _ _ _ => False
  | _ => True

/-- Without a check there is no call. -/
theorem enforceCalls_avoids {events : Events}
    (avoids : ∀ e ∈ events, AvoidsEnforce e.op) : events.filterMap enforceCall = [] := by
  rw [List.filterMap_eq_nil_iff]
  intro e member
  have here := avoids e member
  unfold enforceCall
  split
  · rename_i isEnforce
    rw [isEnforce] at here
    exact here.elim
  · rfl

/-- The operations of the check. -/
theorem authorizeSubaccount_only {allowed : ServerOp → Prop}
    (tenants : ∀ id, allowed (.tenant id)) (rates : ∀ key, allowed (.rateAllow key))
    (ctx : Context) (tool : String) (sub : UInt32) :
    Only allowed (authorizeSubaccount ctx tool sub) := by
  simp [authorizeSubaccount, checkSubaccount, authorize_only tenants rates, tenants]

section Tools

variable {deps : Deps} {b : BuilderDeps} {ctx : Context} {w w' : World}
  {events : Events} {p : TxPayload}

/-- A request that is let in for a subaccount belongs to its tenant. -/
theorem authorizeSubaccount_ok {holds : Event World Env ServerOp Reply → Prop} {tool : String}
    {sub : UInt32} {tp : TenantPolicy}
    (run : Gives deps holds w (authorizeSubaccount ctx tool sub) w' tp) :
    ActsFor deps w ctx tp := by
  simp [authorizeSubaccount] at run
  obtain ⟨_, authorized, _⟩ := run
  exact authorize_ok authorized

/-- A payload of `BuildWithdrawFromSubaccount` carries a withdrawal of the quantums its only
`Enforce` call checked. -/
theorem buildWithdrawFromSubaccount_ok {input : BuildSubaccountInput}
    (run : Alone deps w (buildWithdrawFromSubaccount b ctx input) events w' (.ok p)) :
    ∃ tp q any body, ActsFor deps w ctx tp ∧
      events.filterMap enforceCall = [(tp.tenantID, .withdraw, q)] ∧
      Carries b.encoder p tp.owner (.withdrawFromSubaccount
        ⟨⟨tp.owner, input.subaccountNumber⟩, tp.owner, assetUsdcId, q⟩) any body := by
  obtain ⟨first, w1, tp, rest, split, authorized, run⟩ := exec_bind_ok run
  obtain ⟨second, w2, q, rest2, split2, parsed, run⟩ := exec_bind_ok run
  obtain ⟨third, w3, enforced, rest3, split3, enforcing, run⟩ := exec_bind_ok run
  obtain ⟨fourth, w4, _, rest4, split4, passed, run⟩ := exec_bind_ok run
  obtain ⟨fifth, w5, account, rest5, split5, reading, run⟩ := exec_bind_ok run
  obtain ⟨sixth, w6, now, rest6, split6, clock, run⟩ := exec_bind_ok run
  obtain ⟨quantums, noEvents2, _⟩ := alone_ofResult parsed
  obtain ⟨env, here, _, _⟩ := exec_lift enforcing
  obtain ⟨_, noEvents4, _⟩ := alone_ofResult passed
  obtain ⟨built, noEvents7, _⟩ := alone_ofResult run
  obtain ⟨q', any, body, parsed', carries⟩ := buildWithdraw_carries built
  rw [quantums] at parsed'
  cases parsed'
  have quietFirst : first.filterMap enforceCall = [] := enforceCalls_avoids
    (exec_calls (authorizeSubaccount_only (fun _ => trivial) (fun _ => trivial) _ _ _) authorized)
  have quietFifth : fifth.filterMap enforceCall = [] := by
    have only : Only AvoidsEnforce (accountState tp.owner) :=
      only_bind (only_call trivial) fun _ => only_ofResult _
    exact enforceCalls_avoids (exec_calls only reading)
  have quietSixth : sixth.filterMap enforceCall = [] := by
    obtain ⟨_, clockEvent, _, _⟩ := exec_lift clock
    rw [clockEvent]
    rfl
  have calls : events.filterMap enforceCall = [(tp.tenantID, .withdraw, q)] := by
    rw [split, split2, split3, split4, split5, split6, noEvents2, here, noEvents4, noEvents7]
    simp only [List.filterMap_append, quietFirst, quietFifth, quietSixth, List.filterMap_cons,
      List.filterMap_nil, List.nil_append, List.append_nil, enforceCall]
  exact ⟨tp, q, any, body, authorizeSubaccount_ok (alone_gives authorized), calls, carries⟩

/-- A payload of `BuildBankSend` carries a send of the coin that `resolveSendAmount` computed. -/
theorem buildBankSend_ok {input : BuildBankSendInput}
    (run : Alone deps w (buildBankSend deps b ctx input) events w' (.ok p)) :
    ∃ tp amount label any body, ActsFor deps w ctx tp ∧
      resolveSendAmount b.sdk input.denom input.amount =
        .ok (⟨input.denom, some amount⟩, label) ∧
      Carries b.encoder p tp.owner
        (.send ⟨tp.owner, input.recipient, [⟨input.denom, some amount⟩]⟩) any body := by
  have given := alone_gives run
  simp [buildBankSend] at given
  obtain ⟨_, tp, authorized, coin, label, sent, _, account, _, now, _, built⟩ := given
  obtain ⟨amount, any, body, present, carries⟩ := buildBankSend_carries built
  have sameDenom := resolveSendAmount_denom sent
  obtain ⟨denom, _⟩ := coin
  subst sameDenom present
  exact ⟨tp, amount, label, any, body, authorize_ok authorized, sent, carries⟩

end Tools

/-- The amounts at build time and at broadcast agree. A payload of `BuildWithdrawFromSubaccount`,
signed with the owner's key, is found to withdraw exactly the quantums that its one `Enforce` call
checked and to send nothing. A payload of `BuildBankSend`, signed, is found to send exactly the
resolved coin, if its denom has a cap symbol, and to withdraw nothing. -/
theorem build_and_broadcast_amounts_agree (deps : Deps) (b : BuilderDeps)
    (lossless : Lossless deps.codec b.encoder) (ctx : Context) (priv : PrivKey)
    (w w' : World) (events : Events) (p : TxPayload)
    (signed : SignedTx) (isSigned : sign deps.codec b.encoder priv p = .ok signed)
    (ownerKey : deps.codec.accAddressString (deps.codec.address priv.pubKey) = p.signerAddress) :
    (∀ input, Alone deps w (buildWithdrawFromSubaccount b ctx input) events w' (.ok p) →
      ∃ raw tp q, Base64.decode signed.txRawBytesB64.toList = some raw ∧
        ActsFor deps w ctx tp ∧ signerAddressFromTxRaw deps.codec raw = .ok tp.owner ∧
        events.filterMap enforceCall = [(tp.tenantID, .withdraw, q)] ∧
        extractWithdrawQuantums deps.codec raw = .ok q ∧
        extractBankSends deps.codec raw tp.owner = .ok ∅) ∧
      ∀ input, Alone deps w (buildBankSend deps b ctx input) events w' (.ok p) →
        ∃ raw tp amount label, Base64.decode signed.txRawBytesB64.toList = some raw ∧
          ActsFor deps w ctx tp ∧ signerAddressFromTxRaw deps.codec raw = .ok tp.owner ∧
          resolveSendAmount b.sdk input.denom input.amount =
            .ok (⟨input.denom, some amount⟩, label) ∧
          extractBankSends deps.codec raw tp.owner = .ok (coinOut input.denom amount) ∧
          extractWithdrawQuantums deps.codec raw = .ok 0 := by
  constructor
  · intro input run
    obtain ⟨tp, q, any, body, acts, calls, carries⟩ := buildWithdrawFromSubaccount_ok run
    obtain ⟨raw, decoded, txBody, unpacked, signer⟩ := signed_decodes lossless carries isSigned
    rw [ownerKey, carries.signer] at signer
    obtain ⟨withdrawn, sent⟩ := extract_withdraw txBody unpacked rfl tp.owner
    exact ⟨raw, tp, q, decoded, acts, signer, calls, withdrawn, sent⟩
  · intro input run
    obtain ⟨tp, amount, label, any, body, acts, resolved, carries⟩ := buildBankSend_ok run
    obtain ⟨raw, decoded, txBody, unpacked, signer⟩ := signed_decodes lossless carries isSigned
    rw [ownerKey, carries.signer] at signer
    obtain ⟨withdrawn, sent⟩ := extract_send txBody unpacked
    exact ⟨raw, tp, amount, label, decoded, acts, signer, resolved, sent, withdrawn⟩

/-- An encoder that knows one value. -/
def encodeOnly {α β : Type} [DecidableEq α] (value : α) (code : β) (x : α) : Except String β :=
  if x = value then .ok code else .error "unsupported"

/-- Only one value is encoded. -/
theorem encodeOnly_ok {α β : Type} [DecidableEq α] {value x : α} {code found : β}
    (encoded : encodeOnly value code x = .ok found) : value = x := by
  unfold encodeOnly at encoded
  split at encoded
  · rename_i same
    exact same.symm
  · cases encoded

/-- The withdrawal of the example. -/
def railWithdraw : MsgWithdrawFromSubaccount :=
  ⟨⟨"svp1owner", 0⟩, "svp1owner", assetUsdcId, 1500000⟩

/-- The auth info of the signed transaction. -/
def railAuthInfo : AuthInfo := ⟨[⟨some ⟨"/key", []⟩, some .direct, 0⟩], some ⟨[], clobGasLimit⟩⟩

/-- Encoders of the values of one withdrawal. -/
def railEncoder : TxEncoder where
  newAnyMsg
    | .withdrawFromSubaccount m => encodeOnly railWithdraw ⟨"/msg", []⟩ m
    | _ => .error "unsupported"
  newAnyPubKey := encodeOnly ⟨[]⟩ ⟨"/key", []⟩
  marshalTxBody := encodeOnly ⟨[⟨"/msg", []⟩]⟩ [1]
  marshalAuthInfo := encodeOnly railAuthInfo [2]
  marshalSignDoc _ := .ok []
  marshalTxRaw := encodeOnly ⟨[1], [2], [[3]]⟩ [4]

/-- Their decoders. -/
def railCodec : TxCodec where
  unmarshalTxRaw _ := .ok ⟨[1], [2], [[3]]⟩
  unmarshalTxBody _ := .ok ⟨[⟨"/msg", []⟩]⟩
  unmarshalAuthInfo _ := .ok railAuthInfo
  unpackMsg _ := .ok (some (.withdrawFromSubaccount railWithdraw))
  unpackPubKey _ := .ok (some ⟨[]⟩)
  address _ := []
  accAddressString _ := "svp1owner"
  accAddressFromBech32 _ := .ok []

/-- The codec loses nothing. -/
theorem rail_lossless : Lossless railCodec railEncoder where
  msg m any encoded := by
    cases m with
    | withdrawFromSubaccount m =>
      rw [← encodeOnly_ok encoded]
      rfl
    | _ => cases encoded
  pubKey key any encoded := by
    rw [← encodeOnly_ok encoded]
    rfl
  txBody body bytes encoded := by
    rw [← encodeOnly_ok encoded]
    rfl
  authInfo info bytes encoded := by
    rw [← encodeOnly_ok encoded]
    rfl
  txRaw raw bytes encoded := by
    rw [← encodeOnly_ok encoded]
    rfl

/-- A server with one tenant that may use subaccount 0. -/
def railDeps : Deps where
  __ := fixedDeps ⟨0, 2, 0, 2⟩ ⟨"tenant", "svp1owner", [0], false⟩ []
  codec := railCodec

/-- The builders of the example. -/
def railBuilder : BuilderDeps :=
  ⟨newAssembler "svp-1" "asvp" "1" 0, railEncoder,
    ⟨fun _ => .ok (), fun _ => none, fun _ => .ok ()⟩⟩

/-- A server that has just started. -/
def railWorld : World := startWorld ⟨"", "", ∅, ∅⟩ (.new 2)

/-- The request of the example. -/
def railRequest : Handler TxPayload :=
  buildWithdrawFromSubaccount railBuilder ownerContext ⟨0, "1.5", "first"⟩

/-- The run of the request. -/
def railRun : Events × World × Except Fault TxPayload :=
  runAlone (server railDeps) (fun _ => acceptingEnv 0) 0 railWorld railRequest

/-- The payload the request returns. -/
def railPayload : TxPayload where
  version := 1
  clientID := "first"
  chainID := "svp-1"
  signerAddress := "svp1owner"
  accountNumber := "0"
  sequence := "0"
  isShortTermCLOB := false
  txBodyBytesB64 := "AQ=="
  fee := ⟨"1000000", [⟨"asvp", "1"⟩]⟩
  summary :=
    { toolName := "build_withdraw_from_subaccount"
      msgTypeURL := "/dydxprotocol.sending.MsgWithdrawFromSubaccount"
      subaccount := ⟨"svp1owner", 0⟩, amountHuman := "1.5" }
  expiresAt := 30000000000

/-- The owner's key. -/
def railKey : PrivKey := ⟨⟨[]⟩, fun _ => .ok [3]⟩

/-- The build and the inspection of a withdrawal of 1.5 USDC agree on 1500000 quantums. -/
theorem build_and_broadcast_amounts_agree_withdraw :
    ∃ raw tp q, Base64.decode "BA==".toList = some raw ∧
      ActsFor railDeps railWorld ownerContext tp ∧
      signerAddressFromTxRaw railCodec raw = .ok tp.owner ∧
      railRun.1.filterMap enforceCall = [(tp.tenantID, .withdraw, q)] ∧
      extractWithdrawQuantums railCodec raw = .ok q ∧
      extractBankSends railCodec raw tp.owner = .ok ∅ := by
  have returned : railRun.2.2 = .ok railPayload := by decide +kernel
  have run : Alone railDeps railWorld railRequest railRun.1 railRun.2.1 (.ok railPayload) := by
    rw [← returned]
    exact exec_runAlone _ 0 railWorld railRequest
  exact (build_and_broadcast_amounts_agree railDeps railBuilder rail_lossless
    ownerContext railKey railWorld railRun.2.1 railRun.1 railPayload
    ⟨"BA==", "Aw==", ""⟩ (by decide +kernel) rfl).1 ⟨0, "1.5", "first"⟩ run

end SvpMcp
