import SvpMcp.Verif.FundsRail

/-!
# What a signature keeps of a payload

Body, sequence, gas limit and sign-doc arrive as they were assembled. The signer writes no fee
coins, so the fee arrives only where the payload has none.
-/

namespace SvpMcp

open Calendar

/-- Decoded coins against a payload's. -/
def SameCoins : List Coin → List PayloadCoin → Prop :=
  List.Forall₂ fun coin written =>
    coin.denom = written.denom ∧
      ∃ n, coin.amount = some n ∧ Decimal.read written.amount.toList = some n

/-- A transaction that decodes to the parts of a payload and is signed over its sign-doc. -/
structure DecodesTo (codec : TxCodec) (enc : TxEncoder) (priv : PrivKey) (p : TxPayload)
    (tx : TxRaw) (info : AuthInfo) (signer : SignerInfo) (fee : Fee) : Prop where
  body : Base64.decode p.txBodyBytesB64.toList = some tx.bodyBytes
  authInfo : codec.unmarshalAuthInfo tx.authInfoBytes = .ok info
  oneSigner : info.signerInfos = [signer]
  sequence : formatUint signer.sequence = p.sequence
  hasFee : info.fee = some fee
  gasLimit : formatUint fee.gasLimit = p.fee.gasLimit
  amount : SameCoins fee.amount p.fee.amount
  signed : ∃ accNum signBytes sig, formatUint accNum = p.accountNumber ∧
    enc.marshalSignDoc ⟨tx.bodyBytes, tx.authInfoBytes, p.chainID, accNum⟩ = .ok signBytes ∧
    priv.sign signBytes = .ok sig ∧ tx.signatures = [sig]

/-- A signed transaction that preserves a payload. -/
def Preserves (codec : TxCodec) (enc : TxEncoder) (priv : PrivKey) (p : TxPayload)
    (signed : SignedTx) : Prop :=
  ∃ raw tx info signer fee, Base64.decode signed.txRawBytesB64.toList = some raw ∧
    codec.unmarshalTxRaw raw = .ok tx ∧ DecodesTo codec enc priv p tx info signer fee

/-- A number read is printed the same. -/
theorem formatUint_of_read {n m : UInt64}
    (read : Decimal.readUint64 (formatUint n).toList = some m) :
    formatUint m = formatUint n := by
  rw [formatUint, String.toList_ofList, Decimal.readUint64_digits] at read
  rw [Option.some.inj read]

/-- What an assembled payload says. -/
theorem assemble_ok {a : Assembler} {enc : TxEncoder} {args : Args} {now : Time} {p : TxPayload}
    (assembled : a.assemble enc args now = .ok p) :
    p.sequence = formatUint args.account.sequence ∧
      p.accountNumber = formatUint args.account.accountNumber ∧
      p.fee = ⟨formatUint a.gasLimit,
        if isShortTermClobMsgs args.msgs then [] else [⟨a.feeDenom, a.feeAmount⟩]⟩ := by
  obtain ⟨_, _, returned⟩ := bind_eq_ok.mp assembled
  cases returned
  exact ⟨rfl, rfl, rfl⟩

/-- The signer puts no coins into the fee. -/
theorem decoded_fee {codec : TxCodec} {enc : TxEncoder} {priv : PrivKey} {p : TxPayload}
    {signed : SignedTx} {parts : Parts} (lossless : Lossless codec enc)
    (built : SignedFrom enc priv p signed parts) {raw : Bytes} {tx : TxRaw} {info : AuthInfo}
    (decoded : Base64.decode signed.txRawBytesB64.toList = some raw)
    (isTx : codec.unmarshalTxRaw raw = .ok tx)
    (isInfo : codec.unmarshalAuthInfo tx.authInfoBytes = .ok info) :
    info.fee = some ⟨[], parts.gasLimit⟩ := by
  rw [built.text, String.toList_ofList, Base64.decode_encode] at decoded
  rw [← Option.some.inj decoded, lossless.txRaw _ _ built.whole] at isTx
  rw [← Except.ok.inj isTx, lossless.authInfo _ _ built.marshalled] at isInfo
  rw [← Except.ok.inj isInfo]
  rfl

/-- Signing preserves an assembled payload if and only if it is a short-term order: any other
payload carries a fee, which the signer drops. -/
theorem signing_preserves_payload_iff {codec : TxCodec} {enc : TxEncoder}
    (lossless : Lossless codec enc) {a : Assembler} {args : Args} {now : Time} {p : TxPayload}
    {priv : PrivKey} {signed : SignedTx} (assembled : a.assemble enc args now = .ok p)
    (isSigned : sign codec enc priv p = .ok signed) :
    Preserves codec enc priv p signed ↔ isShortTermClobMsgs args.msgs = true := by
  obtain ⟨parts, built⟩ := sign_ok isSigned
  obtain ⟨sequence, accountNumber, fee⟩ := assemble_ok assembled
  constructor
  · intro ⟨raw, tx, info, signer, decodedFee, decoded, isTx, decodes⟩
    have noCoins := decoded_fee lossless built decoded isTx decodes.authInfo
    have feeIs : decodedFee = ⟨[], parts.gasLimit⟩ :=
      Option.some.inj (decodes.hasFee.symm.trans noCoins)
    have amount := decodes.amount
    rw [feeIs, fee] at amount
    by_contra notShort
    rw [if_neg notShort] at amount
    cases amount
  · intro isShort
    refine ⟨parts.raw, _, parts.info, ⟨some parts.pubAny, some .direct, parts.seq⟩,
      ⟨[], parts.gasLimit⟩, ?_, lossless.txRaw _ _ built.whole, ?_⟩
    · rw [built.text, String.toList_ofList, Base64.decode_encode]
    · exact {
        body := built.decoded
        authInfo := lossless.authInfo _ _ built.marshalled
        oneSigner := rfl
        sequence := by
          rw [sequence]
          exact formatUint_of_read (sequence ▸ built.seq)
        hasFee := rfl
        gasLimit := by
          rw [fee]
          exact formatUint_of_read (by rw [← built.gasLimit, fee])
        amount := by
          rw [fee, if_pos isShort]
          exact .nil
        signed := ⟨parts.accNum, parts.signBytes, parts.sig, by
          rw [accountNumber]
          exact formatUint_of_read (accountNumber ▸ built.accNum),
          built.doc, built.signs, rfl⟩ }

/-- A batch cancellation of three orders in two markets. -/
def threeCancels : MsgBatchCancel := ⟨⟨"svp1owner", 0⟩, [⟨3, [9, 1]⟩, ⟨0, [4]⟩], 7⟩

/-- Encoders that know one batch cancellation. -/
def cancelEncoder : TxEncoder where
  __ := railEncoder
  newAnyMsg
    | .batchCancel m => encodeOnly threeCancels ⟨"/msg", []⟩ m
    | _ => .error "unsupported"

/-- Their decoders. -/
def cancelCodec : TxCodec where
  __ := railCodec
  unpackMsg _ := .ok (some (.batchCancel threeCancels))

/-- The codec loses nothing. -/
theorem cancel_lossless : Lossless cancelCodec cancelEncoder where
  msg m any encoded := by
    cases m with
    | batchCancel m =>
      rw [← encodeOnly_ok encoded]
      rfl
    | _ => cases encoded
  pubKey := rail_lossless.pubKey
  txBody := rail_lossless.txBody
  authInfo := rail_lossless.authInfo
  txRaw := rail_lossless.txRaw

/-- The assembler of the examples. -/
def signingAssembler : Assembler := newAssembler "svp-1" "asvp" "1" 0

/-- What the payload of a message is assembled from. -/
def signingArgs (msg : Msg) : Args :=
  ⟨[msg], "svp1owner", ⟨0, 0⟩, "first", { toolName := "", msgTypeURL := "" }⟩

/-- A batch cancellation is preserved. -/
theorem signing_preserves_payload_iff_cancel :
    ∃ p signed,
      signingAssembler.assemble cancelEncoder (signingArgs (.batchCancel threeCancels)) 0 = .ok p ∧
      sign cancelCodec cancelEncoder railKey p = .ok signed ∧
      Preserves cancelCodec cancelEncoder railKey p signed :=
  ⟨_, _, rfl, rfl, (@signing_preserves_payload_iff cancelCodec cancelEncoder cancel_lossless
    signingAssembler (signingArgs (.batchCancel threeCancels)) 0 _ railKey _ rfl rfl).mpr rfl⟩

/-- The fee of a withdrawal is not preserved. -/
theorem signing_drops_fee :
    ¬ ∀ (codec : TxCodec) (enc : TxEncoder), Lossless codec enc →
      ∀ (a : Assembler) (args : Args) (now : Time) (p : TxPayload) (priv : PrivKey)
        (signed : SignedTx), a.assemble enc args now = .ok p →
        codec.accAddressString (codec.address priv.pubKey) = p.signerAddress →
        sign codec enc priv p = .ok signed → Preserves codec enc priv p signed := by
  intro all
  obtain ⟨raw, tx, info, signer, fee, decoded, isTx, decodes⟩ := all railCodec railEncoder
    rail_lossless signingAssembler (signingArgs (.withdrawFromSubaccount railWithdraw)) 0 _ railKey
    _ rfl rfl rfl
  have isInfo : info = railAuthInfo := (Except.ok.inj decodes.authInfo).symm
  have isFee : fee = ⟨[], 1000000⟩ := by
    have hasFee := decodes.hasFee
    rw [isInfo] at hasFee
    exact (Option.some.inj hasFee).symm
  have amount := decodes.amount
  rw [isFee] at amount
  cases amount

end SvpMcp
