import SvpMcp.Verif.EvmPayloads

/-!
# What the EVM signer keeps of a payload

Numbers and call data arrive as they are declared. The recipient is converted without a check: an
empty one is signed as a call of the zero address.
-/

namespace SvpMcp

/-- The recipient a payload declares: none for a contract creation, or the spelled address. -/
def DeclaresRecipient (text : String) (recipient : Option Address) : Prop :=
  if text = "" then recipient = none
  else ∃ a, recipient = some a ∧ Hex.Spells (Hex.unmarked text.toList) a.bytes

/-- The value a payload declares; an empty one is zero. -/
def DeclaresValue (text : String) (value : Int) : Prop :=
  if text = "" then value = 0 else Decimal.Denotes text.toList value

/-- The call data a payload declares; an empty text is none. -/
def DeclaresData (text : String) (data : Bytes) : Prop :=
  if text = "" then data = []
  else ∃ digits, (text.toList = '0' :: 'x' :: digits ∨ text.toList = '0' :: 'X' :: digits) ∧
    Hex.Spells digits data

/-- A transaction has the fields a payload declares. -/
structure EVMTxPayload.DeclaresTx (p : EVMTxPayload) (tx : EvmTx) : Prop where
  chainID : Decimal.Denotes p.evmChainID.toList tx.chainId
  nonce : Decimal.readDigits p.nonce.toList = some tx.nonce.toNat
  gas : Decimal.readDigits p.gas.toList = some tx.gas.toNat
  gasFeeCap : Decimal.Denotes p.maxFeePerGas.toList tx.gasFeeCap
  gasTipCap : Decimal.Denotes p.maxPriorityFeePerGas.toList tx.gasTipCap
  value : DeclaresValue p.value tx.value
  data : DeclaresData p.data tx.data
  recipient : DeclaresRecipient p.recipient tx.recipient

/-- What is read is denoted. -/
theorem parseBigField_ok {field text : String} {n : Int}
    (read : parseBigField field text = .ok n) : Decimal.Denotes text.toList n := by
  rw [Decimal.denotes_iff]
  unfold parseBigField at read
  cases found : Decimal.read text.toList with
  | none =>
    simp only [found] at read
    cases read
  | some m =>
    simp only [found] at read
    rw [Except.ok.inj read]

/-- So is a `uint64`. -/
theorem parseUintField_ok {field text : String} {n : UInt64}
    (read : parseUintField field text = .ok n) :
    Decimal.readDigits text.toList = some n.toNat := by
  unfold parseUintField Decimal.readUint64 at read
  cases found : Decimal.readDigits text.toList with
  | none =>
    simp only [found] at read
    cases read
  | some m =>
    simp only [found] at read
    by_cases fits : m < 2 ^ 64
    · rw [if_pos fits] at read
      have isNumber : UInt64.ofNat m = n := Except.ok.inj read
      rw [← isNumber, UInt64.toNat_ofNat_of_lt' fits]
    · rw [if_neg fits] at read
      cases read

/-- So is a value. -/
theorem parseValueField_ok {text : String} {n : Int} (read : parseValueField text = .ok n) :
    DeclaresValue text n := by
  unfold parseValueField at read
  unfold DeclaresValue
  by_cases empty : text = ""
  · rw [if_pos empty] at read ⊢
    exact (Except.ok.inj read).symm
  · rw [if_neg empty] at read ⊢
    exact parseBigField_ok read

/-- So are data. -/
theorem parseDataField_ok {text : String} {data : Bytes}
    (read : parseDataField text = .ok data) : DeclaresData text data := by
  unfold parseDataField at read
  unfold DeclaresData
  by_cases empty : text = ""
  · rw [if_pos empty] at read ⊢
    exact (Except.ok.inj read).symm
  · rw [if_neg empty] at read ⊢
    exact Hexutil.spells_of_decode (wrapExternal_eq_ok.mp read)

/-- The converted recipient is the declared one exactly for a text that is an address. -/
theorem declaresRecipient_iff (text : String) :
    DeclaresRecipient text (some (.ofHex text)) ↔ Address.isHex text.toList = true := by
  unfold DeclaresRecipient
  by_cases empty : text = ""
  · have creation : some (Address.ofHex text) ≠ none := fun none => nomatch none
    have noAddress : ¬ Address.isHex "".toList = true := by decide
    rw [if_pos empty]
    exact iff_of_false creation (empty ▸ noAddress)
  · rw [if_neg empty, Address.isHex_iff_spells]
    constructor
    · intro ⟨a, isAddress, spells⟩
      rw [Option.some.inj isAddress]
      exact spells
    · intro spells
      exact ⟨_, rfl, spells⟩

/-- A decoded transaction carries the fields that were signed. -/
structure EvmTx.Carries (tx : EvmTx) (unsigned : DynamicFeeTx) : Prop where
  chainID : (tx.chainId : Int) = unsigned.chainID
  nonce : tx.nonce = unsigned.nonce
  gasTipCap : tx.gasTipCap = unsigned.gasTipCap
  gasFeeCap : tx.gasFeeCap = unsigned.gasFeeCap
  gas : tx.gas = unsigned.gas
  recipient : tx.recipient = some unsigned.recipient
  value : tx.value = unsigned.value
  data : tx.data = unsigned.data

/-- Decoding inverts encoding, and recovery inverts signing: a transaction the key has signed is
decoded with its fields, and its sender is the key's address. -/
structure EvmExact (codec : EvmCodec) (key : EvmSigner) : Prop where
  decodes : ∀ unsigned raw, key.signTx unsigned = .ok raw →
    ∃ tx, codec.unmarshalBinary raw = .ok tx ∧ tx.Carries unsigned ∧
      ∀ a, key.address = .ok a → codec.sender tx = .ok a

/-- A raw transaction, decoded and attributed as `BroadcastEVMTx` does it. -/
def ReceivedAs (codec : EvmCodec) (rawTxHex : String) (tx : EvmTx) (sender : Address) : Prop :=
  ∃ raw, Hexutil.decode rawTxHex.toList = .ok raw ∧ codec.unmarshalBinary raw = .ok tx ∧
    codec.sender tx = .ok sender

/-- The transaction that is received for a payload has the declared fields, and the key's
address has sent it. -/
def SignedFaithfully (codec : EvmCodec) (key : EvmSigner) (p : EVMTxPayload)
    (rawTxHex : String) : Prop :=
  ∃ tx sender, ReceivedAs codec rawTxHex tx sender ∧ key.address = .ok sender ∧ p.DeclaresTx tx

/-- What a signature is made from. -/
theorem signEVM_ok {key : EvmSigner} {p : EVMTxPayload} {rawTxHex : String}
    (signed : signEVM key p = .ok rawTxHex) :
    ∃ sender unsigned raw, key.address = .ok sender ∧ p.unsignedTx = .ok unsigned ∧
      key.signTx unsigned = .ok raw ∧ rawTxHex = String.ofList (Hexutil.encode raw) := by
  simp [signEVM] at signed
  obtain ⟨_, sender, isSender, _, unsigned, isUnsigned, raw, isRaw, rfl⟩ := signed
  exact ⟨sender, unsigned, raw, isSender, isUnsigned, isRaw, rfl⟩

/-- A transaction that carries what the signer read has the declared fields exactly if its
recipient is the declared one. -/
theorem declaresTx_iff {p : EVMTxPayload} {unsigned : DynamicFeeTx} {tx : EvmTx}
    (read : p.Declares unsigned) (carries : tx.Carries unsigned) :
    p.DeclaresTx tx ↔ DeclaresRecipient p.recipient tx.recipient := by
  constructor
  · exact EVMTxPayload.DeclaresTx.recipient
  · intro recipient
    have chainID := parseBigField_ok read.chainID
    have nonce := parseUintField_ok read.nonce
    have gas := parseUintField_ok read.gas
    have gasFeeCap := parseBigField_ok read.gasFeeCap
    have gasTipCap := parseBigField_ok read.gasTipCap
    have value := parseValueField_ok read.value
    have data := parseDataField_ok read.data
    rw [← carries.chainID] at chainID
    rw [← carries.nonce] at nonce
    rw [← carries.gas] at gas
    rw [← carries.gasFeeCap] at gasFeeCap
    rw [← carries.gasTipCap] at gasTipCap
    rw [← carries.value] at value
    rw [← carries.data] at data
    exact ⟨chainID, nonce, gas, gasFeeCap, gasTipCap, value, data, recipient⟩

/-- A payload that the signer accepts is signed faithfully exactly if its recipient is an
address. -/
theorem evm_signature_faithful_iff {codec : EvmCodec} {key : EvmSigner} {p : EVMTxPayload}
    {rawTxHex : String} (isExact : EvmExact codec key) (signed : signEVM key p = .ok rawTxHex) :
    SignedFaithfully codec key p rawTxHex ↔ Address.isHex p.recipient.toList = true := by
  obtain ⟨sender, unsigned, raw, isSender, isUnsigned, isRaw, rfl⟩ := signEVM_ok signed
  obtain ⟨tx, decoded, carries, recovered⟩ := isExact.decodes unsigned raw isRaw
  have read := unsignedTx_ok isUnsigned
  have hex : Hexutil.decode (String.ofList (Hexutil.encode raw)).toList = .ok raw := by
    rw [String.toList_ofList, Hexutil.decode_encode]
  have declared : p.DeclaresTx tx ↔ Address.isHex p.recipient.toList = true := by
    rw [declaresTx_iff read carries, carries.recipient, ← read.recipient, declaresRecipient_iff]
  rw [← declared]
  constructor
  · intro ⟨tx', _, ⟨raw', isRaw', decoded', _⟩, _, declares⟩
    cases hex.symm.trans isRaw'
    cases decoded.symm.trans decoded'
    exact declares
  · intro declares
    exact ⟨tx, sender, ⟨raw, hex, decoded, recovered sender isSender⟩, isSender, declares⟩

/-- A key that signs a single transaction. -/
def singleKey (unsigned : DynamicFeeTx) : EvmSigner where
  address := .ok (.ofBytes [9])
  signTx tx := if tx = unsigned then .ok [2, 1] else .error (.errorf ⟨"sign evm tx", []⟩)

/-- The signed form of a transaction on a chain. -/
def signedForm (chainId : Nat) (unsigned : DynamicFeeTx) : EvmTx :=
  ⟨chainId, some unsigned.recipient, unsigned.value, unsigned.data, unsigned.nonce, unsigned.gas,
    unsigned.gasTipCap, unsigned.gasFeeCap, (0, 1, 1)⟩

/-- The decoder of that transaction. -/
def singleCodec (chainId : Nat) (unsigned : DynamicFeeTx) : EvmCodec :=
  ⟨fun _ => .ok (signedForm chainId unsigned), fun _ => .ok (.ofBytes [9]), fun _ => ""⟩

/-- The codec is exact. -/
theorem single_exact {chainId : Nat} {unsigned : DynamicFeeTx}
    (sameChain : (chainId : Int) = unsigned.chainID) :
    EvmExact (singleCodec chainId unsigned) (singleKey unsigned) := by
  refine ⟨fun tx raw isRaw => ⟨signedForm chainId unsigned, rfl, ?_, fun a isAddress => isAddress⟩⟩
  have same : tx = unsigned := by
    by_contra other
    simp only [singleKey, if_neg other] at isRaw
    cases isRaw
  rw [same]
  exact ⟨sameChain, rfl, rfl, rfl, rfl, rfl, rfl, rfl⟩

/-- A call without data and without value, to a recipient that is given as a text. -/
def callPayload (recipient : String) : EVMTxPayload :=
  ⟨currentVersion, "first", "262144", "", "eip1559", recipient, "7", "21000", "30", "2", "", "", 0,
    ⟨"", ""⟩⟩

/-- The transaction the signer reads from it. -/
def callTx (recipient : String) : DynamicFeeTx :=
  ⟨262144, 7, 2, 30, 21000, .ofHex recipient, 0, []⟩

/-- A call of the third address is signed faithfully. -/
theorem evm_signature_faithful_iff_third :
    ∃ rawTxHex,
      signEVM (singleKey (callTx "0x0000000000000000000000000000000000000003"))
        (callPayload "0x0000000000000000000000000000000000000003") = .ok rawTxHex ∧
      SignedFaithfully (singleCodec 262144 (callTx "0x0000000000000000000000000000000000000003"))
        (singleKey (callTx "0x0000000000000000000000000000000000000003"))
        (callPayload "0x0000000000000000000000000000000000000003") rawTxHex :=
  ⟨"0x0201", by decide +kernel,
    (evm_signature_faithful_iff (single_exact rfl) (by decide +kernel)).mpr (by decide)⟩

/-- A payload without a recipient is signed as a call of the zero address, not as the creation
of a contract. -/
theorem creation_signed_as_call :
    EvmExact (singleCodec 262144 (callTx "")) (singleKey (callTx "")) ∧
      signEVM (singleKey (callTx "")) (callPayload "") = .ok "0x0201" ∧
      ∃ tx, ReceivedAs (singleCodec 262144 (callTx "")) "0x0201" tx (.ofBytes [9]) ∧
        tx.recipient = some .zero ∧ ¬ DeclaresRecipient "" tx.recipient := by
  refine ⟨single_exact rfl, by decide +kernel, signedForm 262144 (callTx ""),
    ⟨[2, 1], by decide +kernel, rfl, rfl⟩, rfl, ?_⟩
  rw [DeclaresRecipient, if_pos rfl]
  exact fun none => nomatch none

end SvpMcp
