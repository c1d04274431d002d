import SvpMcp.Lib.Keccak
import SvpMcp.Model.Transaction

/-!
# EVM transactions and their metering

The decoder of `tools/evm.go` that finds the tenant's outbound amounts. The transaction codec and
signature recovery are third-party code and enter as an `EvmCodec`.
-/

namespace SvpMcp

/-- `ethtypes.Transaction`, signed. -/
structure EvmTx where
  chainId : Nat
  /-- `To`; nil for a contract creation. -/
  recipient : Option Address
  /-- `Value` in wei. -/
  value : Int
  data : Bytes
  nonce : UInt64
  gas : UInt64
  gasTipCap : Int
  gasFeeCap : Int
  /-- `RawSignatureValues`, from which the sender is recovered. -/
  signature : Nat × Nat × Nat
deriving DecidableEq

/-- The third-party functions on EVM transactions. -/
structure EvmCodec where
  /-- `Transaction.UnmarshalBinary`. -/
  unmarshalBinary : Bytes → Except String EvmTx
  /-- `ethtypes.Sender` with the latest signer of the transaction's chain. -/
  sender : EvmTx → Except String Address
  hashHex : EvmTx → String

/-- `ownerEthAddress` — the 0x address of a bech32 owner. -/
def ownerEthAddress (codec : TxCodec) (owner : String) : Except Err Address :=
  match codec.accAddressFromBech32 owner with
  | .error text => .error (.wrap "parse owner %q: %w" [owner] (.external text))
  | .ok acc => .ok (.ofBytes acc)

/-- The selector of `transfer`. -/
def selERC20Transfer : Bytes := [0xa9, 0x05, 0x9c, 0xbb]

/-- The selector of `transferFrom`. -/
def selERC20TransferFrom : Bytes := [0x23, 0xb8, 0x72, 0xdd]

/-- The closure `addOut` of `decodeTransferOut`. -/
def addOut (out : Table String Int) (sym : String) (amt : Int) : Table String Int :=
  if amt ≤ 0 then out else out.set sym ((out.get sym).getD 0 + amt)

/-- `data[low:high]`. -/
def slice (data : Bytes) (low high : Nat) : Bytes :=
  (data.drop low).take (high - low)

/-- The native value leg of `decodeTransferOut`. -/
def nativeOut (recipient : Address) (value : Option Int) (router wsvp : Address) :
    Table String Int :=
  match value with
  | none => ∅
  | some value =>
    if 0 < value ∧ recipient ≠ router ∧ recipient ≠ wsvp then
      match symbolForNative with
      | some sym => addOut ∅ sym value
      | none => ∅
    else ∅

/-- `decodeTransferOut` — the outbound amounts of one transaction by cap symbol. -/
def decodeTransferOut (recipient : Option Address) (value : Option Int) (data : Bytes)
    (owner router wsvp : Address) : Table String Int :=
  match recipient with
  | none => ∅
  | some recipient =>
    let out := nativeOut recipient value router wsvp
    if data.length < 4 then out
    else
      match symbolForToken recipient with
      | none => out
      | some sym =>
        if data.take 4 = selERC20Transfer ∧ 4 + 64 ≤ data.length then
          addOut out sym (BigEndian.read (slice data (4 + 32) (4 + 64)))
        else if data.take 4 = selERC20TransferFrom ∧ 4 + 96 ≤ data.length then
          -- Only the owner's own outflow counts.
          if Address.ofBytes (slice data (4 + 12) (4 + 32)) = owner then
            addOut out sym (BigEndian.read (slice data (4 + 64) (4 + 96)))
          else out
        else out

end SvpMcp
