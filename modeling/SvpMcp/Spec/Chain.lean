import SvpMcp.Model.Transaction

/-!
# What the chain does with a transaction

The messages the chain finds in a transaction and what executing them moves. An account is named by
the bytes its bech32 string decodes to; a `MsgExec` executes the messages inside it.
-/

namespace SvpMcp

/-- The messages of a transaction that decode. -/
def decodedMsgs (codec : TxCodec) (anys : List ProtoAny) : List Msg :=
  anys.filterMap fun any =>
    match codec.unpackMsg any with
    | .ok found => found
    | .error _ => none

/-- The messages the chain finds in the bytes of a transaction. -/
def txMsgs (codec : TxCodec) (rawTxBytes : Bytes) : List Msg :=
  match decodeTxBody codec rawTxBytes with
  | .ok body => decodedMsgs codec body.messages
  | .error _ => []

/-! ## Subaccount funds

The messages of a transaction count as they stand in its body. A withdrawal, deposit or transfer
that is nested in a `MsgExec` is not counted here, as the handlers do not look for one there.
-/

/-- The USDC quantums a message withdraws; a `MsgExec` counts as none. -/
def Msg.usdcWithdrawn : Msg → Nat
  | .withdrawFromSubaccount w => if w.assetId = assetUsdcId then w.quantums.toNat else 0
  | _ => 0

/-- The USDC quantums the messages withdraw together. -/
def usdcWithdrawn : List Msg → Nat
  | [] => 0
  | m :: rest => m.usdcWithdrawn + usdcWithdrawn rest

/-- An amount is within a cap; an absent cap is disabled. -/
def WithinCap (cap : Option UInt64) (amount : Nat) : Prop :=
  ∀ q, cap = some q → amount ≤ q.toNat

/-- Every USDC deposit among the messages, not inside a `MsgExec`, is within the deposit cap. -/
def DepositsWithin (cfg : Config) (msgs : List Msg) : Prop :=
  ∀ d, .depositToSubaccount d ∈ msgs → d.assetId = assetUsdcId →
    WithinCap (perToolCapQuantums cfg .deposit) d.quantums.toNat

/-- Every USDC transfer among the messages, not inside a `MsgExec`, is within the transfer cap. -/
def TransfersWithin (cfg : Config) (msgs : List Msg) : Prop :=
  ∀ t, .createTransfer (some t) ∈ msgs → t.assetId = assetUsdcId →
    WithinCap (perToolCapQuantums cfg .transfer) t.amount.toNat

/-- An amount is within what a ledger has left for a tenant at an instant, if the daily cap is
enabled. -/
def WithinDailyCap (cfg : Config) (ledger : Option MemoryLedger) (now : Calendar.Time)
    (tenantID : String) (amount : Nat) : Prop :=
  ∀ l cap, ledger = some l → dailyCapQuantums cfg = some cap →
    amount ≤ (l.remaining now tenantID).1.toNat

/-- The base units of a denom among coins. -/
def coinsOf (denom : String) : List Coin → Int
  | [] => 0
  | c :: rest => (if c.denom = denom then c.amount.getD 0 else 0) + coinsOf denom rest

section Debits

variable (decode : String → Except String Bytes) (account : Bytes) (denom : String)

/-- The base units the inputs of a `MsgMultiSend` debit from an account. -/
def inputsDebit : List BankEntry → Int
  | [] => 0
  | input :: rest =>
    (if decode input.address = .ok account then coinsOf denom input.coins else 0) +
      inputsDebit rest

mutual

/-- The base units of a denom that executing a message's bank sends debits from an account. -/
def Msg.debits : Msg → Int
  | .send m => if decode m.fromAddress = .ok account then coinsOf denom m.amount else 0
  | .multiSend inputs _ => inputsDebit decode account denom inputs
  | .exec grantee msgs => if decode grantee = .ok account then debitsAll msgs else 0
  | _ => 0

/-- The base units all messages debit. -/
def debitsAll : List Msg → Int
  | [] => 0
  | m :: rest => m.debits + debitsAll rest

end

mutual

/-- A message carries a bank send of a denom out of an account. -/
def Msg.Spends : Msg → Prop
  | .send m => decode m.fromAddress = .ok account ∧ ∃ c ∈ m.amount, c.denom = denom
  | .multiSend inputs _ =>
    ∃ input ∈ inputs, decode input.address = .ok account ∧ ∃ c ∈ input.coins, c.denom = denom
  | .exec grantee msgs => decode grantee = .ok account ∧ someSpends msgs
  | _ => False

/-- One of the messages carries such a send. -/
def someSpends : List Msg → Prop
  | [] => False
  | m :: rest => m.Spends ∨ someSpends rest

end

end Debits

/-- The chain sends only coins with a positive amount. -/
def PositiveCoins (coins : List Coin) : Prop :=
  ∀ c ∈ coins, ∃ a, c.amount = some a ∧ 0 < a

mutual

/-- The chain executes a message only if the coins of every bank send in it are positive. -/
def Msg.Executable : Msg → Prop
  | .send m => PositiveCoins m.amount
  | .multiSend inputs _ => ∀ input ∈ inputs, PositiveCoins input.coins
  | .exec _ msgs => allExecutable msgs
  | _ => True

/-- The chain executes all messages. -/
def allExecutable : List Msg → Prop
  | [] => True
  | m :: rest => m.Executable ∧ allExecutable rest

end

end SvpMcp
