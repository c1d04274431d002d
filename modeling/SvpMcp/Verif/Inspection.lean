import Mathlib.Algebra.Order.Ring.Int
import SvpMcp.Lib.Sums
import SvpMcp.Spec.Chain
import SvpMcp.Verif.Handlers

/-!
# What the inspection of a transaction finds

The withdrawals are summed exactly. The bank sends cover what the chain debits if and only if no
other message debits a capped denom from the signer.
-/

namespace SvpMcp

variable {codec : TxCodec} {rawTxBytes : Bytes}

/-- One turn of the loop adds what the message withdraws. -/
theorem addWithdraw_toNat {total next : UInt64} {any : ProtoAny}
    (added : addWithdraw codec total any = .ok next) :
    next.toNat = total.toNat + usdcWithdrawn (decodedMsgs codec [any]) := by
  unfold addWithdraw at added
  cases unpacked : codec.unpackMsg any with
  | error e =>
    rw [unpacked] at added
    cases added
    simp [decodedMsgs, unpacked, usdcWithdrawn]
  | ok found =>
    cases found with
    | none =>
      rw [unpacked] at added
      cases added
      simp [decodedMsgs, unpacked, usdcWithdrawn]
    | some m =>
      have one : decodedMsgs codec [any] = [m] := by simp [decodedMsgs, unpacked]
      rw [one, usdcWithdrawn, usdcWithdrawn, Nat.add_zero]
      cases m with
      | withdrawFromSubaccount w =>
        simp only [unpacked] at added
        by_cases usdc : w.assetId = assetUsdcId
        · rw [if_neg (not_not.mpr usdc)] at added
          simp only [Msg.usdcWithdrawn, if_pos usdc]
          by_cases wraps : total + w.quantums < total
          · rw [if_pos wraps] at added
            cases added
          · rw [if_neg wraps] at added
            cases added
            have sum := UInt64.toNat_add total w.quantums
            have left := total.toNat_lt
            have right := w.quantums.toNat_lt
            rw [UInt64.lt_iff_toNat_lt] at wraps
            omega
        · rw [if_pos usdc] at added
          cases added
          simp only [Msg.usdcWithdrawn, if_neg usdc, Nat.add_zero]
      | _ =>
        rw [unpacked] at added
        cases added
        rfl

/-- Messages of a longer list. -/
theorem decodedMsgs_cons (codec : TxCodec) (any : ProtoAny) (rest : List ProtoAny) :
    decodedMsgs codec (any :: rest) = decodedMsgs codec [any] ++ decodedMsgs codec rest := by
  rw [decodedMsgs, decodedMsgs, decodedMsgs, ← List.filterMap_append, List.singleton_append]

/-- Withdrawals of two lists. -/
theorem usdcWithdrawn_append (first second : List Msg) :
    usdcWithdrawn (first ++ second) = usdcWithdrawn first + usdcWithdrawn second := by
  induction first with
  | nil => simp [usdcWithdrawn]
  | cons m rest ih =>
    rw [List.cons_append, usdcWithdrawn, usdcWithdrawn, ih]
    omega

/-- The loop adds what all messages withdraw. -/
theorem foldlM_addWithdraw {anys : List ProtoAny} {total q : UInt64}
    (folded : anys.foldlM (addWithdraw codec) total = .ok q) :
    q.toNat = total.toNat + usdcWithdrawn (decodedMsgs codec anys) := by
  induction anys generalizing total with
  | nil =>
    cases folded
    rfl
  | cons any rest ih =>
    rw [List.foldlM_cons] at folded
    cases added : addWithdraw codec total any with
    | error e =>
      rw [added] at folded
      cases folded
    | ok next =>
      rw [added] at folded
      have tail := ih folded
      have head := addWithdraw_toNat added
      rw [decodedMsgs_cons, usdcWithdrawn_append]
      omega

/-- The extracted quantums are those the messages withdraw. -/
theorem extractWithdrawQuantums_toNat {q : UInt64}
    (extracted : extractWithdrawQuantums codec rawTxBytes = .ok q) :
    q.toNat = usdcWithdrawn (txMsgs codec rawTxBytes) := by
  unfold extractWithdrawQuantums at extracted
  unfold txMsgs
  cases decoded : decodeTxBody codec rawTxBytes with
  | error e =>
    rw [decoded] at extracted
    cases extracted
  | ok body =>
    rw [decoded] at extracted
    have total := foldlM_addWithdraw extracted
    rw [UInt64.toNat_zero, Nat.zero_add] at total
    exact total

/-- Positive coins add up to something non-negative. -/
theorem coinsOf_nonneg (denom : String) {coins : List Coin} (positive : PositiveCoins coins) :
    0 ≤ coinsOf denom coins := by
  induction coins with
  | nil => exact Int.le_refl 0
  | cons c rest ih =>
    have tail := ih fun c' member => positive c' (List.mem_cons_of_mem _ member)
    obtain ⟨a, amount, pos⟩ := positive c List.mem_cons_self
    rw [coinsOf, amount, Option.getD_some]
    split <;> omega

/-- Positive coins add up to something positive exactly when the denom occurs. -/
theorem coinsOf_pos_iff (denom : String) {coins : List Coin} (positive : PositiveCoins coins) :
    0 < coinsOf denom coins ↔ ∃ c ∈ coins, c.denom = denom := by
  induction coins with
  | nil => simp [coinsOf]
  | cons c rest ih =>
    have restPositive : PositiveCoins rest :=
      fun c' member => positive c' (List.mem_cons_of_mem _ member)
    have tail := ih restPositive
    have nonneg := coinsOf_nonneg denom restPositive
    obtain ⟨a, amount, pos⟩ := positive c List.mem_cons_self
    rw [coinsOf, amount, Option.getD_some, List.exists_mem_cons_iff]
    by_cases here : c.denom = denom
    · rw [if_pos here]
      exact ⟨fun _ => .inl here, fun _ => by omega⟩
    · rw [if_neg here, Int.zero_add, tail]
      exact ⟨.inr, fun either => either.resolve_left here⟩

section Debits

variable (decode : String → Except String Bytes) (account : Bytes) (denom : String)

/-- What the inputs of a multi-send debit is non-negative. -/
theorem inputsDebit_nonneg {inputs : List BankEntry}
    (positive : ∀ input ∈ inputs, PositiveCoins input.coins) :
    0 ≤ inputsDebit decode account denom inputs := by
  induction inputs with
  | nil => exact Int.le_refl 0
  | cons input rest ih =>
    have tail := ih fun other member => positive other (List.mem_cons_of_mem _ member)
    have head := coinsOf_nonneg denom (positive input List.mem_cons_self)
    rw [inputsDebit]
    split <;> omega

/-- The inputs debit something exactly when one of them spends the denom. -/
theorem inputsDebit_pos_iff {inputs : List BankEntry}
    (positive : ∀ input ∈ inputs, PositiveCoins input.coins) :
    0 < inputsDebit decode account denom inputs ↔
      ∃ input ∈ inputs, decode input.address = .ok account ∧
        ∃ c ∈ input.coins, c.denom = denom := by
  induction inputs with
  | nil => simp [inputsDebit]
  | cons input rest ih =>
    have restPositive : ∀ other ∈ rest, PositiveCoins other.coins :=
      fun other member => positive other (List.mem_cons_of_mem _ member)
    have tail := ih restPositive
    have tailNonneg := inputsDebit_nonneg decode account denom restPositive
    have head := coinsOf_pos_iff denom (positive input List.mem_cons_self)
    have headNonneg := coinsOf_nonneg denom (positive input List.mem_cons_self)
    rw [inputsDebit, List.exists_mem_cons_iff, ← tail, ← head]
    by_cases mine : decode input.address = .ok account
    · rw [if_pos mine]
      simp only [mine, true_and]
      omega
    · rw [if_neg mine, Int.zero_add]
      simp only [mine, false_and, false_or]

mutual

/-- What a message debits is non-negative. -/
theorem Msg.debits_nonneg : (m : Msg) → m.Executable → 0 ≤ m.debits decode account denom
  | .send m, executable => by
    have coins := coinsOf_nonneg denom executable
    rw [Msg.debits]
    split <;> omega
  | .multiSend _ _, executable => inputsDebit_nonneg decode account denom executable
  | .exec _ msgs, executable => by
    have nested := debitsAll_nonneg msgs executable
    rw [Msg.debits]
    split <;> omega
  | .withdrawFromSubaccount _, _ => Int.le_refl 0
  | .depositToSubaccount _, _ => Int.le_refl 0
  | .createTransfer _, _ => Int.le_refl 0
  | .placeOrder _, _ => Int.le_refl 0
  | .cancelOrder _, _ => Int.le_refl 0
  | .batchCancel _, _ => Int.le_refl 0
  | .other _, _ => Int.le_refl 0

/-- What messages debit together is non-negative. -/
theorem debitsAll_nonneg : (msgs : List Msg) → allExecutable msgs →
    0 ≤ debitsAll decode account denom msgs
  | [], _ => Int.le_refl 0
  | m :: rest, executable => by
    have head := Msg.debits_nonneg m executable.1
    have tail := debitsAll_nonneg rest executable.2
    rw [debitsAll]
    omega

end

mutual

/-- A message debits something exactly when it carries a send of the denom. -/
theorem Msg.debits_pos_iff : (m : Msg) → m.Executable →
    (0 < m.debits decode account denom ↔ m.Spends decode account denom)
  | .send m, executable => by
    have coins := coinsOf_pos_iff denom executable
    rw [Msg.debits, Msg.Spends, ← coins]
    split <;> simp_all
  | .multiSend _ _, executable => by
    rw [Msg.debits, Msg.Spends]
    exact inputsDebit_pos_iff decode account denom executable
  | .exec _ msgs, executable => by
    have nested := debitsAll_pos_iff msgs executable
    rw [Msg.debits, Msg.Spends, ← nested]
    split <;> simp_all
  | .withdrawFromSubaccount _, _ => by simp [Msg.debits, Msg.Spends]
  | .depositToSubaccount _, _ => by simp [Msg.debits, Msg.Spends]
  | .createTransfer _, _ => by simp [Msg.debits, Msg.Spends]
  | .placeOrder _, _ => by simp [Msg.debits, Msg.Spends]
  | .cancelOrder _, _ => by simp [Msg.debits, Msg.Spends]
  | .batchCancel _, _ => by simp [Msg.debits, Msg.Spends]
  | .other _, _ => by simp [Msg.debits, Msg.Spends]

/-- Messages debit something exactly when one of them carries a send of the denom. -/
theorem debitsAll_pos_iff : (msgs : List Msg) → allExecutable msgs →
    (0 < debitsAll decode account denom msgs ↔ someSpends decode account denom msgs)
  | [], _ => by simp [debitsAll, someSpends]
  | m :: rest, executable => by
    have head := Msg.debits_pos_iff m executable.1
    have tail := debitsAll_pos_iff rest executable.2
    have headNonneg := Msg.debits_nonneg decode account denom m executable.1
    have tailNonneg := debitsAll_nonneg decode account denom rest executable.2
    rw [debitsAll, someSpends, ← head, ← tail]
    omega

end

end Debits

/-- No two denoms share a cap symbol. -/
theorem symbolForDenom_injective {first second symbol : String}
    (atFirst : symbolForDenom first = some symbol)
    (atSecond : symbolForDenom second = some symbol) : first = second := by
  have cases : ∀ denom, symbolForDenom denom = some symbol →
      (denom = "asvp" ∧ symbol = "svp") ∨ (denom = "erc20/usdc" ∧ symbol = "usdc") := by
    intro denom found
    simp only [symbolForDenom, transferOutAssets, nativeBankDenom, uusdcDenom, List.find?] at found
    split at found
    · rename_i isNative
      simp_all
    · split at found
      · rename_i isUsdc
        simp_all
      · simp at found
  rcases cases first atFirst with ⟨rfl, rfl⟩ | ⟨rfl, rfl⟩
  · rcases cases second atSecond with ⟨rfl, _⟩ | ⟨_, impossible⟩
    · rfl
    · exact absurd impossible (by decide)
  · rcases cases second atSecond with ⟨_, impossible⟩ | ⟨rfl, _⟩
    · exact absurd impossible (by decide)
    · rfl

/-- A coin the extraction can count: one of a capped denom has an amount. -/
def Coin.Counted (c : Coin) : Prop :=
  symbolForDenom c.denom ≠ none → c.amount ≠ none

/-- The base units of a coin, if its denom is capped under a symbol. -/
def Coin.countedAs (symbol : String) (c : Coin) : Int :=
  if symbolForDenom c.denom = some symbol then c.amount.getD 0 else 0

/-- A message the extraction can count: a send of the signer has countable coins. -/
def Msg.Counted (signerAddr : String) : Msg → Prop
  | .send m => m.fromAddress = signerAddr → ∀ c ∈ m.amount, c.Counted
  | _ => True

/-- The base units a message sends from the signer under a symbol. -/
def Msg.countedAs (signerAddr symbol : String) : Msg → Int
  | .send m => if m.fromAddress = signerAddr then sumOver (Coin.countedAs symbol) m.amount else 0
  | _ => 0

/-- The total of a symbol so far. -/
def symbolTotal (out : Table String Int) (symbol : String) : Int :=
  (out.get symbol).getD 0

/-- A coin is added to the total of its symbol, or has no amount to add. -/
theorem addCoin_cases (out : Table String Int) (c : Coin) :
    (c.Counted ∧ ∃ after, addCoin out c = .ok after ∧
        ∀ symbol, symbolTotal after symbol = symbolTotal out symbol + c.countedAs symbol) ∨
      (¬ c.Counted ∧ addCoin out c = .error nilDereference) := by
  unfold Coin.Counted Coin.countedAs addCoin
  cases found : symbolForDenom c.denom with
  | none => exact .inl ⟨by simp, out, rfl, by simp⟩
  | some sym =>
    cases amount : c.amount with
    | none => exact .inr ⟨by simp, rfl⟩
    | some a =>
      refine .inl ⟨by simp, _, rfl, ?_⟩
      intro symbol
      rw [symbolTotal, Table.get_set]
      by_cases same : symbol = sym
      · rw [if_pos same, if_pos (by rw [same]), same]
        rfl
      · rw [if_neg same, if_neg (by simpa using Ne.symm same), Int.add_zero]
        rfl

/-- A message is added to the totals, or has a coin without an amount. -/
theorem addBankSend_cases (codec : TxCodec) (signerAddr : String) (out : Table String Int)
    (any : ProtoAny) :
    ((∀ m ∈ decodedMsgs codec [any], m.Counted signerAddr) ∧
        ∃ after, addBankSend codec signerAddr out any = .ok after ∧
          ∀ symbol, symbolTotal after symbol = symbolTotal out symbol +
            sumOver (Msg.countedAs signerAddr symbol) (decodedMsgs codec [any])) ∨
      (¬ (∀ m ∈ decodedMsgs codec [any], m.Counted signerAddr) ∧
        addBankSend codec signerAddr out any = .error nilDereference) := by
  unfold addBankSend
  cases unpacked : codec.unpackMsg any with
  | error e =>
    have nothing : decodedMsgs codec [any] = [] := by simp [decodedMsgs, unpacked]
    rw [nothing]
    exact .inl ⟨by simp, out, rfl, by simp [sumOver]⟩
  | ok found =>
    cases found with
    | none =>
      have nothing : decodedMsgs codec [any] = [] := by simp [decodedMsgs, unpacked]
      rw [nothing]
      exact .inl ⟨by simp, out, rfl, by simp [sumOver]⟩
    | some m =>
      have one : decodedMsgs codec [any] = [m] := by simp [decodedMsgs, unpacked]
      simp only [one, List.forall_mem_singleton, sumOver, Int.add_zero]
      cases m with
      | send m =>
        simp only [Msg.Counted, Msg.countedAs]
        by_cases mine : m.fromAddress = signerAddr
        · simp only [mine, ne_eq, not_true_eq_false, if_false, if_true, true_implies]
          rcases foldlM_adds addCoin_cases m.amount out with counted | ⟨⟨c, member, bad⟩, failed⟩
          · exact .inl counted
          · exact .inr ⟨fun all => bad (all c member), failed⟩
        · simp only [mine, ne_eq, not_false_eq_true, if_true, if_false, false_implies, Int.add_zero]
          exact .inl ⟨trivial, out, rfl, fun _ => rfl⟩
      | _ => exact .inl ⟨trivial, out, rfl, by simp [Msg.countedAs]⟩

/-- What the extraction does with a decoded body: it adds up the sends of the signer, unless one
of them has a coin of a capped denom without an amount. -/
theorem extractBankSends_cases {body : TxBody} (signerAddr : String)
    (decoded : decodeTxBody codec rawTxBytes = .ok body) :
    ((∀ m ∈ decodedMsgs codec body.messages, m.Counted signerAddr) ∧
        ∃ out, extractBankSends codec rawTxBytes signerAddr = .ok out ∧
          ∀ symbol, symbolTotal out symbol =
            sumOver (Msg.countedAs signerAddr symbol) (decodedMsgs codec body.messages)) ∨
      ((∃ m ∈ decodedMsgs codec body.messages, ¬ m.Counted signerAddr) ∧
        extractBankSends codec rawTxBytes signerAddr = .error nilDereference) := by
  have flat : ∀ anys : List ProtoAny,
      ((∀ any ∈ anys, ∀ m ∈ decodedMsgs codec [any], m.Counted signerAddr) ↔
        ∀ m ∈ decodedMsgs codec anys, m.Counted signerAddr) ∧
      ∀ symbol, sumOver (fun any => sumOver (Msg.countedAs signerAddr symbol)
          (decodedMsgs codec [any])) anys =
        sumOver (Msg.countedAs signerAddr symbol) (decodedMsgs codec anys) := by
    intro anys
    induction anys with
    | nil => exact ⟨by simp [decodedMsgs], fun _ => rfl⟩
    | cons any rest ih =>
      rw [decodedMsgs_cons]
      refine ⟨?_, fun symbol => by rw [sumOver, ih.2, sumOver_append]⟩
      rw [List.forall_mem_cons, ih.1, List.forall_mem_append]
  have isFold : extractBankSends codec rawTxBytes signerAddr =
      body.messages.foldlM (addBankSend codec signerAddr) ∅ := by
    rw [extractBankSends, decoded]
    rfl
  rw [isFold]
  rcases foldlM_adds (addBankSend_cases codec signerAddr) body.messages ∅ with
    ⟨counted, out, folded, totals⟩ | ⟨⟨any, member, bad⟩, failed⟩
  · refine .inl ⟨(flat _).1.mp counted, out, folded, ?_⟩
    intro symbol
    rw [totals, (flat _).2, symbolTotal, Table.get_empty, Option.getD_none, Int.zero_add]
  · refine .inr ⟨?_, failed⟩
    by_contra none
    simp only [not_exists, not_and, not_not] at none
    exact bad ((flat _).1.mpr none any member)

/-- A top-level send whose sender is spelled like the signer's address. -/
def Msg.SentAs (signerAddr : String) : Msg → Prop
  | .send m => m.fromAddress = signerAddr
  | _ => False

/-- The base units such a send moves. -/
def Msg.sentAmount (signerAddr denom : String) : Msg → Int
  | .send m => if m.fromAddress = signerAddr then coinsOf denom m.amount else 0
  | _ => 0

/-- The base units of all such sends. -/
def sentAmounts (signerAddr denom : String) : List Msg → Int
  | [] => 0
  | m :: rest => m.sentAmount signerAddr denom + sentAmounts signerAddr denom rest

/-- Under the symbol of a denom, what a message sends is the denom. -/
theorem countedAs_eq_sentAmount {denom symbol : String} (signerAddr : String)
    (capped : symbolForDenom denom = some symbol) (m : Msg) :
    m.countedAs signerAddr symbol = m.sentAmount signerAddr denom := by
  have coins : ∀ coins : List Coin,
      sumOver (Coin.countedAs symbol) coins = coinsOf denom coins := by
    intro coins
    induction coins with
    | nil => rfl
    | cons c rest ih =>
      have here : symbolForDenom c.denom = some symbol ↔ c.denom = denom :=
        ⟨fun found => symbolForDenom_injective found capped, fun same => by rw [same, capped]⟩
      rw [sumOver, coinsOf, ih, Coin.countedAs]
      simp only [here]
  cases m with
  | send m => simp only [Msg.countedAs, Msg.sentAmount, coins]
  | _ => rfl

/-- An executable message is countable. -/
theorem counted_of_executable {m : Msg} (signerAddr : String) (executable : m.Executable) :
    m.Counted signerAddr := by
  cases m with
  | send m =>
    intro _ c member _ absent
    obtain ⟨a, amount, _⟩ := executable c member
    rw [amount] at absent
    cases absent
  | _ => trivial

/-- The extraction succeeds on an executable body and finds exactly the top-level sends whose
sender is spelled like the signer's address. -/
theorem extractBankSends_totals {body : TxBody} (signerAddr : String)
    (decoded : decodeTxBody codec rawTxBytes = .ok body)
    (executable : allExecutable (decodedMsgs codec body.messages)) :
    ∃ out, extractBankSends codec rawTxBytes signerAddr = .ok out ∧
      ∀ denom symbol, symbolForDenom denom = some symbol →
        (out.get symbol).getD 0 =
          sentAmounts signerAddr denom (decodedMsgs codec body.messages) := by
  have each : ∀ msgs : List Msg, allExecutable msgs → ∀ m ∈ msgs, m.Executable := by
    intro msgs all
    induction msgs with
    | nil => simp
    | cons m rest ih => exact List.forall_mem_cons.mpr ⟨all.1, ih all.2⟩
  have sums : ∀ denom symbol, symbolForDenom denom = some symbol → ∀ msgs : List Msg,
      sumOver (Msg.countedAs signerAddr symbol) msgs = sentAmounts signerAddr denom msgs := by
    intro denom symbol capped msgs
    induction msgs with
    | nil => rfl
    | cons m rest ih =>
      rw [sumOver, sentAmounts, ih, countedAs_eq_sentAmount signerAddr capped]
  rcases extractBankSends_cases signerAddr decoded with ⟨_, out, extracted, totals⟩ | ⟨bad, _⟩
  · refine ⟨out, extracted, ?_⟩
    intro denom symbol capped
    rw [← sums denom symbol capped]
    exact totals symbol
  · obtain ⟨m, member, notCounted⟩ := bad
    exact absurd (counted_of_executable signerAddr (each _ executable m member)) notCounted

/-- What the inspection should do with any bytes: return, with the exact sums over the messages
of the transaction. The extraction of withdrawals has no panic to exclude. -/
structure InspectedExactly (codec : TxCodec) (rawTxBytes : Bytes) (signerAddr : String) :
    Prop where
  returns : ∀ reason, extractBankSends codec rawTxBytes signerAddr ≠ .error (.panic reason)
  withdrawn : ∀ q, extractWithdrawQuantums codec rawTxBytes = .ok q →
    q.toNat = usdcWithdrawn (txMsgs codec rawTxBytes)
  sent : ∀ out, extractBankSends codec rawTxBytes signerAddr = .ok out → ∀ symbol,
    (out.get symbol).getD 0 = sumOver (Msg.countedAs signerAddr symbol) (txMsgs codec rawTxBytes)

/-- The inspection returns exact sums for exactly the transactions in which every coin of a
capped denom that the signer sends has an amount. -/
theorem inspectedExactly_iff (codec : TxCodec) (rawTxBytes : Bytes) (signerAddr : String) :
    InspectedExactly codec rawTxBytes signerAddr ↔
      ∀ m ∈ txMsgs codec rawTxBytes, m.Counted signerAddr := by
  have withdrawn : ∀ q, extractWithdrawQuantums codec rawTxBytes = .ok q →
      q.toNat = usdcWithdrawn (txMsgs codec rawTxBytes) :=
    fun q extracted => extractWithdrawQuantums_toNat extracted
  cases decoded : decodeTxBody codec rawTxBytes with
  | error e =>
    have refused : extractBankSends codec rawTxBytes signerAddr = .error (.error e) := by
      rw [extractBankSends, decoded]
      rfl
    have nothing : txMsgs codec rawTxBytes = [] := by rw [txMsgs, decoded]
    refine iff_of_true ⟨?_, withdrawn, ?_⟩ (by simp [nothing])
    · intro reason panicked
      rw [refused] at panicked
      cases panicked
    · intro out extracted
      rw [refused] at extracted
      cases extracted
  | ok body =>
    have msgs : txMsgs codec rawTxBytes = decodedMsgs codec body.messages := by
      rw [txMsgs, decoded]
    rcases extractBankSends_cases signerAddr decoded with
      ⟨counted, out, extracted, totals⟩ | ⟨⟨m, member, notCounted⟩, failed⟩
    · refine iff_of_true ⟨?_, withdrawn, ?_⟩ (msgs ▸ counted)
      · intro reason panicked
        rw [extracted] at panicked
        cases panicked
      · intro found isFound symbol
        rw [extracted] at isFound
        cases isFound
        rw [msgs]
        exact totals symbol
    · refine iff_of_false (fun exactly => exactly.returns _ failed) ?_
      intro counted
      exact notCounted (counted m (msgs ▸ member))

/-- A send of native coins whose amount is missing. -/
def amountlessSend : Msg :=
  .send ⟨"svp1owner", "svp1other", [⟨"asvp", none⟩]⟩

/-- The inspection of a send without an amount panics. -/
theorem amountless_send_panics :
    signerAddressFromTxRaw (fixedCodec "svp1owner" [amountlessSend]) [] = .ok "svp1owner" ∧
      extractWithdrawQuantums (fixedCodec "svp1owner" [amountlessSend]) [] = .ok 0 ∧
      extractBankSends (fixedCodec "svp1owner" [amountlessSend]) [] "svp1owner" =
        .error nilDereference := by
  refine ⟨by decide +kernel, by decide +kernel, rfl⟩

section Misses

variable {decode : String → Except String Bytes} {account : Bytes} {signerAddr : String}

/-- A message debits at least what the extraction counts of it, and no more exactly when it is
counted or spends nothing. -/
theorem Msg.debits_le_sentAmount (isSigner : decode signerAddr = .ok account) (denom : String)
    (m : Msg) (executable : m.Executable) :
    m.sentAmount signerAddr denom ≤ m.debits decode account denom ∧
      (m.debits decode account denom ≤ m.sentAmount signerAddr denom ↔
        (m.Spends decode account denom → m.SentAs signerAddr)) := by
  have spends := m.debits_pos_iff decode account denom executable
  have nonneg := m.debits_nonneg decode account denom executable
  by_cases counted : m.SentAs signerAddr
  · have same : m.debits decode account denom = m.sentAmount signerAddr denom := by
      cases m with
      | send m =>
        have mine : m.fromAddress = signerAddr := counted
        rw [Msg.debits, Msg.sentAmount, mine, if_pos isSigner, if_pos rfl]
      | _ => exact counted.elim
    exact ⟨by omega, fun _ _ => counted, fun _ => by omega⟩
  · have nothing : m.sentAmount signerAddr denom = 0 := by
      cases m with
      | send m => exact if_neg counted
      | _ => rfl
    rw [nothing]
    refine ⟨nonneg, ?_, ?_⟩
    · intro atMost spent
      have positive := spends.mpr spent
      omega
    · intro onlyCounted
      have unspent : ¬ 0 < m.debits decode account denom :=
        fun positive => counted (onlyCounted (spends.mp positive))
      omega

/-- The counted sends cover what the messages debit exactly when every message that spends the
denom is counted. -/
theorem debitsAll_le_sentAmounts (isSigner : decode signerAddr = .ok account) (denom : String)
    (msgs : List Msg) (executable : allExecutable msgs) :
    sentAmounts signerAddr denom msgs ≤ debitsAll decode account denom msgs ∧
      (debitsAll decode account denom msgs ≤ sentAmounts signerAddr denom msgs ↔
        ∀ m ∈ msgs, m.Spends decode account denom → m.SentAs signerAddr) := by
  induction msgs with
  | nil => simp [sentAmounts, debitsAll]
  | cons m rest ih =>
    obtain ⟨headLe, headIff⟩ := m.debits_le_sentAmount isSigner denom executable.1
    obtain ⟨tailLe, tailIff⟩ := ih executable.2
    rw [List.forall_mem_cons, ← headIff, ← tailIff, sentAmounts, debitsAll]
    omega

end Misses

/-- On every executable body the extraction covers, for every capped denom, what the chain
debits from the signer exactly when each message that sends a capped denom out of the
signer's account is a top-level `MsgSend` that spells the sender like the signer. -/
theorem extractBankSends_covers_iff (codec : TxCodec) (rawTxBytes : Bytes) (signerAddr : String)
    (account : Bytes) (body : TxBody) (decoded : decodeTxBody codec rawTxBytes = .ok body)
    (executable : allExecutable (decodedMsgs codec body.messages))
    (isSigner : codec.accAddressFromBech32 signerAddr = .ok account) :
    (∃ out, extractBankSends codec rawTxBytes signerAddr = .ok out ∧
      ∀ denom symbol, symbolForDenom denom = some symbol →
        debitsAll codec.accAddressFromBech32 account denom (decodedMsgs codec body.messages) ≤
          (out.get symbol).getD 0) ↔
      ∀ m ∈ decodedMsgs codec body.messages, ∀ denom symbol, symbolForDenom denom = some symbol →
        m.Spends codec.accAddressFromBech32 account denom → m.SentAs signerAddr := by
  obtain ⟨out, extracted, totals⟩ := extractBankSends_totals signerAddr decoded executable
  have covers := fun denom => (debitsAll_le_sentAmounts isSigner denom _ executable).2
  constructor
  · rintro ⟨found, sameExtracted, atLeast⟩ m member denom symbol capped
    rw [extracted] at sameExtracted
    cases sameExtracted
    have covered := atLeast denom symbol capped
    rw [totals denom symbol capped] at covered
    exact (covers denom).mp covered m member
  · intro counted
    refine ⟨out, extracted, ?_⟩
    intro denom symbol capped
    rw [totals denom symbol capped]
    exact (covers denom).mpr fun m member => counted m member denom symbol capped

/-- A codec in which either case of an address decodes to the same account. -/
def spellingCodec (msgs : List Msg) : TxCodec where
  __ := fixedCodec "svp1owner" msgs
  accAddressFromBech32 address :=
    .ok (address.toList.map fun c => UInt8.ofNat c.toLower.toNat)

/-- A send of 5 base units whose sender is the signer's address in upper case. -/
def upperCaseSend : Msg :=
  .send ⟨"SVP1OWNER", "svp1other", [⟨"asvp", some 5⟩]⟩

/-- The account of the signer. -/
def spelledAccount : Bytes :=
  "svp1owner".toList.map fun c => UInt8.ofNat c.toNat

/-- The message can be executed. -/
theorem upperCaseSend_executable : allExecutable [upperCaseSend] := by
  refine ⟨?_, trivial⟩
  intro c member
  rw [List.mem_singleton.mp member]
  exact ⟨5, rfl, by decide⟩

/-- The chain debits the send from the signer and the extraction finds nothing. -/
theorem upper_case_send_not_counted :
    signerAddressFromTxRaw (spellingCodec [upperCaseSend]) [] = .ok "svp1owner" ∧
      (spellingCodec [upperCaseSend]).accAddressFromBech32 "svp1owner" = .ok spelledAccount ∧
      allExecutable [upperCaseSend] ∧
      debitsAll (spellingCodec [upperCaseSend]).accAddressFromBech32 spelledAccount "asvp"
        [upperCaseSend] = 5 ∧
      symbolForDenom "asvp" = some "svp" ∧
      ∃ out, extractBankSends (spellingCodec [upperCaseSend]) [] "svp1owner" = .ok out ∧
        out.get "svp" = none := by
  refine ⟨by decide +kernel, by decide +kernel, upperCaseSend_executable, by decide +kernel,
    by decide, ?_⟩
  exact ⟨∅, rfl, rfl⟩

/-- The equivalence at the send in upper case. -/
theorem extractBankSends_covers_iff_upper_case :
    (∃ out, extractBankSends (spellingCodec [upperCaseSend]) [] "svp1owner" = .ok out ∧
      ∀ denom symbol, symbolForDenom denom = some symbol →
        debitsAll (spellingCodec [upperCaseSend]).accAddressFromBech32 spelledAccount denom
            (decodedMsgs (spellingCodec [upperCaseSend]) [⟨"/msg", [0]⟩]) ≤
          (out.get symbol).getD 0) ↔
      ∀ m ∈ decodedMsgs (spellingCodec [upperCaseSend]) [⟨"/msg", [0]⟩],
        ∀ denom symbol, symbolForDenom denom = some symbol →
          m.Spends (spellingCodec [upperCaseSend]).accAddressFromBech32 spelledAccount denom →
            m.SentAs "svp1owner" :=
  extractBankSends_covers_iff (spellingCodec [upperCaseSend]) [] "svp1owner" spelledAccount
    ⟨[⟨"/msg", [0]⟩]⟩ rfl upperCaseSend_executable (by decide +kernel)

end SvpMcp
