import SvpMcp.Lib.CallReading
import SvpMcp.Model.Bridge
import SvpMcp.Verif.EvmPayloads

/-!
# The meter reads what the EVM builders write

`BuiltCall` lists the calls the EVM tools build and what each takes out of the owner's wallet; the
decoder of the broadcast path finds exactly that.
-/

namespace SvpMcp

open Calendar Handler Program

variable {α : Type} {amountHuman clientID toolName signature : String}
  {input : BuildBridgeDepositInput} {args : List Abi.Arg} {token : Address} {sel : Bytes} {i : Nat}
  {amount : Int} {output : BridgeDepositOutput} {leg : BridgeLeg} {deps : Deps} {w w' : World}
  {events : Events} {holds : Event World Env ServerOp Reply → Prop}

/-- The calls the EVM tools build. -/
inductive BuiltCall where
  | erc20Transfer (token recipient : Address) (amount : Int)
  | erc20TransferFrom (token sender recipient : Address) (amount : Int)
  | erc20Approve (token spender : Address) (amount : Int)
  | swap (plan : SwapPlan) (amountIn minOut : Int) (sender : Address) (deadline : Int)
  | nativeDeposit (bridge : Address) (destChainID : UInt64) (targetToken recipient : Address)
      (amount : Int)
  | tokenDeposit (bridge token : Address) (destChainID : UInt64) (targetToken recipient : Address)
      (amount : Int)

namespace BuiltCall

/-- The contract called. -/
def recipient (router : Address) : BuiltCall → Address
  | erc20Transfer token _ _ => token
  | erc20TransferFrom token _ _ _ => token
  | erc20Approve token _ _ => token
  | swap _ _ _ _ _ => router
  | nativeDeposit bridge _ _ _ _ => bridge
  | tokenDeposit bridge _ _ _ _ _ => bridge

/-- The native value of a call. -/
def value : BuiltCall → Int
  | swap plan amountIn _ _ _ => plan.value amountIn
  | nativeDeposit _ _ _ _ amount => amount
  | _ => 0

/-- The data of a call. -/
def data : BuiltCall → Bytes
  | erc20Transfer _ recipient amount => packERC20Transfer recipient amount
  | erc20TransferFrom _ sender recipient amount => packERC20TransferFrom sender recipient amount
  | erc20Approve _ spender amount => packERC20Approve spender amount
  | swap plan amountIn minOut sender deadline => plan.routerData amountIn minOut sender deadline
  | nativeDeposit _ destChainID targetToken recipient _ =>
    packDepositNative destChainID targetToken recipient
  | tokenDeposit _ token destChainID targetToken recipient amount =>
    packDeposit token amount destChainID targetToken recipient

/-- The outflow of an amount of a token: nothing if the token is not capped. -/
def tokenOut (token : Address) (amount : Int) : Table String Int :=
  match symbolForToken token with
  | some sym => Table.set ∅ sym amount
  | none => ∅

/-- What a call takes out of the owner's wallet, by cap symbol. -/
def outflow (owner : Address) : BuiltCall → Table String Int
  | erc20Transfer token _ amount => tokenOut token amount
  | erc20TransferFrom token sender _ amount => if sender = owner then tokenOut token amount else ∅
  | nativeDeposit _ _ _ _ amount => Table.set ∅ "svp" amount
  | erc20Approve _ _ _ => ∅
  | swap _ _ _ _ _ => ∅
  | tokenDeposit _ _ _ _ _ _ => ∅

/-- A contract that is neither the router, nor WSVP, nor a capped token. -/
def Unrelated (router wsvp bridge : Address) : Prop :=
  bridge ≠ router ∧ bridge ≠ wsvp ∧ symbolForToken bridge = none

/-- The amounts that move are positive words and the bridge is a contract of its own. -/
def Valid (router wsvp : Address) : BuiltCall → Prop
  | erc20Transfer _ _ amount => 1 ≤ amount ∧ amount < 2 ^ 256
  | erc20TransferFrom _ _ _ amount => 1 ≤ amount ∧ amount < 2 ^ 256
  | nativeDeposit bridge _ _ _ amount =>
    (1 ≤ amount ∧ amount < 2 ^ 256) ∧ Unrelated router wsvp bridge
  | tokenDeposit bridge _ _ _ _ _ => Unrelated router wsvp bridge
  | erc20Approve _ _ _ => True
  | swap _ _ _ _ _ => True

end BuiltCall

/-- The selector of `transfer`. -/
theorem selector_transfer : Abi.selector "transfer(address,uint256)" = selERC20Transfer := by
  decide +kernel

/-- The selector of `transferFrom`. -/
theorem selector_transferFrom :
    Abi.selector "transferFrom(address,address,uint256)" = selERC20TransferFrom := by
  decide +kernel

/-- The selector of `approve`. -/
theorem selector_approve : Abi.selector "approve(address,uint256)" = [0x09, 0x5e, 0xa7, 0xb3] := by
  decide +kernel

section Decode

variable {recipient owner router wsvp : Address} {value : Option Int} {data : Bytes} {sym : String}

/-- The first amount. -/
theorem addOut_empty (positive : 1 ≤ amount) :
    addOut ∅ sym amount = Table.set ∅ sym amount := by
  rw [addOut, if_neg (by omega), Table.get_empty, Option.getD_none, Int.zero_add]

/-- No value, no outflow. -/
theorem nativeOut_zero : nativeOut recipient (some 0) router wsvp = ∅ := by
  simp [nativeOut]

/-- A value for the router does not count. -/
theorem nativeOut_router : nativeOut router value router wsvp = ∅ := by
  cases value with
  | none => rfl
  | some value => simp [nativeOut]

/-- A call to a contract that is not capped counts by its value alone. -/
theorem decode_uncapped (uncapped : symbolForToken recipient = none) :
    decodeTransferOut (some recipient) value data owner router wsvp =
      nativeOut recipient value router wsvp := by
  simp only [decodeTransferOut, uncapped, ite_self]

/-- The amount word of a packed call. -/
theorem read_uint (isSelector : Abi.selector signature = sel) (short : sel.length = 4)
    (place : args[i]? = some (.uint amount)) (nonneg : 0 ≤ amount) (fits : amount < 2 ^ 256) :
    (BigEndian.read (slice (Abi.pack signature args) (4 + 32 * i) (4 + 32 * i + 32)) : Int) =
      amount := by
  have isAmount := Abi.uintAt_pack isSelector short place
  have width : 4 + 32 * i + 32 - (4 + 32 * i) = 32 := by omega
  rw [slice, width]
  change (Abi.uintAt (Abi.pack signature args) i : Int) = amount
  omega

/-- The address word of a packed call. -/
theorem read_address {a : Address} (isSelector : Abi.selector signature = sel)
    (short : sel.length = 4) (place : args[i]? = some (.address a)) :
    Address.ofBytes (slice (Abi.pack signature args) (4 + 32 * i + 12) (4 + 32 * i + 32)) = a := by
  have isWord := Abi.wordAt_pack isSelector short place
  rw [Abi.wordAt] at isWord
  have width : 4 + 32 * i + 32 - (4 + 32 * i + 12) = 32 - 12 := by omega
  have bytes : slice (Abi.pack signature args) (4 + 32 * i + 12) (4 + 32 * i + 32) = a.bytes := by
    rw [slice, width, ← List.drop_drop, ← List.drop_take, isWord, Abi.Arg.head,
      Abi.drop_addressWord]
  rw [bytes, Address.ofBytes_bytes]

/-- A transfer is metered. -/
theorem decode_transfer (positive : 1 ≤ amount) (fits : amount < 2 ^ 256) :
    decodeTransferOut (some token) (some 0) (packERC20Transfer recipient amount) owner router wsvp =
      BuiltCall.tokenOut token amount := by
  have start : (packERC20Transfer recipient amount).take 4 = selERC20Transfer :=
    Abi.take_pack selector_transfer rfl
  have size : 4 + 64 ≤ (packERC20Transfer recipient amount).length :=
    Abi.length_pack_ge [.address recipient, .uint amount] selector_transfer rfl
  have found : (BigEndian.read (slice (packERC20Transfer recipient amount) (4 + 32)
      (4 + 64)) : Int) = amount :=
    read_uint (i := 1) selector_transfer rfl rfl (by omega) fits
  rw [decodeTransferOut, nativeOut_zero, if_neg (by omega), BuiltCall.tokenOut]
  cases symbolForToken token with
  | none => rfl
  | some sym =>
    simp only
    rw [if_pos ⟨start, size⟩, found, addOut_empty positive]

/-- So is one from the owner. -/
theorem decode_transferFrom {token sender : Address} (positive : 1 ≤ amount)
    (fits : amount < 2 ^ 256) :
    decodeTransferOut (some token) (some 0) (packERC20TransferFrom sender recipient amount) owner
        router wsvp =
      if sender = owner then BuiltCall.tokenOut token amount else ∅ := by
  have start : (packERC20TransferFrom sender recipient amount).take 4 = selERC20TransferFrom :=
    Abi.take_pack selector_transferFrom rfl
  have other : ¬ (selERC20TransferFrom = selERC20Transfer ∧
      4 + 64 ≤ (packERC20TransferFrom sender recipient amount).length) := fun both =>
    absurd both.1 (by decide)
  have size : 4 + 96 ≤ (packERC20TransferFrom sender recipient amount).length :=
    Abi.length_pack_ge [.address sender, .address recipient, .uint amount] selector_transferFrom rfl
  have pulled : Address.ofBytes (slice (packERC20TransferFrom sender recipient amount)
      (4 + 12) (4 + 32)) = sender := read_address (i := 0) selector_transferFrom rfl rfl
  have found : (BigEndian.read (slice (packERC20TransferFrom sender recipient amount)
      (4 + 64) (4 + 96)) : Int) = amount :=
    read_uint (i := 2) selector_transferFrom rfl rfl (by omega) fits
  rw [decodeTransferOut, nativeOut_zero, if_neg (by omega), BuiltCall.tokenOut]
  cases symbolForToken token with
  | none => exact (ite_self _).symm
  | some sym =>
    simp only
    rw [start, if_neg other, if_pos ⟨rfl, size⟩, pulled, found, addOut_empty positive]

/-- An approval is not. -/
theorem decode_approve {token spender : Address} :
    decodeTransferOut (some token) (some 0) (packERC20Approve spender amount) owner router wsvp =
      ∅ := by
  have start : (packERC20Approve spender amount).take 4 = [0x09, 0x5e, 0xa7, 0xb3] :=
    Abi.take_pack selector_approve rfl
  rw [decodeTransferOut, nativeOut_zero, start]
  cases symbolForToken token with
  | none => exact ite_self _
  | some sym =>
    have notTransfer : ¬ ([0x09, 0x5e, 0xa7, 0xb3] = selERC20Transfer ∧
        4 + 64 ≤ (packERC20Approve spender amount).length) := fun both => absurd both.1 (by decide)
    have notTransferFrom : ¬ ([0x09, 0x5e, 0xa7, 0xb3] = selERC20TransferFrom ∧
        4 + 96 ≤ (packERC20Approve spender amount).length) := fun both => absurd both.1 (by decide)
    simp only
    rw [if_neg notTransfer, if_neg notTransferFrom, ite_self]

/-- The decoder finds what a built call takes out of the wallet. -/
theorem decode_built (routerUncapped : symbolForToken router = none) {built : BuiltCall}
    (valid : built.Valid router wsvp) :
    decodeTransferOut (some (built.recipient router)) (some built.value) built.data owner router
      wsvp = built.outflow owner := by
  cases built with
  | erc20Transfer token recipient amount => exact decode_transfer valid.1 valid.2
  | erc20TransferFrom token sender recipient amount => exact decode_transferFrom valid.1 valid.2
  | erc20Approve token spender amount => exact decode_approve
  | swap plan amountIn minOut sender deadline =>
    exact (decode_uncapped routerUncapped).trans nativeOut_router
  | nativeDeposit bridge destChainID targetToken recipient amount =>
    obtain ⟨⟨positive, _⟩, notRouter, notWsvp, uncapped⟩ := valid
    refine (decode_uncapped uncapped).trans ?_
    change nativeOut bridge (some amount) router wsvp = Table.set ∅ "svp" amount
    simp only [nativeOut, symbolForNative_eq]
    rw [if_pos ⟨by omega, notRouter, notWsvp⟩, addOut_empty positive]
  | tokenDeposit bridge token destChainID targetToken recipient amount =>
    exact (decode_uncapped valid.2.2).trans nativeOut_zero

end Decode

/-- What the meter finds in a payload. -/
def EVMTxPayload.Meters (p : EVMTxPayload) (owner router wsvp : Address)
    (out : Table String Int) : Prop :=
  ∃ tx, p.unsignedTx = .ok tx ∧
    decodeTransferOut (some tx.recipient) (some tx.value) tx.data owner router wsvp = out

/-- A payload that makes a built call is metered at the call's outflow. -/
theorem meters_of_calls {p : EVMTxPayload} {owner router wsvp : Address} {built : BuiltCall}
    (routerUncapped : symbolForToken router = none) (valid : built.Valid router wsvp)
    (calls : p.Calls (built.recipient router) built.value built.data) :
    p.Meters owner router wsvp (built.outflow owner) := by
  obtain ⟨tx, read, isRecipient, isValue, isData⟩ := calls
  refine ⟨tx, read, ?_⟩
  rw [isRecipient, isValue, isData, decode_built routerUncapped valid]

/-- The requests whose payloads are metered. -/
inductive EvmRequest where
  | erc20Transfer (input : BuildERC20TransferInput)
  | erc20TransferFrom (input : BuildERC20TransferFromInput)
  | erc20Approve (input : BuildERC20ApproveInput)
  | tokenApproval (input : BuildTokenApprovalInput)
  | swap (input : BuildSwapInput)
  | bridgeDeposit (input : BuildBridgeDepositInput)

namespace EvmRequest

/-- The payload a request returns; a deposit that needs an approval has none. -/
def build (deps : Deps) (evm : EvmDeps) (ctx : Context) :
    EvmRequest → Handler (Option EVMTxPayload)
  | erc20Transfer input => return some (← buildERC20Transfer deps ctx input)
  | erc20TransferFrom input => return some (← buildERC20TransferFrom deps ctx input)
  | erc20Approve input => return some (← buildERC20Approve deps evm ctx input)
  | tokenApproval input => return some (← buildTokenApproval deps ctx input)
  | swap input => return some (← buildSwap deps ctx input).payload
  | bridgeDeposit input => return (← buildBridgeDeposit deps evm ctx input).payload

/-- The call a request asks for: the contracts it names and the base units of its amount. -/
def Asks (deps : Deps) (evm : EvmDeps) (router : Address) : EvmRequest → BuiltCall → Prop
  | erc20Transfer input, .erc20Transfer token recipient amount =>
    parseEVMAddress input.token "token" = .ok token ∧
      parseEVMAddress input.recipient "to" = .ok recipient ∧
      ∃ dec, humanToBaseUnits input.amount dec = .ok amount
  | erc20TransferFrom input, .erc20TransferFrom token sender recipient amount =>
    parseEVMAddress input.token "token" = .ok token ∧
      parseEVMAddress input.sender "from" = .ok sender ∧
      parseEVMAddress input.recipient "to" = .ok recipient ∧
      ∃ dec, humanToBaseUnits input.amount dec = .ok amount
  | erc20Approve input, .erc20Approve token spender _ =>
    parseEVMAddress input.token "token" = .ok token ∧
      parseEVMAddress input.spender "spender" = .ok spender
  | tokenApproval input, .erc20Approve token spender _ =>
    parseSwapToken input.token = .ok (.erc20 token) ∧ spender = router
  | swap input, .swap _ amountIn _ _ _ => ∃ dec, humanToBaseUnits input.amountIn dec = .ok amountIn
  | bridgeDeposit input, .nativeDeposit bridge _ _ _ amount =>
    ∃ leg, outboundLeg deps evm input = .ok leg ∧ leg.bridge = bridge ∧
      leg.route.nativeSource = true ∧ humanToBaseUnits input.amount leg.route.decimals = .ok amount
  | bridgeDeposit input, .tokenDeposit bridge _ _ _ _ amount =>
    ∃ leg, outboundLeg deps evm input = .ok leg ∧ leg.bridge = bridge ∧
      leg.route.nativeSource = false ∧ humanToBaseUnits input.amount leg.route.decimals = .ok amount
  | _, _ => False

/-- For a deposit, the bridge is neither the router, nor WSVP, nor a capped token. -/
def Clear (evm : EvmDeps) (router wsvp : Address) : EvmRequest → Prop
  | bridgeDeposit _ => ∀ bridge, evm.bridge = some bridge → BuiltCall.Unrelated router wsvp bridge
  | _ => True

end EvmRequest

section Tools

variable {evm : EvmDeps} {ctx : Context} {p : EVMTxPayload} {router wsvp : Address}

/-- A transfer that is built calls the token, for an amount at the decimals it reported. -/
theorem buildERC20Transfer_calls {input : BuildERC20TransferInput}
    (run : Gives deps (· ∈ events) w (buildERC20Transfer deps ctx input) w' p) :
    ∃ (token recipient : Address) (amount : Int) (dec : Nat),
      parseEVMAddress input.token "token" = .ok token ∧
      parseEVMAddress input.recipient "to" = .ok recipient ∧
      ReportedDecimals events homeClient token dec ∧
      humanToBaseUnits input.amount dec = .ok amount ∧
      p.Calls token 0 (packERC20Transfer recipient amount) := by
  simp [buildERC20Transfer, requireEVM] at run
  obtain ⟨_, tp, _, _, token, isToken, recipient, isRecipient, _, dec, isDec, amount, isAmount,
    assembled⟩ := run
  obtain ⟨places, reported, rfl⟩ := erc20DecimalsOn_ok isDec
  exact ⟨token, recipient, amount, places, isToken, isRecipient, reported, isAmount,
    assembleERC_calls assembled⟩

/-- The same of a transfer from another account. -/
theorem buildERC20TransferFrom_calls {input : BuildERC20TransferFromInput}
    (run : Gives deps (· ∈ events) w (buildERC20TransferFrom deps ctx input) w' p) :
    ∃ (token sender recipient : Address) (amount : Int) (dec : Nat),
      parseEVMAddress input.token "token" = .ok token ∧
      parseEVMAddress input.sender "from" = .ok sender ∧
      parseEVMAddress input.recipient "to" = .ok recipient ∧
      ReportedDecimals events homeClient token dec ∧
      humanToBaseUnits input.amount dec = .ok amount ∧
      p.Calls token 0 (packERC20TransferFrom sender recipient amount) := by
  simp [buildERC20TransferFrom, requireEVM] at run
  obtain ⟨_, tp, _, _, token, isToken, sender, isSender, recipient, isRecipient, _, dec, isDec,
    amount, isAmount, assembled⟩ := run
  obtain ⟨places, reported, rfl⟩ := erc20DecimalsOn_ok isDec
  exact ⟨token, sender, recipient, amount, places, isToken, isSender, isRecipient, reported,
    isAmount, assembleERC_calls assembled⟩

/-- The amount an approval asks for: everything, or a human amount at the reported decimals. -/
def AsksAllowance (events : Events) (client : EvmClient)
    (token : Address) (input : BuildERC20ApproveInput) (amount : Int) : Prop :=
  if input.unlimited then amount = maxUint256
  else ∃ dec : Nat, ReportedDecimals events client token dec ∧
    humanToBaseUnits input.amount dec = .ok amount

/-- The amount of an approval is the one that is asked for. -/
theorem approvalAmount_ok {client : EvmClient} {input : BuildERC20ApproveInput} {label : String}
    (run : Gives deps (· ∈ events) w (approvalAmount client token input.amount input.unlimited) w'
      (amount, label)) :
    AsksAllowance events client token input amount := by
  unfold approvalAmount at run
  unfold AsksAllowance
  cases unlimited : input.unlimited with
  | true =>
    simp [unlimited] at run
    exact run.2.1.symm
  | false =>
    simp [unlimited] at run
    obtain ⟨dec, isDec, isAmount, _⟩ := run
    obtain ⟨places, reported, rfl⟩ := erc20DecimalsOn_ok isDec
    exact ⟨places, reported, isAmount⟩

/-- An approval that is built calls the token. -/
theorem buildERC20Approve_calls {input : BuildERC20ApproveInput}
    (run : Gives deps (· ∈ events) w (buildERC20Approve deps evm ctx input) w' p) :
    ∃ client token spender amount, evmAssemblerFor deps evm input.chainID = .ok client ∧
      parseEVMAddress input.token "token" = .ok token ∧
      parseEVMAddress input.spender "spender" = .ok spender ∧
      AsksAllowance events client token input amount ∧
      p.Calls token 0 (packERC20Approve spender amount) := by
  simp [buildERC20Approve, requireEVM] at run
  obtain ⟨_, tp, _, _, client, isClient, token, isToken, spender, isSpender, _, amount, label,
    isAmount, assembled⟩ := run
  exact ⟨client, token, spender, amount, isClient, isToken, isSpender, approvalAmount_ok isAmount,
    assembleERC_calls assembled⟩

/-- Only a token contract can be approved. -/
theorem approvedToken_ok {token : String} {contract : Address}
    (approved : approvedToken token = .ok contract) :
    parseSwapToken token = .ok (.erc20 contract) := by
  simp [approvedToken] at approved
  obtain ⟨parsed, isParsed, rest⟩ := approved
  cases parsed with
  | native => cases rest
  | erc20 found =>
    cases rest
    exact isParsed

/-- An approval for the router that is built calls the token. -/
theorem buildTokenApproval_calls {input : BuildTokenApprovalInput}
    (configured : deps.uniswap = some (router, wsvp))
    (run : Gives deps (· ∈ events) w (buildTokenApproval deps ctx input) w' p) :
    ∃ token amount, parseSwapToken input.token = .ok (.erc20 token) ∧
      p.Calls token 0 (packERC20Approve router amount) := by
  simp [buildTokenApproval, configured] at run
  obtain ⟨_, tp, _, _, token, isToken, _, amount, label, _, sender, _, assembled⟩ := run
  exact ⟨token, amount, approvedToken_ok isToken, assembleEVM_calls assembled⟩

/-- A swap that is built calls the router, for an amount of the request. -/
theorem buildSwap_calls {input : BuildSwapInput} {output : BuildSwapOutput}
    (configured : deps.uniswap = some (router, wsvp))
    (run : Gives deps (· ∈ events) w (buildSwap deps ctx input) w' output) :
    ∃ (plan : SwapPlan) (amountIn minOut : Int) (sender : Address) (deadline dec : Int),
      humanToBaseUnits input.amountIn dec = .ok amountIn ∧
      output.payload.Calls router (plan.value amountIn)
        (plan.routerData amountIn minOut sender deadline) := by
  obtain ⟨terms, agreed, now, _, calls, _⟩ := buildSwap_ok run
  have same : (terms.router, terms.wsvp) = (router, wsvp) :=
    Option.some.inj (agreed.configured.symm.trans configured)
  obtain ⟨dec, _, isAmount⟩ := agreed.isAmount
  refine ⟨terms.plan, terms.amountIn, terms.minOut, terms.owner,
    swapDeadline now input.deadlineSec, dec, isAmount, ?_⟩
  rw [← (Prod.mk.inj same).1]
  exact calls

/-- The bridge of an outbound leg is the configured one. -/
theorem outboundLeg_bridge (resolved : outboundLeg deps evm input = .ok leg) :
    evm.bridge = some leg.bridge := by
  simp [outboundLeg] at resolved
  obtain ⟨contract, routes, srcChainID, required, _, _, _, _, rfl⟩ := resolved
  unfold requireBridge at required
  split at required
  · cases required
  · split at required
    · rename_i found _ isBridge _
      cases required
      exact isBridge
    · cases required

/-- The payload of a deposit calls the bridge. -/
theorem assembleDeposit_calls {sender recipient : Address} {data : Bytes} {value : Option Int}
    (run : Gives deps holds w (assembleDeposit leg sender recipient amount data value amountHuman
      clientID toolName) w' output) :
    ∃ payload, output.payload = some payload ∧ payload.Calls leg.bridge (value.getD 0) data := by
  simp [assembleDeposit] at run
  obtain ⟨payload, assembled, rfl⟩ := run
  exact ⟨payload, rfl, assembleEVM_calls assembled⟩

/-- The payload of a token deposit calls the bridge, without value. -/
theorem assembleTokenDeposit_calls {sender recipient : Address}
    (run : Gives deps holds w (assembleTokenDeposit leg sender recipient amount amountHuman clientID
      toolName) w' output)
    (isBuilt : output.payload = some p) :
    p.Calls leg.bridge 0
      (packDeposit leg.route.srcToken amount leg.destChainID leg.route.targetToken recipient) := by
  simp [assembleTokenDeposit] at run
  obtain ⟨_, missing, _, run⟩ := run
  cases missing with
  | some approval =>
    simp at run
    rw [← run.2] at isBuilt
    cases isBuilt
  | none =>
    obtain ⟨payload, isPayload, calls⟩ := assembleDeposit_calls run
    cases isPayload.symm.trans isBuilt
    exact calls

/-- An outbound deposit calls the bridge, with the amount as the value exactly when the route
starts at the native coin. -/
theorem buildBridgeDeposit_calls
    (run : Gives deps (· ∈ events) w (buildBridgeDeposit deps evm ctx input) w' output)
    (isBuilt : output.payload = some p) :
    ∃ built, (EvmRequest.bridgeDeposit input).Asks deps evm router built ∧
      p.Calls (built.recipient router) built.value built.data := by
  simp [buildBridgeDeposit, buildBridge, assembleBridgeDeposit] at run
  obtain ⟨_, tp, _, sender, recipient, _, leg, resolved, amount, accepted, run⟩ := run
  cases native : leg.route.nativeSource with
  | true =>
    simp only [native, if_true] at run
    obtain ⟨payload, isPayload, calls⟩ := assembleDeposit_calls run
    cases isPayload.symm.trans isBuilt
    exact ⟨.nativeDeposit leg.bridge leg.destChainID leg.route.targetToken recipient amount,
      ⟨leg, resolved, rfl, native, accepted⟩, calls⟩
  | false =>
    simp only [native, Bool.false_eq_true, if_false] at run
    exact ⟨.tokenDeposit leg.bridge leg.route.srcToken leg.destChainID leg.route.targetToken
      recipient amount, ⟨leg, resolved, rfl, native, accepted⟩,
      assembleTokenDeposit_calls run isBuilt⟩

/-- A payload makes the call its request asks for. -/
theorem build_asks {request : EvmRequest} (configured : deps.uniswap = some (router, wsvp))
    (run : Gives deps (· ∈ events) w (request.build deps evm ctx) w' (some p)) :
    ∃ built, request.Asks deps evm router built ∧
      p.Calls (built.recipient router) built.value built.data := by
  cases request with
  | erc20Transfer input =>
    simp [EvmRequest.build] at run
    obtain ⟨token, recipient, amount, dec, isToken, isRecipient, _, isAmount, calls⟩ :=
      buildERC20Transfer_calls run
    exact ⟨.erc20Transfer token recipient amount, ⟨isToken, isRecipient, dec, isAmount⟩, calls⟩
  | erc20TransferFrom input =>
    simp [EvmRequest.build] at run
    obtain ⟨token, sender, recipient, amount, dec, isToken, isSender, isRecipient, _,
      isAmount, calls⟩ := buildERC20TransferFrom_calls run
    exact ⟨.erc20TransferFrom token sender recipient amount,
      ⟨isToken, isSender, isRecipient, dec, isAmount⟩, calls⟩
  | erc20Approve input =>
    simp [EvmRequest.build] at run
    obtain ⟨_, token, spender, amount, _, isToken, isSpender, _, calls⟩ :=
      buildERC20Approve_calls run
    exact ⟨.erc20Approve token spender amount, ⟨isToken, isSpender⟩, calls⟩
  | tokenApproval input =>
    simp [EvmRequest.build] at run
    obtain ⟨token, amount, isToken, calls⟩ := buildTokenApproval_calls configured run
    exact ⟨.erc20Approve token router amount, ⟨isToken, rfl⟩, calls⟩
  | swap input =>
    simp [EvmRequest.build] at run
    obtain ⟨output, run, rfl⟩ := run
    obtain ⟨plan, amountIn, minOut, sender, deadline, dec, isAmount, calls⟩ :=
      buildSwap_calls configured run
    exact ⟨.swap plan amountIn minOut sender deadline, ⟨dec, isAmount⟩, calls⟩
  | bridgeDeposit input =>
    simp [EvmRequest.build] at run
    obtain ⟨output, run, isPayload⟩ := run
    exact buildBridgeDeposit_calls run isPayload

/-- What is asked for is valid when the bridge is a contract of its own. -/
theorem asks_valid {request : EvmRequest} {built : BuiltCall}
    (asks : request.Asks deps evm router built) (clear : request.Clear evm router wsvp) :
    built.Valid router wsvp := by
  cases request with
  | erc20Transfer input =>
    cases built with
    | erc20Transfer token recipient amount =>
      obtain ⟨_, _, dec, isAmount⟩ := asks
      exact humanToBaseUnits_bounds isAmount
    | _ => exact asks.elim
  | erc20TransferFrom input =>
    cases built with
    | erc20TransferFrom token sender recipient amount =>
      obtain ⟨_, _, _, dec, isAmount⟩ := asks
      exact humanToBaseUnits_bounds isAmount
    | _ => exact asks.elim
  | erc20Approve input =>
    cases built with
    | erc20Approve token spender amount => trivial
    | _ => exact asks.elim
  | tokenApproval input =>
    cases built with
    | erc20Approve token spender amount => trivial
    | _ => exact asks.elim
  | swap input =>
    cases built with
    | swap plan amountIn minOut sender deadline => trivial
    | _ => exact asks.elim
  | bridgeDeposit input =>
    cases built with
    | nativeDeposit bridge destChainID targetToken recipient amount =>
      obtain ⟨leg, resolved, isBridge, _, isAmount⟩ := asks
      rw [← isBridge]
      exact ⟨humanToBaseUnits_bounds isAmount, clear _ (outboundLeg_bridge resolved)⟩
    | tokenDeposit bridge token destChainID targetToken recipient amount =>
      obtain ⟨leg, resolved, isBridge, _⟩ := asks
      rw [← isBridge]
      exact clear _ (outboundLeg_bridge resolved)
    | _ => exact asks.elim

end Tools

/-- The meter agrees with the builders: the decoder finds in every payload assembled for a built
call exactly what the call takes out of the owner's wallet, for every owner and every amount that
is a positive word; and every payload a tool returns was assembled for the call its request asks
for. -/
theorem evm_metering_agrees_with_builders {deps : Deps} {evm : EvmDeps} {router wsvp : Address}
    (configured : deps.uniswap = some (router, wsvp))
    (routerUncapped : symbolForToken router = none) (owner : Address) :
    (∀ (built : BuiltCall) (client : EvmClient) (args : EVMArgs) (w w' : World)
        (events : Events) (p : EVMTxPayload),
        built.Valid router wsvp → args.recipient = built.recipient router →
        args.value.getD 0 = built.value → args.data = built.data →
        Alone deps w (assembleEVM client args) events w' (.ok p) →
        p.Meters owner router wsvp (built.outflow owner)) ∧
    ∀ (request : EvmRequest) (ctx : Context) (w w' : World)
      (events : Events) (p : EVMTxPayload),
      request.Clear evm router wsvp →
      Alone deps w (request.build deps evm ctx) events w' (.ok (some p)) →
      ∃ built, request.Asks deps evm router built ∧ built.Valid router wsvp ∧
        p.Calls (built.recipient router) built.value built.data ∧
        p.Meters owner router wsvp (built.outflow owner) := by
  constructor
  · intro built client args w w' events p valid isRecipient isValue isData run
    have calls := assembleEVM_calls (alone_gives run)
    rw [isRecipient, isValue, isData] at calls
    exact meters_of_calls routerUncapped valid calls
  · intro request ctx w w' events p clear run
    obtain ⟨built, asks, calls⟩ := build_asks configured (alone_gives run)
    have valid := asks_valid asks clear
    exact ⟨built, asks, valid, calls, meters_of_calls routerUncapped valid calls⟩

/-- A server with a router and WSVP. -/
def meterDeps : Deps where
  __ := fixedDeps ⟨0, 0, 0, 0⟩ ⟨"tenant", "svp1owner", [0], false⟩ []
  evmEnabled := true
  uniswap := some (.ofBytes [1], .ofBytes [2])

/-- A configuration without a bridge and without Lendora. -/
def meterEvm : EvmDeps := ⟨1, none, none, 1, fun _ => .zero, none⟩

/-- An EVM node at which every contract answers with six. -/
def meterEnv : Env where
  __ := acceptingEnv 0
  evm _
    | .chainID => .ok (1 : Int)
    | .pendingNonceAt _ => .ok (0 : UInt64)
    | .suggestGasTipCap => .ok (1 : Int)
    | .baseFee => .ok (1 : Int)
    | .estimateGas _ => .ok (21000 : UInt64)
    | .callContract _ _ => .ok (Abi.word 6)
    | .blockNumber => .ok (0 : UInt64)

/-- A server that has just started. -/
def meterWorld : World := startWorld ⟨"", "", ∅, ∅⟩ (.new 0)

/-- A transfer of 1.5 USDC. -/
def meterRequest : EvmRequest :=
  .erc20Transfer ⟨"0x732F6Ea7AfD5EdC02e7ba052075dd0780e285489",
    "0x0000000000000000000000000000000000000003", "1.5", "first"⟩

/-- The handler of the transfer. -/
def meterBuild : Handler (Option EVMTxPayload) :=
  meterRequest.build meterDeps meterEvm ownerContext

/-- The run of the build. -/
def meterRun : Events × World × Except Fault (Option EVMTxPayload) :=
  runAlone (server meterDeps) (fun _ => meterEnv) 0 meterWorld meterBuild

/-- The arguments such a transfer is assembled from. -/
def meterArgs : EVMArgs :=
  { clientID := "first", sender := .ofBytes [9], recipient := knownSwapToken "usdc"
    data := packERC20Transfer (.ofBytes [3]) 1500000, summary := ⟨"", ""⟩ }

/-- The assembly's run. -/
def assembleRun : Events × World × Except Fault EVMTxPayload :=
  runAlone (server meterDeps) (fun _ => meterEnv) 0 meterWorld (assembleEVM homeClient meterArgs)

/-- Whether a run returned a payload. -/
def returnsPayload : Except Fault (Option EVMTxPayload) → Bool
  | .ok payload => payload.isSome
  | .error _ => false

/-- The run returns a payload. -/
theorem meterRun_returns : ∃ p, meterRun.2.2 = .ok (some p) := by
  have returned : returnsPayload meterRun.2.2 = true := by decide +kernel
  cases result : meterRun.2.2 with
  | error fault =>
    rw [result] at returned
    cases returned
  | ok payload =>
    rw [result] at returned
    obtain ⟨p, isPayload⟩ := Option.isSome_iff_exists.mp returned
    exact ⟨p, by rw [isPayload]⟩

/-- So does the assembling alone. -/
theorem assembleRun_returns : ∃ p, assembleRun.2.2 = .ok p :=
  ⟨_, rfl⟩

/-- A transfer of 1.5 USDC is metered at 1500000 base units. -/
theorem evm_metering_agrees_with_builders_usdc :
    (∃ p, assembleRun.2.2 = .ok p ∧
      p.Meters (.ofBytes [9]) (.ofBytes [1]) (.ofBytes [2]) (Table.set ∅ "usdc" 1500000)) ∧
    ∃ p built, meterRun.2.2 = .ok (some p) ∧
      meterRequest.Asks meterDeps meterEvm (.ofBytes [1]) built ∧
      p.Meters (.ofBytes [9]) (.ofBytes [1]) (.ofBytes [2]) (built.outflow (.ofBytes [9])) := by
  have agrees := @evm_metering_agrees_with_builders meterDeps meterEvm (.ofBytes [1]) (.ofBytes [2])
    rfl (by decide) (.ofBytes [9])
  constructor
  · obtain ⟨p, returned⟩ := assembleRun_returns
    have run := alone_runAlone meterDeps (fun _ => meterEnv) 0 meterWorld
      (assembleEVM homeClient meterArgs)
    rw [← assembleRun, returned] at run
    have outflow : (BuiltCall.erc20Transfer (knownSwapToken "usdc") (.ofBytes [3]) 1500000).outflow
        (.ofBytes [9]) = Table.set ∅ "usdc" 1500000 := by
      have symbol : symbolForToken (knownSwapToken "usdc") = some "usdc" := by decide
      simp only [BuiltCall.outflow, BuiltCall.tokenOut, symbol]
    have meters := agrees.1 (.erc20Transfer (knownSwapToken "usdc") (.ofBytes [3]) 1500000)
      homeClient meterArgs meterWorld _ _ p ⟨by decide, by decide⟩ rfl rfl rfl run
    rw [outflow] at meters
    exact ⟨p, returned, meters⟩
  · obtain ⟨p, returned⟩ := meterRun_returns
    have run := alone_runAlone meterDeps (fun _ => meterEnv) 0 meterWorld meterBuild
    rw [← meterRun, returned] at run
    obtain ⟨built, asks, _, _, meters⟩ := agrees.2 meterRequest _ _ _ _ p trivial run
    exact ⟨p, built, returned, asks, meters⟩

end SvpMcp
