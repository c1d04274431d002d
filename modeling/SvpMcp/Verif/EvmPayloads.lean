import SvpMcp.Lib.CallReading
import SvpMcp.Model.Swap
import SvpMcp.Verif.Amounts
import SvpMcp.Verif.FundsRail

/-!
# What the EVM tools assemble

A payload read back as the signer reads it makes the call it was assembled for. A run of the swap
tool that returns is taken apart once.
-/

namespace SvpMcp

open Calendar Handler Program

variable {α : Type} {client : EvmClient} {query : EvmQuery} {answer : EvmAnswer query}
  {p : EVMTxPayload} {deps : Deps} {w w' : World} {events : Events}
  {holds : Event World Env ServerOp Reply → Prop}

/-- The call a payload makes, as the signer reads it. -/
def EVMTxPayload.Calls (p : EVMTxPayload) (recipient : Address) (value : Int) (data : Bytes) :
    Prop :=
  ∃ tx, p.unsignedTx = .ok tx ∧ tx.recipient = recipient ∧ tx.value = value ∧ tx.data = data

/-- A payload makes one call. -/
theorem calls_unique {recipient recipient' : Address} {value value' : Int} {data data' : Bytes}
    (calls : p.Calls recipient value data) (calls' : p.Calls recipient' value' data') :
    recipient = recipient' ∧ value = value' ∧ data = data' := by
  obtain ⟨tx, isTx, rfl, rfl, rfl⟩ := calls
  obtain ⟨tx', isTx', rfl, rfl, rfl⟩ := calls'
  cases isTx.symm.trans isTx'
  exact ⟨rfl, rfl, rfl⟩

/-- What the signer reads from the fields of a payload. -/
structure EVMTxPayload.Declares (p : EVMTxPayload) (tx : DynamicFeeTx) : Prop where
  chainID : parseBigField "evm_chain_id" p.evmChainID = .ok tx.chainID
  nonce : parseUintField "nonce" p.nonce = .ok tx.nonce
  gas : parseUintField "gas" p.gas = .ok tx.gas
  gasFeeCap : parseBigField "max_fee_per_gas" p.maxFeePerGas = .ok tx.gasFeeCap
  gasTipCap : parseBigField "max_priority_fee_per_gas" p.maxPriorityFeePerGas = .ok tx.gasTipCap
  recipient : .ofHex p.recipient = tx.recipient
  value : parseValueField p.value = .ok tx.value
  data : parseDataField p.data = .ok tx.data

/-- A payload that is read declares its transaction. -/
theorem unsignedTx_ok {tx : DynamicFeeTx} (read : p.unsignedTx = .ok tx) :
    p.Declares tx := by
  unfold EVMTxPayload.unsignedTx at read
  simp only [bind_eq_ok, pure_eq_ok] at read
  obtain ⟨chainID, isChainID, nonce, isNonce, gas, isGas, gasFeeCap, isFeeCap, gasTipCap, isTipCap,
    value, isValue, data, isData, rfl⟩ := read
  exact ⟨isChainID, isNonce, isGas, isFeeCap, isTipCap, rfl, isValue, isData⟩

/-- A number is read back. -/
theorem parseBigField_print (field : String) (n : Int) :
    parseBigField field (String.ofList (Decimal.print n)) = .ok n := by
  rw [parseBigField, String.toList_ofList, Decimal.read_print]

/-- A `uint64` is read back. -/
theorem parseUintField_format (field : String) (n : UInt64) :
    parseUintField field (formatUint n) = .ok n := by
  rw [parseUintField, formatUint, String.toList_ofList, Decimal.readUint64_digits]

/-- Such a text is not empty. -/
theorem ofList_ne_empty {text : List Char} (nonempty : text ≠ []) : String.ofList text ≠ "" := by
  intro empty
  have lists := congrArg String.toList empty
  rw [String.toList_ofList] at lists
  exact nonempty lists

/-- Nor is a number's. -/
theorem print_ne_nil (n : Int) : Decimal.print n ≠ [] := by
  intro empty
  have read := Decimal.read_print n
  rw [empty] at read
  cases read

/-- A value is read back. -/
theorem parseValueField_print (n : Int) :
    parseValueField (String.ofList (Decimal.print n)) = .ok n := by
  rw [parseValueField, if_neg (ofList_ne_empty (print_ne_nil n)), parseBigField_print]

/-- Data are read back. -/
theorem parseDataField_encode (data : Bytes) :
    parseDataField (String.ofList (Hexutil.encode data)) = .ok data := by
  have marked : String.ofList (Hexutil.encode data) ≠ "" := ofList_ne_empty (List.cons_ne_nil _ _)
  rw [parseDataField, if_neg marked, String.toList_ofList, Hexutil.decode_encode]
  rfl

/-- An assembled payload makes the call it was assembled for. -/
theorem assembleEVM_calls {args : EVMArgs}
    (run : Gives deps holds w (assembleEVM client args) w' p) :
    p.Calls args.recipient (args.value.getD 0) args.data := by
  simp only [assembleEVM, completes_bind, completes_pure] at run
  obtain ⟨_, chainID, _, _, nonce, _, _, tip, _, _, baseFee, _, _, gas, _, _, now, _, _, rfl⟩ := run
  refine ⟨⟨chainID, nonce, tip, baseFee * 2 + tip, gas * 5 / 4, args.recipient,
    args.value.getD 0, args.data⟩, ?_, rfl, rfl, rfl⟩
  simp only [EVMTxPayload.unsignedTx, parseBigField_print, parseUintField_format,
    parseValueField_print, parseDataField_encode, Address.ofHex_hex]
  rfl

/-- The owner signs an assembled payload. -/
theorem assembleEVM_signer {args : EVMArgs}
    (run : Gives deps holds w (assembleEVM client args) w' p) :
    p.signerAddress = args.sender.hex := by
  simp only [assembleEVM, completes_bind, completes_pure] at run
  obtain ⟨_, _, _, _, _, _, _, _, _, _, _, _, _, _, _, _, _, _, _, rfl⟩ := run
  rfl

/-- A human amount is returned in base units. -/
@[simp]
theorem gives_baseAmount {argument human : String} {decimals amount : Int} :
    Gives deps holds w (baseAmount argument human decimals) w' amount ↔
      w = w' ∧ humanToBaseUnits human decimals = .ok amount := by
  simp [baseAmount]

/-- A call without value is assembled for the contract. -/
theorem assembleERC_calls {owner clientID toolName description : String} {recipient : Address}
    {data : Bytes}
    (run : Gives deps holds w (assembleERC deps client owner recipient data clientID toolName
      description) w' p) :
    p.Calls recipient 0 data := by
  simp [assembleERC] at run
  obtain ⟨sender, _, assembled⟩ := run
  exact assembleEVM_calls assembled

/-- The router and WSVP are the configured ones. -/
@[simp]
theorem gives_requireSwap {uni : Address × Address} :
    Gives deps holds w (requireSwap deps) w' uni ↔
      w = w' ∧ deps.evmEnabled = true ∧ deps.uniswap = some uni := by
  cases configured : deps.uniswap with
  | none => simp [requireSwap, requireEVM, configured]
  | some found => simp [requireSwap, requireEVM, configured, and_assoc]

/-- A run saw a read of the home chain answered. -/
def Observed (events : Events) (query : EvmQuery)
    (answer : EvmAnswer query) : Prop :=
  ∃ e ∈ events, ∃ before env, e = ⟨before, env, .evm homeClient query, .ok answer⟩

/-- A run saw a read of a chain answered. -/
def AnsweredBy (events : Events) (client : EvmClient)
    (query : EvmQuery) (answer : EvmAnswer query) : Prop :=
  ∃ e ∈ events, ∃ before env, e = ⟨before, env, .evm client query, .ok answer⟩

/-- A read of a chain returns what the chain answers. -/
theorem gives_evmRead {format : String} {operands : List String} :
    Gives deps holds w (evmRead client query format operands) w' answer ↔ w = w' ∧
      ∃ env, holds ⟨w, env, .evm client query, .ok answer⟩ ∧
        env.evm client query = .ok answer := by
  simp only [evmRead, completes_bind, gives_ofResult, mapError_eq_ok]
  constructor
  · rintro ⟨_, _, asked, rfl, rfl⟩
    obtain ⟨env, here, performed⟩ := gives_call.mp asked
    exact ⟨congrArg Prod.snd performed, env, here, congrArg Prod.fst performed⟩
  · rintro ⟨rfl, env, here, answered⟩
    exact ⟨_, _, gives_call.mpr ⟨env, here, Prod.ext answered rfl⟩, rfl, rfl⟩

/-- A read that returns was answered. -/
theorem evmRead_answered {format : String} {operands : List String}
    (run : Gives deps (· ∈ events) w (evmRead client query format operands) w' answer) :
    AnsweredBy events client query answer := by
  obtain ⟨_, env, here, _⟩ := gives_evmRead.mp run
  exact ⟨_, here, w, env, rfl⟩

/-- The selector of `allowance`. -/
def selAllowance : Bytes := [0xdd, 0x62, 0xed, 0x3e]

/-- The selector of `allowance`. -/
theorem selector_allowance : Abi.selector "allowance(address,address)" = selAllowance := by
  decide +kernel

/-- A run saw a token on a chain asked what a spender may pull from an owner, and report it. -/
def ReadsAllowance (client : EvmClient) (token owner spender : Address) (allowance : Nat)
    (events : Events) : Prop :=
  ∃ data out, AnsweredBy events client (.callContract token data) out ∧
    data.take 4 = selAllowance ∧ Abi.addressAt data 0 = owner ∧ Abi.addressAt data 1 = spender ∧
    Abi.unpackUint out = some allowance

/-- The query the tools pack for an allowance is read as one. -/
theorem readsAllowance_pack {token owner spender : Address} {allowance : Nat} {out : Bytes}
    {format : String} {operands : List String}
    (run : Gives deps (· ∈ events) w (evmRead client (.callContract token
      (packERC20Allowance owner spender)) format operands) w' out)
    (isUint : Abi.unpackUint out = some allowance) :
    ReadsAllowance client token owner spender allowance events :=
  ⟨_, out, evmRead_answered run, Abi.take_pack selector_allowance rfl,
    Abi.addressAt_pack selector_allowance rfl rfl, Abi.addressAt_pack selector_allowance rfl rfl,
    isUint⟩

/-- A run saw the clock show an instant. -/
def ClockRead (events : Events) (now : Time) : Prop :=
  ∃ e ∈ events, ∃ before env, e = ⟨before, env, .now, now⟩

/-- The clock was read when its instant is returned. -/
theorem now_read {now : Time} (run : Gives deps (· ∈ events) w (call .now) w' now) :
    ClockRead events now := by
  obtain ⟨env, here, _⟩ := gives_call.mp run
  exact ⟨_, here, w, env, rfl⟩

/-- The slippage of a request, or the default. -/
def BuildSwapInput.slippage (input : BuildSwapInput) : Int :=
  if input.slippageBps = 0 then defaultSlippageBps else input.slippageBps

/-- The router's call for a plan. -/
def SwapPlan.routerData (plan : SwapPlan) (amountIn minOut : Int) (sender : Address)
    (deadline : Int) : Bytes :=
  match plan.kind with
  | .tokensForTokens =>
    Abi.pack "swapExactTokensForTokens(uint256,uint256,address[],address,uint256)"
      [.uint amountIn, .uint minOut, .addresses plan.path, .address sender, .uint deadline]
  | .svpForTokens =>
    Abi.pack "swapExactSVPForTokens(uint256,address[],address,uint256)"
      [.uint minOut, .addresses plan.path, .address sender, .uint deadline]
  | .tokensForSVP =>
    Abi.pack "swapExactTokensForSVP(uint256,uint256,address[],address,uint256)"
      [.uint amountIn, .uint minOut, .addresses plan.path, .address sender, .uint deadline]

/-- The native value of a plan's transaction. -/
def SwapPlan.value (plan : SwapPlan) (amountIn : Int) : Int :=
  if plan.kind = .svpForTokens then amountIn else 0

/-- The swap of positive amounts is packed unless its deadline is negative. -/
theorem swapCall_eq_ok {plan : SwapPlan} {amountIn minOut deadline : Int} {sender : Address}
    {made : Bytes × Int} (positive : 0 < amountIn) (least : 0 < minOut) :
    swapCall plan amountIn minOut sender deadline = .ok made ↔ 0 ≤ deadline ∧
      made = (plan.routerData amountIn minOut sender deadline, plan.value amountIn) := by
  have inAccepted : 0 ≤ amountIn := Int.le_of_lt positive
  have outAccepted : 0 ≤ minOut := Int.le_of_lt least
  obtain ⟨kind, path⟩ := plan
  cases kind <;>
    exact Abi.map_tryPack_eq_ok.trans (by
      simp [Abi.Arg.accepted, SwapPlan.routerData, SwapPlan.value, inAccepted, outAccepted])

/-- What a swap is built from. -/
structure SwapTerms where
  router : Address
  wsvp : Address
  owner : Address
  tokenIn : SwapToken
  tokenOut : SwapToken
  plan : SwapPlan
  /-- The amount given, in base units. -/
  amountIn : Int
  /-- The amounts the router quoted. -/
  amounts : List Nat
  minOut : Int

/-- The selector of `getAmountsOut`. -/
def selGetAmountsOut : Bytes := [0xd0, 0x6c, 0xa6, 0x1f]

/-- The selector of `getAmountsOut`. -/
theorem selector_getAmountsOut :
    Abi.selector "getAmountsOut(uint256,address[])" = selGetAmountsOut := by
  decide +kernel

/-- The router reads back the amount and the path it is asked about. -/
theorem packGetAmountsOut_read {amountIn : Int} {path : List Address} (positive : 0 < amountIn)
    (fits : amountIn < 2 ^ 256) (pair : path.length = 2) :
    (packGetAmountsOut amountIn path).take 4 = selGetAmountsOut ∧
      (Abi.uintAt (packGetAmountsOut amountIn path) 0 : Int) = amountIn ∧
      Abi.addressesAt (packGetAmountsOut amountIn path) 1 = path := by
  have size := Abi.length_pack [.uint amountIn, .addresses path] selector_getAmountsOut rfl
  simp only [List.flatMap_cons, List.flatMap_nil, Abi.Arg.tail, List.nil_append, List.append_nil,
    List.length_append, Abi.length_word, Abi.length_words, List.length_cons, List.length_nil,
    pair] at size
  refine ⟨Abi.take_pack selector_getAmountsOut rfl, ?_,
    Abi.addressesAt_pack selector_getAmountsOut rfl rfl (by omega)⟩
  rw [packGetAmountsOut, Abi.uintAt_pack selector_getAmountsOut rfl rfl]
  omega

/-- The path of a plan has WSVP where the native coin is given or taken, and the entry point is
that of the native side. -/
theorem resolveSwapPlan_ok {tokenIn tokenOut : SwapToken} {wsvp : Address} {plan : SwapPlan}
    (isPlan : resolveSwapPlan tokenIn tokenOut wsvp = .ok plan) :
    plan.path.length = 2 ∧ (plan.kind = .svpForTokens ↔ tokenIn = .native) ∧
      (plan.kind = .tokensForSVP ↔ tokenOut = .native) ∧
      (tokenIn = .native → plan.path.head? = some wsvp) ∧
      (tokenOut = .native → plan.path.getLast? = some wsvp) := by
  cases tokenIn with
  | native =>
    cases tokenOut with
    | native => cases isPlan
    | erc20 outAddr =>
      cases isPlan
      simp
  | erc20 inAddr =>
    cases tokenOut with
    | native =>
      cases isPlan
      simp
    | erc20 outAddr =>
      by_cases same : inAddr = outAddr
      · simp only [resolveSwapPlan, if_pos same] at isPlan
        cases isPlan
      · simp only [resolveSwapPlan, if_neg same] at isPlan
        cases isPlan
        simp

/-- The decimals a run takes a token to have: those of the native coin, or the ones its contract
reported. -/
def DecimalsOf (events : Events) (decimals : Int) :
    SwapToken → Prop
  | .native => decimals = 18
  | .erc20 contract => ∃ out n, Observed events (.callContract contract packERC20Decimals) out ∧
      Abi.unpackUint8 out = some n ∧ decimals = n

/-- The decimals a run saw the contract of a token report on a chain. -/
def ReportedDecimals (events : Events) (client : EvmClient)
    (token : Address) (decimals : Nat) : Prop :=
  ∃ out, AnsweredBy events client (.callContract token packERC20Decimals) out ∧
    Abi.unpackUint8 out = some decimals

/-- A run in which the terms come from the request, the configuration and the answers of the
contracts. -/
structure SwapTerms.Agreed (terms : SwapTerms) (deps : Deps) (w : World)
    (ctx : Context) (input : BuildSwapInput)
    (events : Events) : Prop where
  /-- The owner is the EVM account of the tenant's address. -/
  acts : ∃ tp, ActsFor deps w ctx tp ∧ AccountOf deps.codec tp.owner terms.owner
  configured : deps.uniswap = some (terms.router, terms.wsvp)
  isIn : parseSwapToken input.tokenIn = .ok terms.tokenIn
  isOut : parseSwapToken input.tokenOut = .ok terms.tokenOut
  isPlan : resolveSwapPlan terms.tokenIn terms.tokenOut terms.wsvp = .ok terms.plan
  isAmount : ∃ decimals, DecimalsOf events decimals terms.tokenIn ∧
    humanToBaseUnits input.amountIn decimals = .ok terms.amountIn
  /-- A token the router pulls has been approved. -/
  allowed : ∀ token, terms.tokenIn = .erc20 token → ∃ allowance : Nat,
    ReadsAllowance homeClient token terms.owner terms.router allowance events ∧
      terms.amountIn ≤ allowance
  /-- The router was asked for the amounts of the path, and has quoted them. -/
  quoted : ∃ data out, Observed events (.callContract terms.router data) out ∧
    data.take 4 = selGetAmountsOut ∧ (Abi.uintAt data 0 : Int) = terms.amountIn ∧
    Abi.addressesAt data 1 = terms.plan.path ∧ unpackAmounts out = .ok terms.amounts
  isMinimum : applySlippage (terms.amounts.getLastD 0 : Nat) input.slippage = .ok terms.minOut
  positive : 0 < terms.minOut

/-- An answer is accepted when it is unpacked. -/
@[simp]
theorem unpacked_eq_ok {method : String} {result : Option α} {value : α} :
    unpacked method result = .ok value ↔ result = some value := by
  cases result with
  | none => simp [unpacked]
  | some found => simp [unpacked]

/-- The decimals that are returned were reported. -/
theorem erc20DecimalsOn_ok {token : Address} {decimals : Int}
    (run : Gives deps (· ∈ events) w (erc20DecimalsOn client token) w' decimals) :
    ∃ n : Nat, ReportedDecimals events client token n ∧ decimals = n := by
  simp [erc20DecimalsOn] at run
  obtain ⟨out, read, n, isUint, rfl⟩ := run
  exact ⟨n, ⟨out, evmRead_answered read, isUint⟩, rfl⟩

/-- The decimals of a token that are returned are its own. -/
theorem tokenDecimals_ok {token : SwapToken} {decimals : Int}
    (run : Gives deps (· ∈ events) w (tokenDecimals token) w' decimals) :
    DecimalsOf events decimals token := by
  cases token with
  | native =>
    simp [tokenDecimals] at run
    exact run.2.symm
  | erc20 contract =>
    obtain ⟨n, ⟨out, observed, isUint⟩, isDecimals⟩ := erc20DecimalsOn_ok run
    exact ⟨out, n, observed, isUint, isDecimals⟩

/-- An allowance that is checked covers the amount. -/
theorem checkAllowance_ok {router owner contract : Address} {amountIn : Int} {human : String}
    {checked : Unit} (run : Gives deps (· ∈ events) w
      (checkAllowance router owner amountIn human (.erc20 contract)) w' checked) :
    ∃ allowance : Nat, ReadsAllowance homeClient contract owner router allowance events ∧
      amountIn ≤ allowance := by
  simp [checkAllowance] at run
  obtain ⟨out, read, allowance, isUint, covered⟩ := run
  exact ⟨allowance, readsAllowance_pack read isUint, covered⟩

/-- The expected amount is the last one the router quotes. -/
theorem quoteExpectedOut_ok {router : Address} {amountIn expectedOut : Int} {path : List Address}
    (run : Gives deps (· ∈ events) w (quoteExpectedOut router amountIn path) w' expectedOut) :
    ∃ out amounts, Observed events (.callContract router (packGetAmountsOut amountIn path)) out ∧
      unpackAmounts out = .ok amounts ∧ expectedOut = (amounts.getLastD 0 : Nat) := by
  simp [quoteExpectedOut] at run
  obtain ⟨out, read, amounts, isAmounts, rfl⟩ := run
  exact ⟨out, amounts, evmRead_answered read, isAmounts, by simp⟩

/-- A swap that is built: its terms, the call of its payload and who signs it. -/
theorem buildSwap_ok {ctx : Context} {input : BuildSwapInput}
    {output : BuildSwapOutput}
    (run : Gives deps (· ∈ events) w (buildSwap deps ctx input) w' output) :
    ∃ terms : SwapTerms, terms.Agreed deps w ctx input events ∧ ∃ now, ClockRead events now ∧
      output.payload.Calls terms.router (terms.plan.value terms.amountIn)
        (terms.plan.routerData terms.amountIn terms.minOut terms.owner
          (swapDeadline now input.deadlineSec)) ∧
      output.payload.signerAddress = terms.owner.hex := by
  simp [buildSwap] at run
  obtain ⟨_, tp, authorized, router, wsvp, ⟨_, configured⟩, tokenIn, isIn, tokenOut, isOut, plan,
    isPlan, owner, isOwner, _, decIn, isDec, amountIn, base, _, ⟨_, approved⟩, _, expectedOut,
    quoted, minOut, isMinimum, least, _, now, isNow, data, value, packed, _, decOut, _, minHuman, _,
    payload, assembled, expected, _, rfl⟩ := run
  obtain ⟨out, amounts, observed, isAmounts, isExpected⟩ := quoteExpectedOut_ok quoted
  obtain ⟨inPositive, inFits⟩ := humanToBaseUnits_bounds base
  have pair := (resolveSwapPlan_ok isPlan).1
  obtain ⟨method, asked, path⟩ := packGetAmountsOut_read inPositive inFits pair
  have isCall := ((swapCall_eq_ok inPositive least).mp packed).2
  have calls := assembleEVM_calls assembled
  have signer := assembleEVM_signer assembled
  cases isCall
  refine ⟨⟨router, wsvp, owner, tokenIn, tokenOut, plan, amountIn, amounts, minOut⟩, ?_,
    now, now_read isNow, calls, signer⟩
  exact {
    acts := ⟨tp, authorize_ok authorized, ownerEthAddress_eq_ok.mp isOwner⟩
    configured
    isIn
    isOut
    isPlan
    isAmount := ⟨decIn, tokenDecimals_ok isDec, base⟩
    allowed := by
      intro token isToken
      cases isToken
      exact checkAllowance_ok approved
    quoted := ⟨_, out, observed, method, asked, path, isAmounts⟩
    isMinimum := isExpected ▸ isMinimum
    positive := least }

end SvpMcp
