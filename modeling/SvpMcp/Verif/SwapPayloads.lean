import SvpMcp.Verif.EvmMetering

/-!
# What a swap payload asks of the router

The call data of a swap, as the router reads it, against its terms: the least output is the quote
cut by the slippage, the owner receives, WSVP stands for the native coin.
-/

namespace SvpMcp

open Handler Program

variable {signature : String} {sel : Bytes}

/-- A call of the router's swap methods, as the router reads it. -/
structure RouterCall where
  kind : SwapKind
  /-- The input amount, for the methods that have it as an argument. -/
  amountIn : Option Nat
  minOut : Nat
  path : List Address
  recipient : Address
  deadline : Nat
deriving DecidableEq

/-- The selector of `swapExactTokensForTokens`. -/
def selTokensForTokens : Bytes := [0x38, 0xed, 0x17, 0x39]

/-- The selector of `swapExactSVPForTokens`. -/
def selSVPForTokens : Bytes := [0xd7, 0xcb, 0x74, 0xde]

/-- The selector of `swapExactTokensForSVP`. -/
def selTokensForSVP : Bytes := [0xa5, 0x95, 0x97, 0x09]

/-- The arguments of a method that takes the input amount. -/
def readTokensCall (kind : SwapKind) (data : Bytes) : RouterCall :=
  ⟨kind, some (Abi.uintAt data 0), Abi.uintAt data 1, Abi.addressesAt data 2, Abi.addressAt data 3,
    Abi.uintAt data 4⟩

/-- The swap the router is called for, if it is one of its three methods. -/
def readRouterCall (data : Bytes) : Option RouterCall :=
  if data.take 4 = selSVPForTokens then
    some ⟨.svpForTokens, none, Abi.uintAt data 0, Abi.addressesAt data 1, Abi.addressAt data 2,
      Abi.uintAt data 3⟩
  else if data.take 4 = selTokensForTokens then some (readTokensCall .tokensForTokens data)
  else if data.take 4 = selTokensForSVP then some (readTokensCall .tokensForSVP data)
  else none

/-- The selector of `swapExactTokensForTokens`. -/
theorem selector_tokensForTokens :
    Abi.selector "swapExactTokensForTokens(uint256,uint256,address[],address,uint256)" =
      selTokensForTokens := by
  decide +kernel

/-- The selector of `swapExactSVPForTokens`. -/
theorem selector_svpForTokens :
    Abi.selector "swapExactSVPForTokens(uint256,address[],address,uint256)" = selSVPForTokens := by
  decide +kernel

/-- The selector of `swapExactTokensForSVP`. -/
theorem selector_tokensForSVP :
    Abi.selector "swapExactTokensForSVP(uint256,uint256,address[],address,uint256)" =
      selTokensForSVP := by
  decide +kernel

/-- The input amount a method takes as an argument. -/
def SwapPlan.argument (plan : SwapPlan) (amountIn : Nat) : Option Nat :=
  if plan.kind = .svpForTokens then none else some amountIn

section Read

variable {path : List Address} {owner : Address} {amountIn minOut : Nat} {deadline : Int}

/-- The word of a deadline. -/
def deadlineWord (deadline : Int) : Nat := (deadline % 2 ^ 256).toNat

/-- The deadline is read back as a word. -/
theorem uintAt_deadline {args : List Abi.Arg} {i : Nat}
    (isSelector : Abi.selector signature = sel) (short : sel.length = 4)
    (place : args[i]? = some (.uint deadline)) :
    Abi.uintAt (Abi.pack signature args) i = deadlineWord deadline := by
  have read := Abi.uintAt_pack isSelector short place
  unfold deadlineWord
  omega

/-- The router reads back a swap whose input amount is an argument. -/
theorem readTokensCall_pack (kind : SwapKind) (isSelector : Abi.selector signature = sel)
    (short : sel.length = 4) (pair : path.length = 2) (inFits : amountIn < 2 ^ 256)
    (outFits : minOut < 2 ^ 256) :
    readTokensCall kind (Abi.pack signature
        [.uint amountIn, .uint minOut, .addresses path, .address owner, .uint deadline]) =
      ⟨kind, some amountIn, minOut, path, owner, deadlineWord deadline⟩ := by
  have size := Abi.length_pack
    [.uint amountIn, .uint minOut, .addresses path, .address owner, .uint deadline]
    isSelector short
  simp only [List.flatMap_cons, List.flatMap_nil, Abi.Arg.tail, List.nil_append, List.append_nil,
    List.length_append, Abi.length_word, Abi.length_words, List.length_cons, List.length_nil,
    pair] at size
  rw [readTokensCall, Abi.uintAt_nat isSelector short rfl inFits,
    Abi.uintAt_nat isSelector short rfl outFits, Abi.addressAt_pack isSelector short rfl,
    Abi.addressesAt_pack isSelector short rfl (by omega), uintAt_deadline isSelector short rfl]

/-- The router reads back a swap of the native coin. -/
theorem readRouterCall_svpForTokens (pair : path.length = 2) (outFits : minOut < 2 ^ 256) :
    readRouterCall (SwapPlan.routerData ⟨.svpForTokens, path⟩ amountIn minOut owner deadline) =
      some ⟨.svpForTokens, none, minOut, path, owner, deadlineWord deadline⟩ := by
  have size := Abi.length_pack [.uint minOut, .addresses path, .address owner, .uint deadline]
    selector_svpForTokens rfl
  simp only [List.flatMap_cons, List.flatMap_nil, Abi.Arg.tail, List.nil_append, List.append_nil,
    List.length_append, Abi.length_word, Abi.length_words, List.length_cons, List.length_nil,
    pair] at size
  have method : (SwapPlan.routerData ⟨.svpForTokens, path⟩ amountIn minOut owner deadline).take 4 =
      selSVPForTokens := Abi.take_pack selector_svpForTokens rfl
  rw [readRouterCall, if_pos method]
  simp only [SwapPlan.routerData]
  rw [Abi.uintAt_nat selector_svpForTokens rfl rfl outFits,
    Abi.addressesAt_pack selector_svpForTokens rfl rfl (by omega),
    Abi.addressAt_pack selector_svpForTokens rfl rfl, uintAt_deadline selector_svpForTokens rfl rfl]

/-- The router reads back the swap of a plan. -/
theorem readRouterCall_routerData (plan : SwapPlan) (owner : Address) (deadline : Int)
    (pair : plan.path.length = 2) (inFits : amountIn < 2 ^ 256) (outFits : minOut < 2 ^ 256) :
    readRouterCall (plan.routerData amountIn minOut owner deadline) =
      some ⟨plan.kind, plan.argument amountIn, minOut, plan.path, owner,
        deadlineWord deadline⟩ := by
  obtain ⟨kind, path⟩ := plan
  cases kind with
  | svpForTokens => exact readRouterCall_svpForTokens pair outFits
  | tokensForTokens =>
    have method : (SwapPlan.routerData ⟨.tokensForTokens, path⟩ amountIn minOut owner
        deadline).take 4 = selTokensForTokens := Abi.take_pack selector_tokensForTokens rfl
    have other : selTokensForTokens ≠ selSVPForTokens := by decide
    rw [readRouterCall, method, if_neg other, if_pos rfl, SwapPlan.routerData,
      readTokensCall_pack _ selector_tokensForTokens rfl pair inFits outFits]
    rfl
  | tokensForSVP =>
    have method : (SwapPlan.routerData ⟨.tokensForSVP, path⟩ amountIn minOut owner
        deadline).take 4 = selTokensForSVP := Abi.take_pack selector_tokensForSVP rfl
    have other : selTokensForSVP ≠ selSVPForTokens := by decide
    have another : selTokensForSVP ≠ selTokensForTokens := by decide
    rw [readRouterCall, method, if_neg other, if_neg another, if_pos rfl, SwapPlan.routerData,
      readTokensCall_pack _ selector_tokensForSVP rfl pair inFits outFits]
    rfl

end Read

/-- The minimum is the output less the slippage, rounded down. -/
theorem applySlippage_ok {out bps minOut : Int} (isMinimum : applySlippage out bps = .ok minOut) :
    minOut * 10000 ≤ out * (10000 - bps) ∧ out * (10000 - bps) < (minOut + 1) * 10000 ∧
      0 ≤ bps ∧ bps < 10000 := by
  unfold applySlippage at isMinimum
  split at isMinimum
  · cases isMinimum
  · rename_i inRange
    cases isMinimum
    simp only [bpsDenom] at inRange ⊢
    omega

/-- The quoted amounts are words, and there is a last one. -/
theorem unpackAmounts_ok {out : Bytes} {amounts : List Nat}
    (isAmounts : unpackAmounts out = .ok amounts) :
    amounts.getLast? = some (amounts.getLastD 0) ∧ amounts.getLastD 0 < 2 ^ 256 := by
  obtain ⟨words, isWords, rest⟩ := bind_eq_ok.mp isAmounts
  obtain ⟨_, passed, same⟩ := bind_eq_ok.mp rest
  cases same
  have nonempty := refuseIf_eq_ok.mp passed
  have isLast : amounts.getLastD 0 = amounts.getLast nonempty := by
    rw [List.getLastD_eq_getLast?, List.getLast?_eq_some_getLast nonempty]
    rfl
  rw [isLast]
  exact ⟨List.getLast?_eq_some_getLast nonempty,
    Abi.unpackUints_lt (unpacked_eq_ok.mp isWords) (List.getLast_mem nonempty)⟩

/-- The amounts of the terms are words. -/
theorem SwapTerms.Agreed.words {terms : SwapTerms} {deps : Deps} {w : World}
    {ctx : Context} {input : BuildSwapInput}
    {events : Events}
    (agreed : terms.Agreed deps w ctx input events) :
    ∃ amountIn minOut : Nat, terms.amountIn = amountIn ∧ 0 < amountIn ∧ amountIn < 2 ^ 256 ∧
      terms.minOut = minOut ∧ 0 < minOut ∧ minOut < 2 ^ 256 := by
  obtain ⟨_, _, isAmount⟩ := agreed.isAmount
  obtain ⟨_, _, _, _, _, _, isAmounts⟩ := agreed.quoted
  obtain ⟨inPositive, inFits⟩ := humanToBaseUnits_bounds isAmount
  obtain ⟨_, outFits⟩ := unpackAmounts_ok isAmounts
  obtain ⟨below, _, nonneg, _⟩ := applySlippage_ok agreed.isMinimum
  have minPositive := agreed.positive
  obtain ⟨amountIn, isIn⟩ := Int.eq_ofNat_of_zero_le (Int.le_of_lt inPositive)
  obtain ⟨minOut, isMin⟩ := Int.eq_ofNat_of_zero_le (Int.le_of_lt minPositive)
  -- The least output is at most the quoted one, which is a word.
  have atMost : ((terms.amounts.getLastD 0 : Nat) : Int) * (10000 - input.slippage) ≤
      (terms.amounts.getLastD 0 : Nat) * 10000 :=
    Int.mul_le_mul_of_nonneg_left (by omega) (Int.natCast_nonneg _)
  exact ⟨amountIn, minOut, isIn, by omega, by omega, isMin, by omega, by omega⟩

/-- A transaction and the call it makes honour the terms of a swap and its quoted output. -/
structure Honours (terms : SwapTerms) (out : Nat) (slippage : Int) (tx : DynamicFeeTx)
    (call : RouterCall) (events : Events) : Prop where
  /-- The least output is positive. -/
  least : 1 ≤ call.minOut
  /-- It does not exceed the quoted output less the slippage. -/
  below : (call.minOut : Int) * 10000 ≤ out * (10000 - slippage)
  /-- It is the largest such amount. -/
  largest : (out : Int) * (10000 - slippage) < (call.minOut + 1) * 10000
  recipient : call.recipient = terms.owner
  target : tx.recipient = terms.router
  path : call.path = terms.plan.path
  /-- The input is the transaction's value, and no argument, exactly for the native coin. -/
  native : terms.tokenIn = .native ↔ tx.value = terms.amountIn ∧ call.amountIn = none
  /-- The input of a token is an argument, and the router was allowed to pull it. -/
  token : ∀ token, terms.tokenIn = .erc20 token → tx.value = 0 ∧
    (∃ n : Nat, call.amountIn = some n ∧ n = terms.amountIn) ∧ ∃ allowance : Nat,
      ReadsAllowance homeClient token terms.owner terms.router allowance events ∧
        terms.amountIn ≤ allowance
  /-- WSVP stands for the native coin that is given. -/
  first : terms.tokenIn = .native → call.path.head? = some terms.wsvp
  /-- WSVP stands for the native coin that is taken. -/
  last : terms.tokenOut = .native → call.path.getLast? = some terms.wsvp

/-- Every swap that is built is signed by the owner and makes a call that honours the quote: the
terms come from the request, the configuration and the answers of the contracts. -/
theorem swap_payload_honours_quote {deps : Deps} {w w' : World} {ctx : Context}
    {input : BuildSwapInput} {output : BuildSwapOutput}
    {events : Events}
    (run : Alone deps w (buildSwap deps ctx input) events w' (.ok output)) :
    ∃ (terms : SwapTerms) (out : Nat) (tx : DynamicFeeTx) (call : RouterCall),
      terms.Agreed deps w ctx input events ∧ terms.amounts.getLast? = some out ∧
      output.payload.unsignedTx = .ok tx ∧ output.payload.signerAddress = terms.owner.hex ∧
      readRouterCall tx.data = some call ∧
      Honours terms out (if input.slippageBps = 0 then 50 else input.slippageBps) tx call
        events := by
  obtain ⟨terms, agreed, now, _, ⟨tx, isTx, target, value, data⟩, signer⟩ :=
    buildSwap_ok (alone_gives run)
  obtain ⟨_, _, _, _, _, _, isAmounts⟩ := agreed.quoted
  obtain ⟨isLast, _⟩ := unpackAmounts_ok isAmounts
  obtain ⟨below, largest, _, _⟩ := applySlippage_ok agreed.isMinimum
  obtain ⟨pair, isNative, _, first, last⟩ := resolveSwapPlan_ok agreed.isPlan
  obtain ⟨amountIn, minOut, isIn, inPositive, inFits, isMin, minPositive, minFits⟩ := agreed.words
  have read := readRouterCall_routerData terms.plan terms.owner
    (swapDeadline now input.deadlineSec) pair inFits minFits
  rw [isMin] at below largest
  rw [isIn] at value
  rw [isIn, isMin] at data
  unfold SwapPlan.value at value
  refine ⟨terms, _, tx, _, agreed, isLast, isTx, signer, data ▸ read, ?_⟩
  exact {
    least := by
      show 1 ≤ minOut
      omega
    below
    largest
    recipient := rfl
    target
    path := rfl
    native := by
      rw [← isNative]
      constructor
      · intro svp
        rw [if_pos svp] at value
        exact ⟨value.trans isIn.symm, if_pos svp⟩
      · intro both
        by_contra other
        rw [if_neg other] at value
        omega
    token := by
      intro token isToken
      have other : terms.plan.kind ≠ .svpForTokens := fun svp =>
        SwapToken.noConfusion ((isNative.mp svp).symm.trans isToken)
      rw [if_neg other] at value
      exact ⟨value, ⟨amountIn, if_neg other, isIn.symm⟩, agreed.allowed token isToken⟩
    first
    last }

/-- A node whose router quotes two amounts; other contracts answer with six. -/
def quotingEnv : Env where
  __ := meterEnv
  evm client
    | .callContract contract data =>
      if contract = .ofBytes [1] then
        .ok (Abi.word 32 ++ (Abi.word 2 ++ (Abi.word 1000 ++ Abi.word 1999)))
      else meterEnv.evm client (.callContract contract data)
    | query => meterEnv.evm client query

/-- A swap of the native coin for USDV. -/
def nativeSwap : BuildSwapInput := ⟨"svp", "usdv", "1.5", 0, 0, "first"⟩

/-- The handler of the swap. -/
def swapBuild : Handler BuildSwapOutput :=
  buildSwap meterDeps ownerContext nativeSwap

/-- The performed calls, the world and the outcome of the build. -/
def swapRun :=
  runAlone (server meterDeps) (fun _ => quotingEnv) 0 meterWorld swapBuild

/-- The swap is built and honours the quote. -/
theorem swap_payload_honours_quote_native : ∃ output, swapRun.2.2 = .ok output ∧
    ∃ (terms : SwapTerms) (out : Nat) (tx : DynamicFeeTx) (call : RouterCall),
      terms.Agreed meterDeps meterWorld ownerContext nativeSwap swapRun.1 ∧
      terms.amounts.getLast? = some out ∧ output.payload.unsignedTx = .ok tx ∧
      output.payload.signerAddress = terms.owner.hex ∧ readRouterCall tx.data = some call ∧
      Honours terms out (if nativeSwap.slippageBps = 0 then 50 else nativeSwap.slippageBps) tx call
        swapRun.1 := by
  obtain ⟨output, isOutput⟩ := exists_of_isOk
    (show swapRun.2.2.isOk = true by decide +kernel)
  have run := alone_runAlone meterDeps (fun _ => quotingEnv) 0 meterWorld swapBuild
  rw [← swapRun, isOutput] at run
  exact ⟨output, isOutput, swap_payload_honours_quote run⟩

end SvpMcp
