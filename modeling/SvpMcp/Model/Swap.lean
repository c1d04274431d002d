import SvpMcp.Model.EvmTools

/-!
# The swap tools

The tools of `tools/swap.go`: the pair decides the router's entry point and path, and the quote
bounds what the swap may return.
-/

namespace SvpMcp

open Calendar Handler

/-- The slippage when none is given. -/
def defaultSlippageBps : Int := 50

/-- `defaultSwapDeadline`, in seconds. -/
def defaultSwapDeadline : Int := 1200

/-- The basis points of a whole. -/
def bpsDenom : Int := 10000

/-- A token argument: the native coin or an ERC-20 contract. -/
inductive SwapToken where
  | native
  | erc20 (contract : Address)
deriving DecidableEq

/-- Read a token of a swap. -/
def parseSwapToken (s : String) : Except Err SwapToken :=
  let t := String.ofList (Strings.trimSpace s.toList)
  let key := Strings.toLower t
  if key = "" ∨ key = "native" ∨ key = "svp" then .ok .native
  else
    match knownSwapTokens.lookup key with
    | some contract => .ok (.erc20 contract)
    | none =>
      if Address.isHex t.toList = false then
        .error (.errorf ⟨"invalid token %q: use a 0x address, a known symbol (usdv), or " ++
          "empty/\"native\"/\"svp\" for native SVP", [s]⟩)
      else if Address.ofHex t = .zero then .ok .native
      else .ok (.erc20 (.ofHex t))

/-- The entry points of the router. -/
inductive SwapKind where
  | tokensForTokens
  | svpForTokens
  | tokensForSVP
deriving DecidableEq

/-- The entry point and the path of a swap. -/
structure SwapPlan where
  kind : SwapKind
  path : List Address
deriving DecidableEq

/-- The plan for two tokens. -/
def resolveSwapPlan (tokenIn tokenOut : SwapToken) (wsvp : Address) : Except Err SwapPlan :=
  match tokenIn, tokenOut with
  | .native, .native => .error (.errorf
    ⟨"token_in and token_out are both native SVP — nothing to swap", []⟩)
  | .native, .erc20 outAddr => .ok ⟨.svpForTokens, [wsvp, outAddr]⟩
  | .erc20 inAddr, .native => .ok ⟨.tokensForSVP, [inAddr, wsvp]⟩
  | .erc20 inAddr, .erc20 outAddr =>
    if inAddr = outAddr then
      .error (.errorf ⟨"token_in and token_out are the same token", []⟩)
    else .ok ⟨.tokensForTokens, [inAddr, outAddr]⟩

/-- The least amount after the slippage. -/
def applySlippage (out bps : Int) : Except Err Int :=
  if bps < 0 ∨ bpsDenom ≤ bps then
    .error (.errorf ⟨"slippage_bps must be in [0, %d), got %d",
      [String.ofList (Decimal.print bpsDenom), String.ofList (Decimal.print bps)]⟩)
  else .ok (out * (bpsDenom - bps) / bpsDenom)

/-- How a token is shown. -/
def tokenLabel : SwapToken → String
  | .native => "native"
  | .erc20 contract =>
    match knownSwapTokens.find? fun entry => entry.2 = contract with
    | some (sym, _) => Strings.toUpper sym
    | none => contract.hex

/-- `requireSwap` — the router and WSVP. -/
def requireSwap (deps : Deps) : Handler (Address × Address) := do
  requireEVM deps
  match deps.uniswap with
  | some uni => return uni
  | none => fail (.errorf ⟨"swaps are not enabled on this server " ++
      "(no evm_uniswap_router_addr / evm_wsvp_addr configured)", []⟩)

/-- The decimals of a token. -/
def tokenDecimals : SwapToken → Handler Int
  | .native => return 18
  | .erc20 contract => erc20DecimalsOn homeClient contract

/-- `quoteAmountsOut`, and the last of the amounts. -/
def quoteExpectedOut (router : Address) (amountIn : Int) (path : List Address) : Handler Int := do
  let (out : Bytes) ← evmRead homeClient (.callContract router (packGetAmountsOut amountIn path))
    "quote getAmountsOut (no liquidity for this path?): %w" []
  let amounts ← ofResult (unpackAmounts out)
  return (amounts.getLastD 0 : Nat)

/-- `checkAllowance`, for a token the swap pulls. -/
def checkAllowance (router owner : Address) (amountIn : Int) (amountHuman : String) :
    SwapToken → Handler Unit
  | .native => return ()
  | .erc20 token => do
    let (out : Bytes) ← evmRead homeClient (.callContract token (packERC20Allowance owner router))
      "read allowance for %s: %w" [token.hex]
    let allowance ← ofResult (unpacked "allowance" (Abi.unpackUint out))
    require (amountIn ≤ allowance) (.errorf ⟨"router allowance for %s is insufficient — call " ++
      "build_token_approval (token %s, amount >= %s) first, then retry build_swap",
      [token.hex, token.hex, amountHuman]⟩)

/-- What `quote_swap` returns. -/
structure QuoteSwapOutput where
  tokenIn : String
  tokenOut : String
  path : List String
  amountIn : String
  amountInBase : String
  expectedOut : String
  expectedOutBase : String
deriving DecidableEq, Repr

/-- The tool `quote_swap`. -/
def quoteSwap (deps : Deps) (ctx : Context) (tokenIn tokenOut amountIn : String) :
    Handler QuoteSwapOutput := do
  let _ ← authorize ctx "quote_swap"
  let (router, wsvp) ← requireSwap deps
  let inToken ← ofResult ((parseSwapToken tokenIn).mapError fun e => .wrap "token_in: %w" [] e)
  let outToken ← ofResult ((parseSwapToken tokenOut).mapError fun e => .wrap "token_out: %w" [] e)
  let plan ← ofResult (resolveSwapPlan inToken outToken wsvp)
  let decIn ← tokenDecimals inToken
  let amountInBase ← baseAmount "amount_in" amountIn decIn
  let expectedOut ← quoteExpectedOut router amountInBase plan.path
  let decOut ← tokenDecimals outToken
  let expected ← ofCall (humanOut expectedOut decOut)
  return {
    tokenIn := tokenLabel inToken
    tokenOut := tokenLabel outToken
    path := plan.path.map Address.hex
    amountIn
    amountInBase := String.ofList (Decimal.print amountInBase)
    expectedOut := expected
    expectedOutBase := String.ofList (Decimal.print expectedOut) }

/-- The arguments of `build_token_approval`. -/
structure BuildTokenApprovalInput where
  token : String
  amount : String
  unlimited : Bool
  clientID : String
deriving DecidableEq, Repr

/-- The contract of a token that needs an approval. -/
def approvedToken (token : String) : Except Err Address := do
  let parsed ← (parseSwapToken token).mapError fun e => .wrap "token: %w" [] e
  match parsed with
  | .native =>
    .error (.errorf ⟨"native SVP needs no approval; only ERC-20 input tokens do", []⟩)
  | .erc20 contract => .ok contract

/-- The tool `build_token_approval`. -/
def buildTokenApproval (deps : Deps) (ctx : Context)
    (input : BuildTokenApprovalInput) : Handler EVMTxPayload := do
  let tp ← authorize ctx "build_token_approval"
  let (router, _) ← requireSwap deps
  let token ← ofResult (approvedToken input.token)
  let (amount, label) ← approvalAmount homeClient token input.amount input.unlimited
  let sender ← ofResult (ownerEthAddress deps.codec tp.owner)
  assembleEVM homeClient {
    clientID := input.clientID, sender, recipient := token, data := packERC20Approve router amount
    summary := ⟨"build_token_approval",
      "approve router " ++ router.hex ++ " to spend " ++ label ++ " of " ++ token.hex⟩ }

/-- The arguments of `build_swap`. -/
structure BuildSwapInput where
  tokenIn : String
  tokenOut : String
  /-- The amount given, in human units. -/
  amountIn : String
  /-- The slippage allowed; zero is the default. -/
  slippageBps : Int
  /-- How long the swap stays valid; zero or less is the default. -/
  deadlineSec : Int
  clientID : String
deriving DecidableEq, Repr

/-- What `build_swap` returns. -/
structure BuildSwapOutput where
  payload : EVMTxPayload
  expectedOut : String
  minOut : String
  minOutBase : String
  slippageBps : Int
deriving DecidableEq, Repr

/-- The deadline of a swap, in Unix seconds. The duration is an `int64` of nanoseconds. -/
def swapDeadline (now : Time) (deadlineSec : Int) : Int :=
  let seconds := if deadlineSec ≤ 0 then defaultSwapDeadline else deadlineSec
  (now + (seconds * 1000000000).bmod (2 ^ 64)) / 1000000000

/-- The call data and the native value of a swap. -/
def swapCall (plan : SwapPlan) (amountIn minOut : Int) (sender : Address) (deadline : Int) :
    Except String (Bytes × Int) :=
  match plan.kind with
  | .tokensForTokens =>
    (packSwapExactTokensForTokens amountIn minOut plan.path sender deadline).map (·, 0)
  | .svpForTokens => (packSwapExactSVPForTokens minOut plan.path sender deadline).map (·, amountIn)
  | .tokensForSVP =>
    (packSwapExactTokensForSVP amountIn minOut plan.path sender deadline).map (·, 0)

/-- `%.2f` of a slippage in percent. -/
def slippagePercent (bps : Int) : String :=
  String.ofList (Decimal.print (bps / 100) ++ '.' :: Decimal.padded 2 (bps % 100).toNat)

/-- The tool `build_swap`. -/
def buildSwap (deps : Deps) (ctx : Context) (input : BuildSwapInput) :
    Handler BuildSwapOutput := do
  let tp ← authorize ctx "build_swap"
  let (router, wsvp) ← requireSwap deps
  let tokenIn ← ofResult ((parseSwapToken input.tokenIn).mapError fun e =>
    .wrap "token_in: %w" [] e)
  let tokenOut ← ofResult ((parseSwapToken input.tokenOut).mapError fun e =>
    .wrap "token_out: %w" [] e)
  let plan ← ofResult (resolveSwapPlan tokenIn tokenOut wsvp)
  let slippage := if input.slippageBps = 0 then defaultSlippageBps else input.slippageBps
  let sender ← ofResult (ownerEthAddress deps.codec tp.owner)
  let decIn ← tokenDecimals tokenIn
  let amountIn ← baseAmount "amount_in" input.amountIn decIn
  checkAllowance router sender amountIn input.amountIn tokenIn
  let expectedOut ← quoteExpectedOut router amountIn plan.path
  let minOut ← ofResult (applySlippage expectedOut slippage)
  require (0 < minOut) (.errorf
    ⟨"quoted output rounds to zero — amount_in is too small for this path", []⟩)
  let (now : Time) ← call .now
  let (data, value) ← ofResult ((swapCall plan amountIn minOut sender
    (swapDeadline now input.deadlineSec)).mapError .external)
  let decOut ← tokenDecimals tokenOut
  let minHuman ← ofCall (humanOut minOut decOut)
  let payload ← assembleEVM homeClient {
    clientID := input.clientID, sender, recipient := router, data, value := some value
    summary := ⟨"build_swap", "swap " ++ input.amountIn ++ " " ++ tokenLabel tokenIn ++ " -> >=" ++
      minHuman ++ " " ++ tokenLabel tokenOut ++ " (" ++ slippagePercent slippage ++
      "% max slippage)"⟩ }
  let expected ← ofCall (humanOut expectedOut decOut)
  return {
    payload
    expectedOut := expected
    minOut := minHuman
    minOutBase := String.ofList (Decimal.print minOut)
    slippageBps := slippage }

end SvpMcp
