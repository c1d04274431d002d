import SvpMcp.Model.Funds
import SvpMcp.Model.Units

/-!
# The order and cancel builders

`builder/orders.go` and `builder/cancels.go`, with the tools of `tools/trade.go` and
`tools/trade_v022.go`: a request becomes one message of the order book and its payload.
-/

namespace SvpMcp

open Calendar

/-- The flag of a short-term order. -/
def orderIdFlagsShortTerm : UInt32 := 0

/-- The flag of a conditional order. -/
def orderIdFlagsConditional : UInt32 := 32

/-- The flag of a long-term order. -/
def orderIdFlagsLongTerm : UInt32 := 64

/-- `%d` of a 32-bit number. -/
def showUint32 (n : UInt32) : String := String.ofList (Decimal.digits n.toNat)

/-- Read the side of an order. -/
def parseSide (s : String) : Except Err OrderSide :=
  if s = "BUY" then .ok .buy
  else if s = "SELL" then .ok .sell
  else .error (.errorf ⟨"invalid side %q (want BUY or SELL)", [s]⟩)

/-- Read the time in force. -/
def parseTimeInForce (s : String) : Except Err TimeInForce :=
  if s = "" ∨ s = "UNSPECIFIED" then .ok .unspecified
  else if s = "IOC" then .ok .ioc
  else if s = "POST_ONLY" then .ok .postOnly
  else .error (.errorf ⟨"invalid time_in_force %q", [s]⟩)

/-- Read the condition. -/
def parseConditionType (s : String) : Except Err ConditionType :=
  if s = "STOP_LOSS" then .ok .stopLoss
  else if s = "TAKE_PROFIT" then .ok .takeProfit
  else .error (.errorf ⟨"invalid condition_type %q (want STOP_LOSS or TAKE_PROFIT)", [s]⟩)

/-- How long an order stands, as text. -/
def describeGoodTil (block blockTime : UInt32) : String :=
  if 0 < block then "block:" ++ showUint32 block else "time:" ++ showUint32 blockTime

/-- `ValidateBasic` of a message, and its payload. -/
def BuilderDeps.validateAndAssemble (b : BuilderDeps) (format : String) (msg : Msg)
    (owner clientID : String) (summary : Summary) (account : AccountState) (now : Time) :
    Except Err (Msg × TxPayload) := do
  wrapExternal format (b.sdk.validateBasic msg)
  let txPayload ← b.assembleOne msg owner clientID summary account now
  return (msg, txPayload)

/-- The end of the three order builders. -/
def BuilderDeps.placeOrder (b : BuilderDeps) (order : Order) (clientID : String)
    (summary : Summary) (account : AccountState) (now : Time) : Except Err (Msg × TxPayload) :=
  b.validateAndAssemble "MsgPlaceOrder.ValidateBasic: %w" (.placeOrder order)
    order.orderId.subaccountId.owner clientID summary account now

section Orders

variable (b : BuilderDeps) (setString : String → Option ℚ) (cache : MarketCache)

/-- The arguments of a limit order. -/
structure PlaceLimitOrderInput where
  owner : String
  subaccountNum : UInt32
  ticker : String
  side : String
  humanSize : String
  humanPrice : String
  timeInForce : String
  reduceOnly : Bool
  goodTilBlock : UInt32
  orderClientID : UInt32
  payloadClientID : String
deriving DecidableEq, Repr

/-- The message of a limit order. -/
def buildPlaceLimitOrder (input : PlaceLimitOrderInput) (account : AccountState) (now : Time) :
    Except Err (Msg × TxPayload) :=
  match cache.resolveTicker input.ticker with
  | none =>
    .error (.errorf ⟨"unknown ticker %q (markets cache not populated?)", [input.ticker]⟩)
  | some market => do
    let quantums ← (sizeToQuantums setString input.humanSize market).mapError
      (.wrap "size: %w" [])
    let subticks ← (priceToSubticks setString input.humanPrice market).mapError
      (.wrap "price: %w" [])
    let side ← parseSide input.side
    let tif ← parseTimeInForce input.timeInForce
    refuseIf (input.goodTilBlock = 0) (.errorf
      ⟨"good_til_block is required for short-term orders", []⟩)
    b.placeOrder
      { orderId := ⟨⟨input.owner, input.subaccountNum⟩, input.orderClientID,
          orderIdFlagsShortTerm, market.clobPairID⟩
        side, quantums, subticks, timeInForce := tif, reduceOnly := input.reduceOnly
        goodTilOneof := some (.block input.goodTilBlock) }
      input.payloadClientID
      { toolName := "build_place_limit_order", msgTypeURL := "/dydxprotocol.clob.MsgPlaceOrder"
        subaccount := ⟨input.owner, input.subaccountNum⟩
        ticker := input.ticker, side := input.side, sizeHuman := input.humanSize
        priceHuman := input.humanPrice, goodTil := "block:" ++ showUint32 input.goodTilBlock
        reduceOnly := input.reduceOnly, orderClientID := input.orderClientID } account now

/-- The arguments of a market order. -/
structure PlaceMarketOrderInput where
  owner : String
  subaccountNum : UInt32
  ticker : String
  side : String
  humanSize : String
  worstPrice : String
  oraclePrice : String
  slippageBps : UInt32
  reduceOnly : Bool
  goodTilBlock : UInt32
  orderClientID : UInt32
  payloadClientID : String
deriving DecidableEq, Repr

/-- The worst price of a market order and how the summary shows it. -/
def worstSubticks (input : PlaceMarketOrderInput) (market : MarketMeta) :
    Except Err (UInt64 × String) :=
  if input.worstPrice ≠ "" then do
    let subticks ← (priceToSubticks setString input.worstPrice market).mapError
      (.wrap "worst_price: %w" [])
    return (subticks, input.worstPrice)
  else if input.oraclePrice ≠ "" ∧ 0 < input.slippageBps then do
    let subticks ←
      (aggressiveSubticks setString input.side input.oraclePrice input.slippageBps market).mapError
        (.wrap "aggressive subticks: %w" [])
    return (subticks, "oracle=" ++ input.oraclePrice ++ " slip=" ++
      showUint32 input.slippageBps ++ "bps")
  else
    .error (.errorf
      ⟨"market order requires either worst_price or (oracle_price + slippage_bps)", []⟩)

/-- The message of a market order. -/
def buildPlaceMarketOrder (input : PlaceMarketOrderInput) (account : AccountState) (now : Time) :
    Except Err (Msg × TxPayload) :=
  match cache.resolveTicker input.ticker with
  | none =>
    .error (.errorf ⟨"unknown ticker %q (markets cache not populated?)", [input.ticker]⟩)
  | some market => do
    let quantums ← (sizeToQuantums setString input.humanSize market).mapError
      (.wrap "size: %w" [])
    let side ← parseSide input.side
    let (subticks, worstHuman) ← worstSubticks setString input market
    refuseIf (input.goodTilBlock = 0) (.errorf
      ⟨"good_til_block is required for short-term orders", []⟩)
    b.placeOrder
      { orderId := ⟨⟨input.owner, input.subaccountNum⟩, input.orderClientID,
          orderIdFlagsShortTerm, market.clobPairID⟩
        side, quantums, subticks, timeInForce := .ioc, reduceOnly := input.reduceOnly
        goodTilOneof := some (.block input.goodTilBlock) }
      input.payloadClientID
      { toolName := "build_place_market_order", msgTypeURL := "/dydxprotocol.clob.MsgPlaceOrder"
        subaccount := ⟨input.owner, input.subaccountNum⟩
        ticker := input.ticker, side := input.side, sizeHuman := input.humanSize
        priceHuman := worstHuman, goodTil := "block:" ++ showUint32 input.goodTilBlock
        reduceOnly := input.reduceOnly, orderClientID := input.orderClientID } account now

/-- The arguments of a conditional order. -/
structure PlaceConditionalOrderInput where
  owner : String
  subaccountNum : UInt32
  ticker : String
  side : String
  humanSize : String
  humanPrice : String
  conditionType : String
  triggerPrice : String
  timeInForce : String
  reduceOnly : Bool
  goodTilBlockTime : UInt32
  orderClientID : UInt32
  payloadClientID : String
deriving DecidableEq, Repr

/-- The message of a conditional order. -/
def buildPlaceConditionalOrder (input : PlaceConditionalOrderInput) (account : AccountState)
    (now : Time) : Except Err (Msg × TxPayload) :=
  match cache.resolveTicker input.ticker with
  | none => .error (.errorf ⟨"unknown ticker %q", [input.ticker]⟩)
  | some market => do
    let quantums ← (sizeToQuantums setString input.humanSize market).mapError
      (.wrap "size: %w" [])
    let subticks ← (priceToSubticks setString input.humanPrice market).mapError
      (.wrap "price: %w" [])
    let triggerSubticks ← (priceToSubticks setString input.triggerPrice market).mapError
      (.wrap "trigger_price: %w" [])
    let side ← parseSide input.side
    let tif ← parseTimeInForce input.timeInForce
    let cond ← parseConditionType input.conditionType
    refuseIf (input.goodTilBlockTime = 0) (.errorf
      ⟨"good_til_block_time is required for stateful (conditional) orders", []⟩)
    b.placeOrder
      { orderId := ⟨⟨input.owner, input.subaccountNum⟩, input.orderClientID,
          orderIdFlagsConditional, market.clobPairID⟩
        side, quantums, subticks, timeInForce := tif, reduceOnly := input.reduceOnly
        conditionType := cond, conditionalOrderTriggerSubticks := triggerSubticks
        goodTilOneof := some (.blockTime input.goodTilBlockTime) }
      input.payloadClientID
      { toolName := "build_place_conditional_order"
        msgTypeURL := "/dydxprotocol.clob.MsgPlaceOrder"
        subaccount := ⟨input.owner, input.subaccountNum⟩
        ticker := input.ticker, side := input.side, sizeHuman := input.humanSize
        priceHuman := input.humanPrice ++ " (" ++ input.conditionType ++ " @ trigger " ++
          input.triggerPrice ++ ")"
        goodTil := "time:" ++ showUint32 input.goodTilBlockTime
        reduceOnly := input.reduceOnly, orderClientID := input.orderClientID } account now

end Orders

/-- The arguments of a cancellation. -/
structure CancelOrderInput where
  owner : String
  subaccountNum : UInt32
  clobPairID : UInt32
  orderClientID : UInt32
  orderFlags : UInt32
  goodTilBlock : UInt32
  goodTilBlockTime : UInt32
  payloadClientID : String
deriving DecidableEq, Repr

/-- A cancellation carries the deadline of its order's kind. -/
def validateCancelFlags (flags goodTilBlock goodTilTime : UInt32) : Except Err Unit :=
  if flags = orderIdFlagsShortTerm then do
    refuseIf (goodTilBlock = 0) (.errorf
      ⟨"short-term cancel (order_flags=0) requires good_til_block", []⟩)
    refuseIf (goodTilTime ≠ 0) (.errorf
      ⟨"short-term cancel must not set good_til_block_time", []⟩)
  else if flags = orderIdFlagsConditional ∨ flags = orderIdFlagsLongTerm then do
    refuseIf (goodTilTime = 0) (.errorf
      ⟨"stateful cancel (order_flags=%d) requires good_til_block_time", [showUint32 flags]⟩)
    refuseIf (goodTilBlock ≠ 0) (.errorf ⟨"stateful cancel must not set good_til_block", []⟩)
  else
    .error (.errorf ⟨"invalid order_flags %d (want 0=ShortTerm, 32=Conditional, 64=LongTerm)",
      [showUint32 flags]⟩)

/-- The message of a cancellation. -/
def buildCancelOrder (b : BuilderDeps) (input : CancelOrderInput) (account : AccountState)
    (now : Time) : Except Err (Msg × TxPayload) := do
  validateCancelFlags input.orderFlags input.goodTilBlock input.goodTilBlockTime
  let goodTil : GoodTil :=
    if 0 < input.goodTilBlock then .block input.goodTilBlock
    else .blockTime input.goodTilBlockTime
  b.validateAndAssemble "MsgCancelOrder.ValidateBasic: %w"
    (.cancelOrder ⟨⟨⟨input.owner, input.subaccountNum⟩, input.orderClientID, input.orderFlags,
      input.clobPairID⟩, some goodTil⟩)
    input.owner input.payloadClientID
    { toolName := "build_cancel_order", msgTypeURL := "/dydxprotocol.clob.MsgCancelOrder"
      subaccount := ⟨input.owner, input.subaccountNum⟩
      orderClientID := input.orderClientID
      goodTil := describeGoodTil input.goodTilBlock input.goodTilBlockTime } account now

/-- The orders of one pair. -/
structure OrderBatchInput where
  clobPairID : UInt32
  clientIDs : List UInt32
deriving DecidableEq, Repr

/-- The arguments of a batch of cancellations. -/
structure BatchCancelOrdersInput where
  owner : String
  subaccountNum : UInt32
  batches : List OrderBatchInput
  goodTilBlock : UInt32
  payloadClientID : String
deriving DecidableEq, Repr

/-- The loop of `BuildBatchCancelOrders`, from a position on. -/
def addBatches : Nat → List OrderBatchInput → List OrderBatch → Nat →
    Except Err (List OrderBatch × Nat)
  | _, [], orderBatches, totalIDs => .ok (orderBatches, totalIDs)
  | i, batch :: rest, orderBatches, totalIDs =>
    if batch.clientIDs = [] then
      .error (.errorf ⟨"batches[%d] (clob_pair_id=%d) has no client_ids",
        [String.ofList (Decimal.digits i), showUint32 batch.clobPairID]⟩)
    else
      addBatches (i + 1) rest (orderBatches ++ [⟨batch.clobPairID, batch.clientIDs⟩])
        (totalIDs + batch.clientIDs.length)

/-- `BuildBatchCancelOrders`. The summary's order id is the number of orders, in 32 bits. -/
def buildBatchCancelOrders (b : BuilderDeps) (input : BatchCancelOrdersInput)
    (account : AccountState) (now : Time) : Except Err (Msg × TxPayload) := do
  refuseIf (input.batches = []) (.errorf
    ⟨"batch cancel requires at least one (clob_pair_id, client_ids) tuple", []⟩)
  refuseIf (input.goodTilBlock = 0) (.errorf
    ⟨"good_til_block is required (batch cancel is short-term only)", []⟩)
  let (orderBatches, totalIDs) ← addBatches 0 input.batches [] 0
  b.validateAndAssemble "MsgBatchCancel.ValidateBasic: %w"
    (.batchCancel ⟨⟨input.owner, input.subaccountNum⟩, orderBatches, input.goodTilBlock⟩)
    input.owner input.payloadClientID
    { toolName := "build_batch_cancel_orders", msgTypeURL := "/dydxprotocol.clob.MsgBatchCancel"
      subaccount := ⟨input.owner, input.subaccountNum⟩
      goodTil := "block:" ++ showUint32 input.goodTilBlock
      orderClientID := UInt32.ofNat totalIDs } account now

namespace Tools

open Handler

variable (b : BuilderDeps) (setString : String → Option ℚ) (cache : MarketCache)
  (ctx : Context)

/-- The order tools. The tenant must be allowed the subaccount, and the builder is given the owner
of the tenant's policy; a tool's arguments are its builder's without the owner. -/
def buildOrder (tool : String) (subaccountNumber : UInt32)
    (build : String → AccountState → Time → Except Err (Msg × TxPayload)) : Handler TxPayload := do
  let tp ← authorizeSubaccount ctx tool subaccountNumber
  let account ← accountState tp.owner
  let now ← call .now
  let (_, p) ← ofResult (build tp.owner account now)
  return p

/-- The tool `build_place_limit_order`. -/
def buildPlaceLimitOrder (input : PlaceLimitOrderInput) : Handler TxPayload :=
  buildOrder ctx "build_place_limit_order" input.subaccountNum fun owner =>
    SvpMcp.buildPlaceLimitOrder b setString cache { input with owner }

/-- The tool `build_place_market_order`. -/
def buildPlaceMarketOrder (input : PlaceMarketOrderInput) : Handler TxPayload :=
  buildOrder ctx "build_place_market_order" input.subaccountNum fun owner =>
    SvpMcp.buildPlaceMarketOrder b setString cache { input with owner }

/-- The tool `build_place_conditional_order`. -/
def buildPlaceConditionalOrder (input : PlaceConditionalOrderInput) : Handler TxPayload :=
  buildOrder ctx "build_place_conditional_order" input.subaccountNum fun owner =>
    SvpMcp.buildPlaceConditionalOrder b setString cache { input with owner }

/-- The tool `build_cancel_order`. -/
def buildCancelOrder (input : CancelOrderInput) : Handler TxPayload :=
  buildOrder ctx "build_cancel_order" input.subaccountNum fun owner =>
    SvpMcp.buildCancelOrder b { input with owner }

/-- The tool `build_batch_cancel_orders`. -/
def buildBatchCancelOrders (input : BatchCancelOrdersInput) : Handler TxPayload :=
  buildOrder ctx "build_batch_cancel_orders" input.subaccountNum fun owner =>
    SvpMcp.buildBatchCancelOrders b { input with owner }

end Tools

end SvpMcp
