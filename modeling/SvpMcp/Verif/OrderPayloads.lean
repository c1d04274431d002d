import SvpMcp.Model.Orders
import SvpMcp.Verif.Signing

/-!
# How order and cancel payloads are classified

For each of the five builders the flags and the good-til field agree, so a payload is short-term,
free of fees and stands until a block all at once, or none of it.
-/

namespace SvpMcp

open Calendar

/-- The good-til field of a message of the order book. -/
def Msg.goodTil : Msg → Option GoodTil
  | .placeOrder order => order.goodTilOneof
  | .cancelOrder m => m.goodTilOneof
  | .batchCancel m => some (.block m.goodTilBlock)
  | _ => none

/-- A message whose order flags are those of a short-term order, or a batch cancellation. -/
def Msg.ShortTerm : Msg → Prop
  | .placeOrder order => order.orderId.orderFlags = 0
  | .cancelOrder m => m.orderId.orderFlags = 0
  | .batchCancel _ => True
  | _ => False

/-- A message stands until a block. -/
def Msg.StandsUntilBlock (msg : Msg) : Prop := ∃ height, msg.goodTil = some (.block height)

/-- A message stands until a time. -/
def Msg.StandsUntilTime (msg : Msg) : Prop := ∃ seconds, msg.goodTil = some (.blockTime seconds)

/-- The check decides what is short-term. -/
theorem isShortTermClobMsgs_iff (msg : Msg) : isShortTermClobMsgs [msg] = true ↔ msg.ShortTerm := by
  cases msg <;> simp [isShortTermClobMsgs, Msg.ShortTerm, OrderId.isShortTermOrder]

/-- A request to one of the builders. -/
inductive OrderRequest where
  | placeLimit (input : PlaceLimitOrderInput)
  | placeMarket (input : PlaceMarketOrderInput)
  | placeConditional (input : PlaceConditionalOrderInput)
  | cancel (input : CancelOrderInput)
  | batchCancel (input : BatchCancelOrdersInput)

namespace OrderRequest

/-- The builder of a request. -/
def build (b : BuilderDeps) (setString : String → Option ℚ) (cache : MarketCache)
    (account : AccountState) (now : Time) : OrderRequest → Except Err (Msg × TxPayload)
  | placeLimit input => buildPlaceLimitOrder b setString cache input account now
  | placeMarket input => buildPlaceMarketOrder b setString cache input account now
  | placeConditional input => buildPlaceConditionalOrder b setString cache input account now
  | cancel input => buildCancelOrder b input account now
  | batchCancel input => buildBatchCancelOrders b input account now

/-- The block that is supplied; zero when there is none. -/
def goodTilBlock : OrderRequest → UInt32
  | placeLimit input => input.goodTilBlock
  | placeMarket input => input.goodTilBlock
  | placeConditional _ => 0
  | cancel input => input.goodTilBlock
  | batchCancel input => input.goodTilBlock

/-- The time that is supplied; zero when there is none. -/
def goodTilBlockTime : OrderRequest → UInt32
  | placeConditional input => input.goodTilBlockTime
  | cancel input => input.goodTilBlockTime
  | _ => 0

/-- Who must sign. -/
def owner : OrderRequest → String
  | placeLimit input => input.owner
  | placeMarket input => input.owner
  | placeConditional input => input.owner
  | cancel input => input.owner
  | batchCancel input => input.owner

end OrderRequest

/-- The message agrees with the request: exactly one good-til value is supplied, the message has it,
and the flags are those of a short-term order exactly when it is a block. -/
structure Msg.Follows (msg : Msg) (request : OrderRequest) : Prop where
  short : msg.ShortTerm → request.goodTilBlock ≠ 0 ∧ request.goodTilBlockTime = 0 ∧
    msg.goodTil = some (.block request.goodTilBlock)
  stateful : ¬ msg.ShortTerm → request.goodTilBlock = 0 ∧ request.goodTilBlockTime ≠ 0 ∧
    msg.goodTil = some (.blockTime request.goodTilBlockTime)

/-- A message that places an order with some flags and a good-til value. -/
def Msg.Places (msg : Msg) (flags : UInt32) (goodTil : GoodTil) : Prop :=
  ∃ order, msg = .placeOrder order ∧ order.orderId.orderFlags = flags ∧
    order.goodTilOneof = some goodTil

section Builders

variable {b : BuilderDeps} {setString : String → Option ℚ} {cache : MarketCache}
  {account : AccountState} {now : Time} {msg : Msg} {payload : TxPayload}

/-- A payload that was assembled from one message. -/
def BuilderDeps.Assembles (b : BuilderDeps) (account : AccountState) (now : Time) (owner : String)
    (msg : Msg) (payload : TxPayload) : Prop :=
  ∃ clientID summary, b.assembleOne msg owner clientID summary account now = .ok payload

/-- A payload is assembled for the message. -/
theorem validateAndAssemble_ok {format owner clientID : String} {sent : Msg} {summary : Summary}
    (built : b.validateAndAssemble format sent owner clientID summary account now =
      .ok (msg, payload)) : msg = sent ∧ b.Assembles account now owner msg payload := by
  simp [BuilderDeps.validateAndAssemble] at built
  obtain ⟨_, isAssembled, rfl⟩ := built
  exact ⟨rfl, clientID, summary, isAssembled⟩

/-- A limit order stands until a block. -/
theorem buildPlaceLimitOrder_ok {input : PlaceLimitOrderInput}
    (built : buildPlaceLimitOrder b setString cache input account now = .ok (msg, payload)) :
    input.goodTilBlock ≠ 0 ∧ msg.Places 0 (.block input.goodTilBlock) ∧
      b.Assembles account now input.owner msg payload := by
  unfold buildPlaceLimitOrder at built
  split at built
  · cases built
  · simp at built
    obtain ⟨_, _, _, _, _, _, _, _, passed, built⟩ := built
    obtain ⟨isMsg, assembles⟩ := validateAndAssemble_ok built
    exact ⟨passed, ⟨_, isMsg, rfl, rfl⟩, assembles⟩

/-- So does a market order. -/
theorem buildPlaceMarketOrder_ok {input : PlaceMarketOrderInput}
    (built : buildPlaceMarketOrder b setString cache input account now = .ok (msg, payload)) :
    input.goodTilBlock ≠ 0 ∧ msg.Places 0 (.block input.goodTilBlock) ∧
      b.Assembles account now input.owner msg payload := by
  unfold buildPlaceMarketOrder at built
  split at built
  · cases built
  · simp at built
    obtain ⟨_, _, _, _, _, _, _, passed, built⟩ := built
    obtain ⟨isMsg, assembles⟩ := validateAndAssemble_ok built
    exact ⟨passed, ⟨_, isMsg, rfl, rfl⟩, assembles⟩

/-- A conditional order stands until a time. -/
theorem buildPlaceConditionalOrder_ok {input : PlaceConditionalOrderInput}
    (built : buildPlaceConditionalOrder b setString cache input account now = .ok (msg, payload)) :
    input.goodTilBlockTime ≠ 0 ∧ msg.Places 32 (.blockTime input.goodTilBlockTime) ∧
      b.Assembles account now input.owner msg payload := by
  unfold buildPlaceConditionalOrder at built
  split at built
  · cases built
  · simp at built
    obtain ⟨_, _, _, _, _, _, _, _, _, _, _, _, passed, built⟩ := built
    obtain ⟨isMsg, assembles⟩ := validateAndAssemble_ok built
    exact ⟨passed, ⟨_, isMsg, rfl, rfl⟩, assembles⟩

/-- Flags that pass the check agree with what is supplied. -/
theorem validateCancelFlags_ok {flags goodTilBlock goodTilTime : UInt32}
    (passed : validateCancelFlags flags goodTilBlock goodTilTime = .ok ()) :
    (flags = 0 → goodTilBlock ≠ 0 ∧ goodTilTime = 0) ∧
      (flags ≠ 0 → goodTilBlock = 0 ∧ goodTilTime ≠ 0) := by
  unfold validateCancelFlags at passed
  by_cases short : flags = orderIdFlagsShortTerm
  · rw [if_pos short] at passed
    simp at passed
    exact ⟨fun _ => passed, fun stateful => absurd short stateful⟩
  · rw [if_neg short] at passed
    by_cases known : flags = orderIdFlagsConditional ∨ flags = orderIdFlagsLongTerm
    · rw [if_pos known] at passed
      simp at passed
      exact ⟨fun isShort => absurd isShort short, fun _ => passed.symm⟩
    · rw [if_neg known] at passed
      cases passed

/-- A cancel names the order of the request. -/
theorem buildCancelOrder_ok {input : CancelOrderInput}
    (built : buildCancelOrder b input account now = .ok (msg, payload)) :
    validateCancelFlags input.orderFlags input.goodTilBlock input.goodTilBlockTime = .ok () ∧
      (∃ m, msg = .cancelOrder m ∧ m.orderId.orderFlags = input.orderFlags ∧
        m.goodTilOneof = some (if 0 < input.goodTilBlock then .block input.goodTilBlock
          else .blockTime input.goodTilBlockTime)) ∧
      b.Assembles account now input.owner msg payload := by
  simp [buildCancelOrder] at built
  obtain ⟨⟨_, passed⟩, built⟩ := built
  obtain ⟨isMsg, assembles⟩ := validateAndAssemble_ok built
  exact ⟨passed, ⟨_, isMsg, rfl, rfl⟩, assembles⟩

/-- The loop keeps the batches in order. -/
theorem addBatches_ok {i total total' : Nat} {batches : List OrderBatchInput}
    {orderBatches orderBatches' : List OrderBatch}
    (added : addBatches i batches orderBatches total = .ok (orderBatches', total')) :
    orderBatches' =
      orderBatches ++ batches.map fun batch => ⟨batch.clobPairID, batch.clientIDs⟩ := by
  induction batches generalizing i orderBatches total with
  | nil =>
    cases added
    exact (List.append_nil _).symm
  | cons batch rest ih =>
    unfold addBatches at added
    split at added
    · cases added
    · rw [ih added, List.append_assoc]
      rfl

/-- A batch cancel names its orders. -/
theorem buildBatchCancelOrders_ok {input : BatchCancelOrdersInput}
    (built : buildBatchCancelOrders b input account now = .ok (msg, payload)) :
    input.goodTilBlock ≠ 0 ∧
      msg = .batchCancel ⟨⟨input.owner, input.subaccountNum⟩,
        input.batches.map fun batch => ⟨batch.clobPairID, batch.clientIDs⟩,
        input.goodTilBlock⟩ ∧
      b.Assembles account now input.owner msg payload := by
  simp [buildBatchCancelOrders] at built
  obtain ⟨_, passed, orderBatches, totalIDs, added, built⟩ := built
  obtain ⟨isMsg, assembles⟩ := validateAndAssemble_ok built
  rw [addBatches_ok added, List.nil_append] at isMsg
  exact ⟨passed, isMsg, assembles⟩

/-- A block is no time. -/
theorem block_not_time {height : UInt32} (isBlock : msg.goodTil = some (.block height)) :
    ¬ msg.StandsUntilTime := by
  intro untilTime
  obtain ⟨seconds, isTime⟩ := untilTime
  cases isBlock.symm.trans isTime

/-- A time is no block. -/
theorem time_not_block {seconds : UInt32} (isTime : msg.goodTil = some (.blockTime seconds)) :
    ¬ msg.StandsUntilBlock := by
  intro untilBlock
  obtain ⟨height, isBlock⟩ := untilBlock
  cases isBlock.symm.trans isTime

/-- The message of every builder follows its request. -/
theorem build_follows {request : OrderRequest}
    (built : request.build b setString cache account now = .ok (msg, payload)) :
    msg.Follows request ∧ b.Assembles account now request.owner msg payload := by
  cases request with
  | placeLimit input =>
    obtain ⟨hasBlock, ⟨order, rfl, flags, goodTil⟩, assembles⟩ := buildPlaceLimitOrder_ok built
    exact ⟨⟨fun _ => ⟨hasBlock, rfl, goodTil⟩, fun stateful => absurd flags stateful⟩, assembles⟩
  | placeMarket input =>
    obtain ⟨hasBlock, ⟨order, rfl, flags, goodTil⟩, assembles⟩ := buildPlaceMarketOrder_ok built
    exact ⟨⟨fun _ => ⟨hasBlock, rfl, goodTil⟩, fun stateful => absurd flags stateful⟩, assembles⟩
  | placeConditional input =>
    obtain ⟨hasTime, ⟨order, rfl, flags, goodTil⟩, assembles⟩ :=
      buildPlaceConditionalOrder_ok built
    refine ⟨⟨fun short => ?_, fun _ => ⟨rfl, hasTime, goodTil⟩⟩, assembles⟩
    exact absurd (flags.symm.trans short) (by decide)
  | cancel input =>
    obtain ⟨passed, ⟨m, rfl, flags, goodTil⟩, assembles⟩ := buildCancelOrder_ok built
    obtain ⟨short, stateful⟩ := validateCancelFlags_ok passed
    refine ⟨⟨fun isShort => ?_, fun isStateful => ?_⟩, assembles⟩
    · obtain ⟨hasBlock, noTime⟩ := short (flags.symm.trans isShort)
      rw [if_pos (UInt32.pos_iff_ne_zero.mpr hasBlock)] at goodTil
      exact ⟨hasBlock, noTime, goodTil⟩
    · obtain ⟨noBlock, hasTime⟩ := stateful fun isShort => isStateful (flags.trans isShort)
      rw [if_neg (by rw [noBlock]; decide)] at goodTil
      exact ⟨noBlock, hasTime, goodTil⟩
  | batchCancel input =>
    obtain ⟨hasBlock, rfl, assembles⟩ := buildBatchCancelOrders_ok built
    exact ⟨⟨fun _ => ⟨hasBlock, rfl, rfl⟩, fun stateful => absurd trivial stateful⟩, assembles⟩

/-- The classifier's answer decides the fee. -/
theorem assembles_stamps {owner : String} (assembles : b.Assembles account now owner msg payload) :
    payload.isShortTermCLOB = isShortTermClobMsgs [msg] ∧
      (payload.fee.amount = [] ↔ isShortTermClobMsgs [msg] = true) := by
  obtain ⟨clientID, summary, assembled⟩ := assembles
  obtain ⟨body, _, returned⟩ := bind_eq_ok.mp (mapError_eq_ok.mp assembled)
  cases returned
  refine ⟨rfl, ?_⟩
  cases isShortTermClobMsgs [msg] with
  | true => exact iff_of_true rfl rfl
  | false => exact iff_of_false (List.cons_ne_nil _ _) Bool.false_ne_true

end Builders

/-- A payload and its message are classified consistently. -/
structure Classified (codec : TxCodec) (request : OrderRequest) (msg : Msg) (payload : TxPayload) :
    Prop where
  /-- The payload's body decodes to the message alone. -/
  carried : ∃ body any, Base64.decode payload.txBodyBytesB64.toList = some body ∧
    codec.unmarshalTxBody body = .ok ⟨[any]⟩ ∧ codec.unpackMsg any = .ok (some msg)
  flags : payload.isShortTermCLOB = true ↔ msg.ShortTerm
  untilBlock : payload.isShortTermCLOB = true ↔ msg.StandsUntilBlock
  untilTime : payload.isShortTermCLOB = true ↔ ¬ msg.StandsUntilTime
  free : payload.isShortTermCLOB = true ↔ payload.fee.amount = []
  /-- Exactly one good-til value was supplied. -/
  oneSupplied : request.goodTilBlock ≠ 0 ↔ request.goodTilBlockTime = 0
  /-- The message has it. -/
  supplied : msg.goodTil = some (if request.goodTilBlock ≠ 0 then .block request.goodTilBlock
    else .blockTime request.goodTilBlockTime)
  /-- A batch cancellation lists what was supplied. -/
  batches : ∀ input, request = .batchCancel input →
    msg = .batchCancel ⟨⟨input.owner, input.subaccountNum⟩,
      input.batches.map fun batch => ⟨batch.clobPairID, batch.clientIDs⟩, input.goodTilBlock⟩

/-- Every payload a builder returns is classified consistently. -/
theorem order_payloads_classified {b : BuilderDeps} {setString : String → Option ℚ}
    {cache : MarketCache} {account : AccountState} {now : Time} {request : OrderRequest} {msg : Msg}
    {payload : TxPayload} {codec : TxCodec} (lossless : Lossless codec b.encoder)
    (built : request.build b setString cache account now = .ok (msg, payload)) :
    Classified codec request msg payload := by
  obtain ⟨follows, assembles⟩ := build_follows built
  obtain ⟨stamped, free⟩ := assembles_stamps assembles
  have flags : payload.isShortTermCLOB = true ↔ msg.ShortTerm := by
    rw [stamped]
    exact isShortTermClobMsgs_iff msg
  obtain ⟨clientID, summary, assembled⟩ := assembles
  obtain ⟨any, body, carries⟩ := assembleOne_carries assembled
  have decoded : Base64.decode payload.txBodyBytesB64.toList = some body := by
    rw [carries.text, String.toList_ofList, Base64.decode_encode]
  have batches : ∀ input, request = .batchCancel input →
      msg = .batchCancel ⟨⟨input.owner, input.subaccountNum⟩,
        input.batches.map fun batch => ⟨batch.clobPairID, batch.clientIDs⟩,
        input.goodTilBlock⟩ := by
    intro input isBatch
    rw [isBatch] at built
    exact (buildBatchCancelOrders_ok built).2.1
  have carried : ∃ body any, Base64.decode payload.txBodyBytesB64.toList = some body ∧
      codec.unmarshalTxBody body = .ok ⟨[any]⟩ ∧ codec.unpackMsg any = .ok (some msg) :=
    ⟨body, any, decoded, lossless.txBody _ _ carries.marshals, lossless.msg _ _ carries.encodes⟩
  by_cases short : msg.ShortTerm
  · obtain ⟨hasBlock, noTime, isBlock⟩ := follows.short short
    have isShort := flags.mpr short
    exact {
      carried, flags, batches
      untilBlock := iff_of_true isShort ⟨_, isBlock⟩
      untilTime := iff_of_true isShort (block_not_time isBlock)
      free := iff_of_true isShort (free.mpr (stamped ▸ isShort))
      oneSupplied := iff_of_true hasBlock noTime
      supplied := by rw [if_pos hasBlock, isBlock] }
  · obtain ⟨noBlock, hasTime, isTime⟩ := follows.stateful short
    have isStateful : ¬ payload.isShortTermCLOB = true := fun isShort => short (flags.mp isShort)
    exact {
      carried, flags, batches
      untilBlock := iff_of_false isStateful (time_not_block isTime)
      untilTime := iff_of_false isStateful (not_not_intro ⟨_, isTime⟩)
      free := iff_of_false isStateful fun isFree => isStateful (stamped ▸ free.mp isFree)
      oneSupplied := iff_of_false (not_not_intro noBlock) hasTime
      supplied := by rw [if_neg (not_not_intro noBlock), isTime] }

/-- Builders that know one batch cancellation and accept it. -/
def cancelBuilder : BuilderDeps where
  assembler := signingAssembler
  encoder := cancelEncoder
  sdk := ⟨fun _ => .ok (), fun _ => none, fun _ => .ok ()⟩

/-- A request to cancel the three orders. -/
def cancelRequest : OrderRequest :=
  .batchCancel ⟨"svp1owner", 0, [⟨3, [9, 1]⟩, ⟨0, [4]⟩], 7, "first"⟩

/-- The cancellation is built and classified. -/
theorem order_payloads_classified_cancel : ∃ msg payload,
    cancelRequest.build cancelBuilder (fun _ => none) .new ⟨0, 0⟩ 0 = .ok (msg, payload) ∧
      Classified cancelCodec cancelRequest msg payload := by
  obtain ⟨⟨msg, payload⟩, built⟩ := exists_of_isOk
    (show (cancelRequest.build cancelBuilder (fun _ => none) .new ⟨0, 0⟩ 0).isOk = true by
      decide +kernel)
  exact ⟨msg, payload, built, order_payloads_classified cancel_lossless built⟩

end SvpMcp
