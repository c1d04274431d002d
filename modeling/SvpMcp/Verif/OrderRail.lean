import SvpMcp.Verif.ConcurrentCaps
import SvpMcp.Verif.OrderPayloads
import SvpMcp.Verif.OwnerReads

/-!
# Orders pass beside the caps

A tool acts for the owner on a subaccount the tenant may use. Its payload, signed and broadcast,
consults no cap, and any number of them leave the caps alone.
-/

namespace SvpMcp

open Calendar Handler Program

/-- The subaccount of a message of the order book. -/
def Msg.onBook : Msg → Option SubaccountId
  | .placeOrder order => some order.orderId.subaccountId
  | .cancelOrder m => some m.orderId.subaccountId
  | .batchCancel m => some m.subaccountId
  | _ => none

namespace OrderRequest

/-- The subaccount of a request. -/
def subaccountNum : OrderRequest → UInt32
  | placeLimit input => input.subaccountNum
  | placeMarket input => input.subaccountNum
  | placeConditional input => input.subaccountNum
  | cancel input => input.subaccountNum
  | batchCancel input => input.subaccountNum

/-- The request with another owner. -/
def forOwner (owner : String) : OrderRequest → OrderRequest
  | placeLimit input => placeLimit { input with owner }
  | placeMarket input => placeMarket { input with owner }
  | placeConditional input => placeConditional { input with owner }
  | cancel input => cancel { input with owner }
  | batchCancel input => batchCancel { input with owner }

/-- Its tool. -/
def handler (b : BuilderDeps) (setString : String → Option ℚ) (cache : MarketCache)
    (ctx : Context) : OrderRequest → Handler TxPayload
  | placeLimit input => Tools.buildPlaceLimitOrder b setString cache ctx input
  | placeMarket input => Tools.buildPlaceMarketOrder b setString cache ctx input
  | placeConditional input => Tools.buildPlaceConditionalOrder b setString cache ctx input
  | cancel input => Tools.buildCancelOrder b ctx input
  | batchCancel input => Tools.buildBatchCancelOrders b ctx input

end OrderRequest

section Tools

variable {b : BuilderDeps} {setString : String → Option ℚ} {cache : MarketCache}
  {ctx : Context} {deps : Deps} {w w' : World} {account : AccountState} {now : Time}
  {events : Events} {msg : Msg} {p : TxPayload} {holds : Event World Env ServerOp Reply → Prop}

/-- The message of a builder is for the owner and the subaccount it was given. -/
theorem build_onBook {request : OrderRequest}
    (built : request.build b setString cache account now = .ok (msg, p)) :
    msg.onBook = some ⟨request.owner, request.subaccountNum⟩ := by
  cases request with
  | placeLimit input | placeMarket input | placeConditional input =>
    simp only [OrderRequest.build, buildPlaceLimitOrder, buildPlaceMarketOrder,
      buildPlaceConditionalOrder] at built
    split at built
    · cases built
    · repeat obtain ⟨_, _, built⟩ := bind_eq_ok.mp built
      cases built
      rfl
  | cancel input =>
    obtain ⟨_, _, built⟩ := bind_eq_ok.mp built
    rw [(validateAndAssemble_ok built).1]
    rfl
  | batchCancel input =>
    rw [(buildBatchCancelOrders_ok built).2.1]
    rfl

/-- On a running server the subaccount that is let through is one of the tenant's own. -/
theorem authorizeSubaccount_allows {tool : String} {sub : UInt32} {tp : TenantPolicy}
    (serving : Serving deps w)
    (run : Gives deps holds w (authorizeSubaccount ctx tool sub) w' tp) :
    sub ∈ tp.allowedSubaccounts := by
  obtain ⟨tc, _, _, isTenant⟩ := authorizeSubaccount_ok run
  simp [authorizeSubaccount, checkSubaccount] at run
  obtain ⟨authorized, env, _, policy, again, allowed⟩ := run
  -- The check looks the policy up under its own tenant id, which is the one it was found under.
  rw [authorize_gives authorized, serving_tenantID serving isTenant] at again
  rw [engineTenant_unique isTenant again]
  exact allowed

/-- A payload of an order tool carries a message for the owner of the tenant's policy, on the
subaccount of the request. -/
theorem handler_ok {request : OrderRequest} (serving : Serving deps w)
    (run : Alone deps w (request.handler b setString cache ctx) events w' (.ok p)) :
    ∃ tp msg any body, ActsFor deps w ctx tp ∧ request.subaccountNum ∈ tp.allowedSubaccounts ∧
      msg.onBook = some ⟨tp.owner, request.subaccountNum⟩ ∧
      Carries b.encoder p tp.owner msg any body := by
  obtain ⟨tool, isTool⟩ : ∃ tool, request.handler b setString cache ctx =
      Tools.buildOrder ctx tool request.subaccountNum fun owner =>
        (request.forOwner owner).build b setString cache := by
    cases request <;> exact ⟨_, rfl⟩
  rw [isTool] at run
  have run := alone_gives run
  simp [Tools.buildOrder] at run
  obtain ⟨_, tp, authorized, _, _, _, _, _, msg, built⟩ := run
  obtain ⟨_, clientID, summary, assembled⟩ := build_follows built
  obtain ⟨any, body, carries⟩ := assembleOne_carries assembled
  have isOwner : (request.forOwner tp.owner).owner = tp.owner := by cases request <;> rfl
  have isSub : (request.forOwner tp.owner).subaccountNum = request.subaccountNum := by
    cases request <;> rfl
  have onBook := build_onBook built
  rw [isOwner, isSub] at onBook
  rw [isOwner] at carries
  exact ⟨tp, msg, any, body, authorizeSubaccount_ok authorized,
    authorizeSubaccount_allows serving authorized, onBook, carries⟩

end Tools

/-- The inspection passes over a message of the order book. -/
theorem extract_onBook {codec : TxCodec} {raw : Bytes} {any : ProtoAny} {msg : Msg}
    {sub : SubaccountId} (decoded : decodeTxBody codec raw = .ok ⟨[any]⟩)
    (unpacked : codec.unpackMsg any = .ok (some msg)) (onBook : msg.onBook = some sub) :
    extractWithdrawQuantums codec raw = .ok 0 ∧
      ∀ signer, extractBankSends codec raw signer = .ok ∅ := by
  have noWithdraw : addWithdraw codec 0 any = .ok 0 := by
    rw [addWithdraw, unpacked]
    cases msg <;> first | rfl | cases onBook
  have noSend : ∀ signer, addBankSend codec signer ∅ any = .ok ∅ := by
    intro signer
    rw [addBankSend, unpacked]
    cases msg <;> first | rfl | cases onBook
  constructor
  · rw [extractWithdrawQuantums, decoded]
    change ([any].foldlM (addWithdraw codec) 0) = _
    rw [List.foldlM_cons, noWithdraw]
    rfl
  · intro signer
    rw [extractBankSends, decoded]
    change ([any].foldlM (addBankSend codec signer) ∅) = _
    rw [List.foldlM_cons, noSend]
    rfl

/-- A broadcast in which the inspection finds nothing calls no operation on the caps. -/
theorem broadcast_uncapped {deps : Deps} {input : BroadcastSignedTxInput} {raw : Bytes}
    (decoded : Base64.decode input.txRawBytesB64.toList = some raw)
    (noWithdraw : extractWithdrawQuantums deps.codec raw = .ok 0)
    (noSend : ∀ signer, extractBankSends deps.codec raw signer = .ok ∅)
    (ctx : Context) :
    Only (fun op => ¬ op.Capped) ((BroadcastRequest.signedTx ctx input).handler deps) := by
  have settles : ∀ tp res, Only (fun op => ¬ op.Capped) (settleSignedTx tp 0 ∅ res) := by
    intro tp res
    unfold settleSignedTx
    split
    · cases parseBroadcastError res <;> exact trivial
    · exact only_bind (recordTransferOut_only _ _ (fun _ => id) fun _ _ found => nomatch found)
        fun _ => only_pure _
  have checks : ∀ owner, Only (fun op => ¬ op.Capped) (checkTransferOut owner ∅) := by
    intro owner
    apply only_bind (only_call id)
    intro order
    exact checkAll_only owner _ fun sym amt member => nomatch order.2.mem_iff.mp member
  refine only_bind ?_ fun _ => only_pure _
  unfold broadcastSignedTx checkSignedTx decodeSignedTx
  simp only [decoded, bind_assoc]
  apply only_bind (authorize_only (fun _ => id) (fun _ => id) _ _)
  intro tp
  apply only_bind (claimClientID_only id (fun _ _ _ => id) _ _)
  intro _
  change Only _ (ofCall _ >>= _)
  apply only_bind (only_ofCall _)
  intro signer
  apply only_bind (only_require _ _)
  intro _
  have enforced : enforceWithdraw deps tp raw = pure 0 := by
    rw [enforceWithdraw, noWithdraw]
    rfl
  have inspected : enforceBankSends deps tp raw signer =
      checkTransferOut tp.owner ∅ >>= fun _ => pure ∅ := by
    rw [enforceBankSends, noSend]
    rfl
  simp only [pure_bind, enforced, inspected, bind_assoc]
  apply only_bind (checks _)
  intro _
  apply only_bind (only_call id)
  intro res
  apply only_bind (only_call id)
  intro _
  apply only_bind (only_ofResult _)
  intro res
  exact settles tp res

/-- The ledger, and the transfer-out store with its file. -/
def World.caps (w : World) : Option MemoryLedger × MemoryTransferOutStore × Disk :=
  (w.ledger, w.transferOut, w.disk)

/-- An operation that is not on the caps leaves them. -/
theorem uncapped_caps (deps : Deps) (w : World) (env : Env) (op : ServerOp)
    (uncapped : ¬ op.Capped) : (perform deps w env op).2.caps = w.caps := by
  cases op <;> first
    | rfl
    | exact absurd trivial uncapped

/-- On a running server, a payload that an order tool returns is for the owner of the tenant's
policy, on a subaccount that the policy allows. Signed with the owner's key it is a transaction of
that owner with one message, for that subaccount, and its broadcast consults no cap: none refuses
it, however much of them is used up. Any number of such broadcasts, in any interleaving, leave the
caps and their use alone. -/
theorem orders_pass_beside_caps (deps : Deps) (b : BuilderDeps)
    (lossless : Lossless deps.codec b.encoder) (setString : String → Option ℚ)
    (cache : MarketCache) (ctx : Context) (priv : PrivKey) (w w' : World)
    (serving : Serving deps w) (events : Events)
    (request : OrderRequest) (p : TxPayload)
    (run : Alone deps w (request.handler b setString cache ctx) events w' (.ok p))
    (signed : SignedTx) (isSigned : sign deps.codec b.encoder priv p = .ok signed)
    (ownerKey : deps.codec.accAddressString (deps.codec.address priv.pubKey) = p.signerAddress) :
    (∃ tp raw any msg, ActsFor deps w ctx tp ∧ request.subaccountNum ∈ tp.allowedSubaccounts ∧
      Base64.decode signed.txRawBytesB64.toList = some raw ∧
      signerAddressFromTxRaw deps.codec raw = .ok tp.owner ∧
      decodeTxBody deps.codec raw = .ok ⟨[any]⟩ ∧ deps.codec.unpackMsg any = .ok (some msg) ∧
      msg.onBook = some ⟨tp.owner, request.subaccountNum⟩) ∧
    (∀ ctx' clientID, Only (fun op => ¬ op.Capped)
      ((BroadcastRequest.signedTx ctx' ⟨clientID, signed.txRawBytesB64⟩).handler deps)) ∧
    ∀ v requests schedule,
      (∀ r ∈ requests, Only (fun op => ¬ op.Capped) (BroadcastRequest.handler deps r)) →
      (serve deps v requests schedule).world.caps = v.caps := by
  obtain ⟨tp, msg, any, body, acts, allows, onBook, carries⟩ := handler_ok serving run
  obtain ⟨raw, decoded, txBody, unpacked, signer⟩ := signed_decodes lossless carries isSigned
  rw [ownerKey, carries.signer] at signer
  obtain ⟨noWithdraw, noSend⟩ := extract_onBook txBody unpacked onBook
  refine ⟨⟨tp, raw, any, msg, acts, allows, decoded, signer, txBody, unpacked, onBook⟩,
    fun ctx' clientID => broadcast_uncapped decoded noWithdraw noSend ctx', ?_⟩
  intro v requests schedule uncapped
  refine Pool.run_unchanged (uncapped_caps deps) ?_ schedule
  intro th member
  obtain ⟨_, inside, rfl⟩ := List.mem_map.mp member
  obtain ⟨r, isRequest, rfl⟩ := List.mem_map.mp inside
  exact uncapped r isRequest

/-- The cancellation, built for a tenant and signed with the owner's key, is decoded as a message of
the owner and consults no cap. -/
theorem orders_pass_beside_caps_cancel : ∃ (signed : SignedTx) (raw : Bytes) (any : ProtoAny)
    (msg : Msg), Base64.decode signed.txRawBytesB64.toList = some raw ∧
    signerAddressFromTxRaw cancelCodec raw = .ok "svp1owner" ∧
    decodeTxBody cancelCodec raw = .ok ⟨[any]⟩ ∧ cancelCodec.unpackMsg any = .ok (some msg) ∧
    msg.onBook = some ⟨"svp1owner", 0⟩ ∧ ∀ ctx clientID,
      Only (fun op => ¬ op.Capped) ((BroadcastRequest.signedTx ctx
        ⟨clientID, signed.txRawBytesB64⟩).handler { railDeps with codec := cancelCodec }) := by
  have run := alone_runAlone { railDeps with codec := cancelCodec } (fun _ => acceptingEnv 0) 0
    railWorld (cancelRequest.handler cancelBuilder (fun _ => none) .new
      ownerContext)
  have serving : Serving { railDeps with codec := cancelCodec } railWorld :=
    ⟨⟨[⟨"tenant", "svp1owner", [0], false⟩], rfl⟩,
      ⟨⟨"", fun _ _ => .error ""⟩, railWorld.auth, [], ⟨rfl, rfl, rfl, rfl⟩, .start⟩⟩
  obtain ⟨⟨tp, raw, any, msg, acts, _, decoded, signer, body, unpacked, onBook⟩, uncapped, _⟩ :=
    orders_pass_beside_caps _ cancelBuilder cancel_lossless _ _ _ railKey _ _ serving _
      cancelRequest _ run _ rfl rfl
  have isTenant : ActsFor { railDeps with codec := cancelCodec } railWorld
      ownerContext ⟨"tenant", "svp1owner", [0], false⟩ :=
    ⟨_, 0, rfl, by decide +kernel⟩
  rw [actsFor_unique acts isTenant] at signer onBook
  exact ⟨_, raw, any, msg, decoded, signer, body, unpacked, onBook, uncapped⟩

end SvpMcp
