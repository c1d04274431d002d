import SvpMcp.Model.Broadcast

/-!
# What the operations do and what the handlers call

For each store, the operations that change it; for each part of the broadcast handlers, the
operations it can call.
-/

namespace SvpMcp

open Program

section Operations

variable (deps : Deps) (w : World) (env : Env)

/-- No operation changes the handshake's stores. -/
theorem perform_auth (op : ServerOp) : ((server deps).perform w env op).2.auth = w.auth := by
  cases op <;> rfl

/-- The operations that change the transfer-out store. -/
theorem perform_transferOut (op : ServerOp) :
    ((server deps).perform w env op).2.transferOut = match op with
      | .checkTransferOut owner symbol amount =>
        (w.transferOut.check w.disk env.now owner symbol (some amount)).2.1
      | .recordTransferOut owner symbol amount =>
        (w.transferOut.record w.disk env.now owner symbol (some amount)).1
      | _ => w.transferOut := by
  cases op <;> rfl

/-- The answer of a transfer-out check. -/
theorem perform_checkTransferOut_fst (owner symbol : String) (amount : Int) :
    ((server deps).perform w env (.checkTransferOut owner symbol amount)).1 =
      (w.transferOut.check w.disk env.now owner symbol (some amount)).1 :=
  rfl

/-- The operations that change the withdraw ledger. -/
theorem perform_ledger (op : ServerOp) :
    ((server deps).perform w env op).2.ledger = match op with
      | .enforce tenantID tool q => (enforce deps.limits w.ledger env.now tenantID tool q).2
      | .recordWithdraw tenantID q => w.ledger.map fun l => l.record env.now tenantID q
      | _ => w.ledger := by
  cases op <;> rfl

/-- The answer of `Enforce`. -/
theorem perform_enforce_fst (tenantID : String) (tool : Tool) (q : UInt64) :
    ((server deps).perform w env (.enforce tenantID tool q)).1 =
      (enforce deps.limits w.ledger env.now tenantID tool q).1 :=
  rfl

end Operations

/-- The EVM account of an owner: the bytes its address encodes. -/
def AccountOf (codec : TxCodec) (owner : String) (account : Address) : Prop :=
  ∃ acc, codec.accAddressFromBech32 owner = .ok acc ∧ account = .ofBytes acc

/-- The account of an owner. -/
theorem ownerEthAddress_eq_ok {codec : TxCodec} {owner : String} {account : Address} :
    ownerEthAddress codec owner = .ok account ↔ AccountOf codec owner account := by
  unfold ownerEthAddress AccountOf
  cases codec.accAddressFromBech32 owner with
  | error text => simp
  | ok acc => simp [eq_comm]

variable (deps : Deps)

/-- What is known of the tenant a tool acts for. -/
def ActsFor (w : World) (ctx : Context) (tp : TenantPolicy) : Prop :=
  ∃ tc now, ctx = some tc ∧ engineTenant deps.perTenant w.auth.tenants now tc.tenantID = .ok tp

/-- A tenant that is found at two times is the same. -/
theorem engineTenant_unique {perTenant : Table String TenantPolicy} {dynamic : DynamicTenantStore}
    {now soon : Calendar.Time} {tenantID : String} {tp tp' : TenantPolicy}
    (found : engineTenant perTenant dynamic now tenantID = .ok tp)
    (found' : engineTenant perTenant dynamic soon tenantID = .ok tp') : tp = tp' := by
  unfold engineTenant at found found'
  cases isStatic : perTenant.get tenantID with
  | some known =>
    rw [isStatic] at found found'
    exact Except.ok.inj (found.symm.trans found')
  | none =>
    rw [isStatic] at found found'
    cases minted : dynamic.byTenant.get tenantID with
    | none =>
      simp only [lookupTenantPolicy, DynamicTenantStore.lookupByTenantID, minted] at found
      cases found
    | some record =>
      -- The record is the same; only its expiry is compared with the clock.
      simp only [lookupTenantPolicy, DynamicTenantStore.lookupByTenantID, minted] at found found'
      by_cases live : now < record.expiresAt
      · by_cases live' : soon < record.expiresAt
        · rw [if_pos live] at found
          rw [if_pos live'] at found'
          exact Except.ok.inj (found.symm.trans found')
        · rw [if_neg live'] at found'
          cases found'
      · rw [if_neg live] at found
        cases found

/-- What is known of a tenant is the same whenever it is looked up. -/
theorem actsFor_unique {deps : Deps} {w : World} {ctx : Context}
    {tp tp' : TenantPolicy} (acts : ActsFor deps w ctx tp)
    (acts' : ActsFor deps w ctx tp') : tp = tp' := by
  obtain ⟨tc, now, isContext, found⟩ := acts
  obtain ⟨tc', now', isContext', found'⟩ := acts'
  cases isContext.symm.trans isContext'
  exact engineTenant_unique found found'

namespace Handler

variable {α β : Type} {allowed : ServerOp → Prop}

/-- Every operation the handler can call satisfies a predicate. -/
abbrev Only (allowed : ServerOp → Prop) (h : Handler α) : Prop :=
  Program.Calls allowed (α := Except Fault α) h

variable {h : Handler α} {next : α → Handler β}

/-- The calls of a sequence: those of its first part, and of the rest for each result. -/
@[simp] theorem only_bind_iff : Only allowed (h >>= next) ↔ Only allowed h ∧
    ∀ value, Yields (α := Except Fault α) h (.ok value) → Only allowed (next value) :=
  calls_bindExcept

/-- A sequence whose rest is in order whatever the first part returns. -/
theorem only_bind (first : Only allowed h) (second : ∀ value, Only allowed (next value)) :
    Only allowed (h >>= next) :=
  only_bind_iff.mpr ⟨first, fun value _ => second value⟩

/-- Changing the result changes no call. -/
@[simp] theorem only_map_iff {f : α → β} : Only allowed (f <$> h) ↔ Only allowed h := by
  rw [← bind_pure_comp, only_bind_iff]
  exact and_iff_left fun _ _ => trivial

/-- Either branch may be taken. -/
@[simp] theorem only_ite_iff {c : Prop} [Decidable c] {h' : Handler α} :
    Only allowed (if c then h else h') ↔ (c → Only allowed h) ∧ (¬ c → Only allowed h') := by
  split <;> simp_all

/-- A single call. -/
@[simp] theorem only_call_iff {op : ServerOp} :
    Only (α := no_index (Reply op)) allowed (call op) ↔ allowed op :=
  and_iff_left fun _ => trivial

/-- A call that is allowed. -/
theorem only_call {op : ServerOp} (ok : allowed op) : Only allowed (call op) :=
  only_call_iff.mpr ok

/-- Returning calls nothing. -/
@[simp] theorem only_pure (value : α) : Only allowed (pure value : Handler α) :=
  trivial

/-- Failing calls nothing. -/
@[simp] theorem only_fail (e : Err) : Only allowed (fail e : Handler α) :=
  trivial

/-- A computation that can fail calls nothing. -/
@[simp] theorem only_ofResult (result : Except Err α) : Only allowed (ofResult result) := by
  cases result <;> exact trivial

/-- Library code calls nothing. -/
@[simp] theorem only_ofCall (result : Except Fault α) : Only allowed (ofCall result) := by
  cases result <;> exact trivial

/-- A check calls nothing. -/
@[simp] theorem only_require (condition : Bool) (e : Err) :
    Only allowed (require condition e) := by
  cases condition <;> exact trivial

end Handler

open Handler

variable {allowed : ServerOp → Prop}

/-- `checkTenant` looks the tenant up. -/
theorem checkTenant_only (tenants : ∀ id, allowed (.tenant id)) (tenantID : String) :
    Only allowed (checkTenant tenantID) := by
  simp [checkTenant, tenants]

/-- `authorize` looks the tenant up and asks the rate limiter. -/
theorem authorize_only (tenants : ∀ id, allowed (.tenant id))
    (rates : ∀ key, allowed (.rateAllow key)) (ctx : Context) (tool : String) :
    Only allowed (authorize ctx tool) := by
  cases ctx <;> simp [authorize, checkTenant_only tenants, tenants, rates]

/-- `claimClientID` reads the clock and claims. -/
theorem claimClientID_only (clock : allowed .now)
    (claims : ∀ tenantID clientID now, allowed (.claim tenantID clientID now))
    (tenantID clientID : String) : Only allowed (claimClientID tenantID clientID) := by
  unfold claimClientID
  split <;> simp [clock, claims]

variable (owner : String) (tp : TenantPolicy)

/-- Decoding a signed transaction calls nothing. -/
theorem decodeSignedTx_only (input : BroadcastSignedTxInput) :
    Only allowed (decodeSignedTx deps tp input) := by
  simp [decodeSignedTx]

/-- Decoding an EVM transaction calls nothing. -/
theorem decodeEVMTx_only (input : BroadcastEVMTxInput) :
    Only allowed (decodeEVMTx deps tp input) := by
  simp [decodeEVMTx]

/-- `enforceWithdraw` asks the ledger. -/
theorem enforceWithdraw_only (rawBytes : Bytes)
    (enforces : ∀ q, allowed (.enforce tp.tenantID .withdraw q)) :
    Only allowed (enforceWithdraw deps tp rawBytes) := by
  simp [enforceWithdraw, enforces]

/-- `checkAll` checks entries of the list. -/
theorem checkAll_only (entries : List (String × Int))
    (checks : ∀ sym amt, (sym, amt) ∈ entries → allowed (.checkTransferOut owner sym amt)) :
    Only allowed (checkAll owner entries) := by
  induction entries with
  | nil => exact only_pure _
  | cons entry rest ih => simp_all [checkAll]

/-- `recordAll` records entries of the list. -/
theorem recordAll_only (entries : List (String × Int))
    (records : ∀ sym amt, (sym, amt) ∈ entries → allowed (.recordTransferOut owner sym amt)) :
    Only allowed (recordAll owner entries) := by
  induction entries with
  | nil => exact only_pure _
  | cons entry rest ih => simp_all [recordAll]

/-- `checkTransferOut` chooses an order and checks. -/
theorem checkTransferOut_only (amounts : Table String Int)
    (orders : ∀ entries, allowed (.rangeMap entries))
    (checks : ∀ sym amt, allowed (.checkTransferOut owner sym amt)) :
    Only allowed (checkTransferOut owner amounts) := by
  simp [checkTransferOut, orders, checkAll_only owner _ fun sym amt _ => checks sym amt]

/-- `recordTransferOut` chooses an order and records the amounts. -/
theorem recordTransferOut_only (amounts : Table String Int)
    (orders : ∀ entries, allowed (.rangeMap entries))
    (records : ∀ sym amt, amounts.get sym = some amt → allowed (.recordTransferOut owner sym amt)) :
    Only allowed (recordTransferOut owner amounts) := by
  refine only_bind (only_call (orders _)) fun order => recordAll_only owner _ ?_
  intro sym amt member
  exact records sym amt ((amounts.mem_pairs_iff sym amt).mp (order.2.mem_iff.mp member))

/-- `enforceBankSends` chooses an order and checks. -/
theorem enforceBankSends_only (rawBytes : Bytes) (signerAddr : String)
    (orders : ∀ entries, allowed (.rangeMap entries))
    (checks : ∀ sym amt, allowed (.checkTransferOut tp.owner sym amt)) :
    Only allowed (enforceBankSends deps tp rawBytes signerAddr) := by
  simp [enforceBankSends, checkTransferOut_only _ _ orders checks]

/-- The operations both handlers call before they call the node. -/
structure AllowsChecks (allowed : ServerOp → Prop) : Prop where
  tenants : ∀ id, allowed (.tenant id)
  rates : ∀ key, allowed (.rateAllow key)
  clock : allowed .now
  claims : ∀ tenantID clientID now, allowed (.claim tenantID clientID now)
  orders : ∀ entries, allowed (.rangeMap entries)
  checks : ∀ owner sym amt, allowed (.checkTransferOut owner sym amt)

/-- The operations before the node is called with a signed transaction. -/
theorem checkSignedTx_only (allows : AllowsChecks allowed)
    (enforces : ∀ tenantID q, allowed (.enforce tenantID .withdraw q)) (deps : Deps)
    (ctx : Context) (input : BroadcastSignedTxInput) :
    Only allowed (checkSignedTx deps ctx input) := by
  simp [checkSignedTx, authorize_only allows.tenants allows.rates,
    claimClientID_only allows.clock allows.claims, decodeSignedTx_only,
    enforceWithdraw_only _ _ _ (enforces _),
    enforceBankSends_only _ _ _ _ allows.orders (allows.checks _)]

/-- The operations before an EVM transaction is sent. -/
theorem checkEVMTx_only (allows : AllowsChecks allowed) (deps : Deps)
    (ctx : Context) (input : BroadcastEVMTxInput) :
    Only allowed (checkEVMTx deps ctx input) := by
  simp [checkEVMTx, authorize_only allows.tenants allows.rates,
    claimClientID_only allows.clock allows.claims, decodeEVMTx_only,
    checkTransferOut_only _ _ allows.orders (allows.checks _)]

/-- `settleSignedTx` records what was broadcast. -/
theorem settleSignedTx_only (q : UInt64) (bankOut : Table String Int) (res : BroadcastResult)
    (withdraws : allowed (.recordWithdraw tp.tenantID q))
    (orders : ∀ entries, allowed (.rangeMap entries))
    (records : ∀ sym amt, bankOut.get sym = some amt →
      allowed (.recordTransferOut tp.owner sym amt)) :
    Only allowed (settleSignedTx tp q bankOut res) := by
  unfold settleSignedTx
  cases parseBroadcastError res <;>
    simp [withdraws, recordTransferOut_only _ _ orders records]

/-- `concludeSignedTx` audits and records. -/
theorem concludeSignedTx_only (clientID : String) (tx : CheckedTx)
    (res : Except String BroadcastResult) (audits : ∀ entry, allowed (.audit entry))
    (withdraws : allowed (.recordWithdraw tx.tp.tenantID tx.withdrawQ))
    (orders : ∀ entries, allowed (.rangeMap entries))
    (records : ∀ sym amt, tx.bankOut.get sym = some amt →
      allowed (.recordTransferOut tx.tp.owner sym amt)) :
    Only allowed (concludeSignedTx clientID tx res) := by
  simp [concludeSignedTx, audits, settleSignedTx_only _ _ _ _ withdraws orders records]

/-- `submitEVMTx` sends, audits and records. -/
theorem submitEVMTx_only {checked : CheckedEVMTx}
    (sends : ∀ foreign tx, allowed (.sendTransaction foreign tx))
    (audits : ∀ entry, allowed (.audit entry)) (orders : ∀ entries, allowed (.rangeMap entries))
    (records : ∀ sym amt, checked.transferOut.get sym = some amt →
      allowed (.recordTransferOut checked.tp.owner sym amt))
    (deps : Deps) (clientID : String) :
    Only allowed (submitEVMTx deps clientID checked) := by
  simp [submitEVMTx, sends, audits, recordTransferOut_only _ _ orders records]

/-- A codec under which every transaction has the same signer and the same messages. -/
def fixedCodec (signer : String) (msgs : List Msg) : TxCodec where
  unmarshalTxRaw _ := .ok ⟨[], [], []⟩
  unmarshalTxBody _ := .ok ⟨msgs.mapIdx fun i _ => ⟨"/msg", [UInt8.ofNat i]⟩⟩
  unmarshalAuthInfo _ := .ok ⟨[⟨some ⟨"/key", []⟩, none, 0⟩], none⟩
  unpackMsg any := .ok msgs[(any.value.headD 0).toNat]?
  unpackPubKey _ := .ok (some ⟨[]⟩)
  address _ := []
  accAddressString _ := signer
  accAddressFromBech32 _ := .ok []

/-- A server with one static tenant whose transactions all have the given messages. -/
def fixedDeps (limits : Config) (tenant : TenantPolicy) (msgs : List Msg) : Deps where
  codec := fixedCodec tenant.owner msgs
  evmCodec := ⟨fun _ => .error "", fun _ => .error "", fun _ => ""⟩
  limits := limits
  perTenant := Table.set ∅ tenant.tenantID tenant
  evmEnabled := false
  foreignChains := []
  uniswap := none

/-- A request of one tenant. -/
abbrev ownerContext : Context := some ⟨"tenant", "svp1owner"⟩

/-- A server that has just started, with a transfer-out store and a ledger. -/
def startWorld (transferOut : MemoryTransferOutStore) (ledger : MemoryLedger) : World where
  auth := ⟨⟨0, ∅⟩, ⟨0, [], ∅, ∅⟩, ⟨0, ∅⟩, ⟨0, 0, ∅⟩⟩
  idempotency := ⟨0, ∅⟩
  ledger := some ledger
  transferOut := transferOut
  disk := ⟨∅, true, true, true⟩
  lendora := .empty
  audit := []

/-- An environment in which every call succeeds and maps are visited as they are stored. -/
def acceptingEnv (now : Calendar.Time) : Env where
  now := now
  rateAllowed := true
  broadcast := .ok ⟨"", 0, ""⟩
  sent := .ok ""
  evm _ _ := .error "no EVM node"
  lendora _ := .error (.call "no EVM node")
  account := .ok ⟨0, 0⟩
  order entries := ⟨entries, .refl _⟩

end SvpMcp
