import SvpMcp.Model.LendoraViews
import SvpMcp.Verif.Authentication
import SvpMcp.Verif.LendoraReads

/-!
# Reads stay on the tenant's own account

The tools check the address they are given and pass the empty one too. The Lendora views put the
owner in its place; the others stay on the owner exactly when it is not omitted.
-/

namespace SvpMcp

open Handler Program SvpMcp.System

variable {tool addr : String} {body : IndexerBody}

/-- `NewEngine` files every tenant under its id. -/
theorem newEngine_tenantID {tenants : List TenantPolicy} {id : String} {tp : TenantPolicy}
    (found : (newEngine tenants).get id = some tp) : tp.tenantID = id := by
  suffices keeps : ∀ table : Table String TenantPolicy,
      (∀ id tp, table.get id = some tp → tp.tenantID = id) → ∀ id tp,
      (tenants.foldl (fun table tp => table.set tp.tenantID tp) table).get id = some tp →
        tp.tenantID = id from
    keeps ∅ (fun _ _ impossible => nomatch impossible) id tp found
  -- The table so far is filed by id, and the next tenant is filed under its own.
  clear found id tp
  induction tenants with
  | nil => exact fun table filed => filed
  | cons next rest ih =>
    intro table filed
    refine ih (table.set next.tenantID next) ?_
    intro id tp found
    rw [Table.get_set] at found
    by_cases mine : id = next.tenantID
    · rw [if_pos mine] at found
      cases found
      exact mine.symm
    · rw [if_neg mine] at found
      exact filed id tp found

/-- Along every run of the handshake a minted tenant is filed under its id. -/
theorem trace_tenantID {deps : AuthDeps} {start s : AuthState} {events : List AuthEvent}
    (fresh : start.Fresh) (run : Trace (handshake deps) start events s) :
    ∀ id record, s.tenants.byTenant.get id = some record → record.tenantID = id := by
  induction run with
  | start =>
    intro id record found
    rw [fresh.tenants] at found
    cases found
  | @step events w run env op ih =>
    have effect : Effect deps w _ _ := performAuth_effect deps w env op
    intro id record found
    change ((performAuth deps w env op).2).tenants.byTenant.get id = some record at found
    cases effect with
    | issued i isIssue noLogin nonces tenants sessions =>
      rw [tenants] at found
      exact ih id record found
    | loggedIn l entry isLogin known signed nonces bearers tenants sessions =>
      rw [tenants, Table.get_set] at found
      by_cases mine : id = l.tenantID
      · rw [if_pos mine] at found
        cases found
        exact mine.symm
      · rw [if_neg mine] at found
        exact ih id record found
    | shrunk noLogin shrinks => exact ih id record (shrinks.tenants id record found)

/-- The tenants of a running server: the static ones are those `NewEngine` was given, the others
were minted by some run of the handshake. -/
structure Serving (deps : Deps) (w : World) : Prop where
  static : ∃ tenants, deps.perTenant = newEngine tenants
  minted : ∃ authDeps start events, AuthState.Fresh start ∧
    Trace (handshake authDeps) start events w.auth

variable {α : Type} {deps : Deps} {evm : EvmDeps} {w w' : World} {ctx : Context}
  {tp : TenantPolicy} {events : Events} {result : Except Fault α}
  {fetch : Handler α}

/-- The tenant found for an id has that id. -/
theorem serving_tenantID {now : Calendar.Time} {id : String} (serving : Serving deps w)
    (found : engineTenant deps.perTenant w.auth.tenants now id = .ok tp) : tp.tenantID = id := by
  obtain ⟨tenants, isStatic⟩ := serving.static
  obtain ⟨authDeps, start, history, fresh, run⟩ := serving.minted
  unfold engineTenant at found
  cases listed : deps.perTenant.get id with
  | some known =>
    rw [listed] at found
    cases found
    rw [isStatic] at listed
    exact newEngine_tenantID listed
  | none =>
    rw [listed] at found
    cases record : w.auth.tenants.byTenant.get id with
    | none =>
      simp only [lookupTenantPolicy, DynamicTenantStore.lookupByTenantID, record] at found
      cases found
    | some minted =>
      have filed : minted.tenantID = id := trace_tenantID fresh run id minted record
      simp only [lookupTenantPolicy, DynamicTenantStore.lookupByTenantID, record] at found
      by_cases live : now < minted.expiresAt
      · rw [if_pos live] at found
        cases found
        exact filed
      · rw [if_neg live] at found
        cases found

/-- A request to the indexer for an account: the subaccount's path names it, or a parameter
does. -/
def RequestsAccount (address path : String) (query : List (String × String)) : Prop :=
  (∃ number, path = Indexer.subaccountPath address number ∧ query = []) ∨
    query.lookup "address" = some address

/-- The selector of `balanceOf`. -/
def selBalanceOf : Bytes := [0x70, 0xa0, 0x82, 0x31]

/-- The selector of `balanceOf`. -/
theorem selector_balanceOf : Abi.selector "balanceOf(address)" = selBalanceOf := by
  decide +kernel

/-- A call of a contract for an owner: it has no argument, or it is read as the balance of the
owner's account. -/
def CallsFor (codec : TxCodec) (owner : String) (data : Bytes) : Prop :=
  data.length = 4 ∨ ∃ account, AccountOf codec owner account ∧ data.take 4 = selBalanceOf ∧
    Abi.addressAt data 0 = account

/-- The operations of a read that stays on an owner: what is asked of the indexer and of the
chain is about the owner, or about no account. -/
def AsksAbout (codec : TxCodec) (owner : String) : ServerOp → Prop
  | .tenant _ => True
  | .rateAllow _ => True
  | .lendoraCache => True
  | .indexerGet _ path query => RequestsAccount owner path query
  | .subaccount address _ => address = owner
  | .allBalances address => address = owner
  | .lendora query => ∀ account, query.account = some account → AccountOf codec owner account
  | .evm _ .blockNumber => True
  | .evm _ (.callContract _ data) => CallsFor codec owner data
  | _ => False

/-- The Lendora reads of the owner's address stay on the owner. -/
theorem asksAbout_lendora {codec : TxCodec} {owner : String} {account : Address}
    (isOwner : AccountOf codec owner account) :
    AllowsLendora (AsksAbout codec owner) account where
  plain query noAccount := by
    intro other isOther
    rw [noAccount] at isOther
    cases isOther
  own query isAccount := by
    intro other isOther
    cases isAccount.symm.trans isOther
    exact isOwner
  cache := trivial

section Only

variable {allowed : ServerOp → Prop}

/-- `checkOwner` looks the tenant up. -/
theorem checkOwner_only (tenants : ∀ id, allowed (.tenant id)) (tenantID requested : String) :
    Only allowed (checkOwner tenantID requested) := by
  simp [checkOwner, tenants]

/-- `checkSubaccount` looks the tenant up. -/
theorem checkSubaccount_only (tenants : ∀ id, allowed (.tenant id)) (tenantID : String)
    (number : UInt32) : Only allowed (checkSubaccount tenantID number) := by
  simp [checkSubaccount, tenants]

/-- `authorizeOwner` looks the tenant up and asks the rate limiter. -/
theorem authorizeOwner_only (tenants : ∀ id, allowed (.tenant id))
    (rates : ∀ key, allowed (.rateAllow key)) (ctx : Context) (tool addr : String) :
    Only allowed (authorizeOwner ctx tool addr) := by
  simp [authorizeOwner, authorize_only tenants rates, checkOwner_only tenants]

/-- The Lendora switch calls nothing. -/
theorem requireLendora_only (deps : Deps) (evm : EvmDeps) :
    Only allowed (requireLendora deps evm) := by
  simp [requireLendora, requireEVM]

/-- A read asks the indexer. -/
theorem indexerRead_only {path : String} {query : List (String × String)}
    (ok : allowed (.indexerGet body path query)) (method address : String) (number : UInt32) :
    Only allowed (indexerRead body path query method address number) := by
  simp [indexerRead, ok]

/-- A list that may be missing is fetched. -/
theorem orEmpty_only (empty : α) (only : Only allowed fetch) :
    Only allowed (orEmpty empty fetch) := by
  refine only_bind (attempt_only_iff.mpr only) fun result => ?_
  split
  · exact only_pure _
  · split <;> simp
  · exact trivial

/-- A balance is read from the token. -/
theorem erc20Balance_only {token account : Address}
    (ok : allowed (.evm homeClient (.callContract token (packBalanceOf account)))) :
    Only allowed (erc20Balance token account) := by
  simp [erc20Balance, evmRead, ok]

/-- A balance is read from the market. -/
theorem cTokenBalance_only {cToken account : Address}
    (ok : allowed (.evm homeClient (.callContract cToken (packBalanceOf account)))) :
    Only allowed (cTokenBalance cToken account) := by
  simp [cTokenBalance, ok]

end Only

section Confined

variable {codec : TxCodec} {owner : String} {account : Address}

/-- The parameters of a subaccount name its owner. -/
theorem requestsAccount_query (path : String) (number : UInt32) (rest : List (String × String)) :
    RequestsAccount owner path (subaccountQuery owner number rest) :=
  .inr rfl

/-- A page is asked for about the owner. -/
theorem getPage_asks (path key method : String) (number : UInt32) (rest : List (String × String)) :
    Only (AsksAbout codec owner) (Indexer.getPage path key method owner number rest) := by
  simp [Indexer.getPage, indexerRead, AsksAbout, requestsAccount_query]

/-- Entries are asked for about the owner. -/
theorem getEntries_asks (path key method : String) (number : UInt32) :
    Only (AsksAbout codec owner) (Indexer.getEntries path key method owner number) := by
  simp [Indexer.getEntries, indexerRead, AsksAbout, requestsAccount_query]

/-- The decimals are asked for about no account. -/
theorem erc20DecimalsOn_asks (token : Address) :
    Only (AsksAbout codec owner) (erc20DecimalsOn homeClient token) := by
  have asked : AsksAbout codec owner (.evm homeClient (.callContract token packERC20Decimals)) :=
    .inl (by decide +kernel)
  simp [erc20DecimalsOn, evmRead, asked]

/-- The balance of the owner's account may be asked for. -/
theorem asksAbout_balance (isOwner : AccountOf codec owner account) (token : Address) :
    AsksAbout codec owner (.evm homeClient (.callContract token (packBalanceOf account))) :=
  .inr ⟨account, isOwner, Abi.take_pack selector_balanceOf rfl,
    Abi.addressAt_pack selector_balanceOf rfl rfl⟩

/-- The loop asks for the balances of the owner's account. -/
theorem addERC20Balances_asks (isOwner : AccountOf codec owner account)
    (tokens : List (String × Address)) (out : List BalanceDTO) :
    Only (AsksAbout codec owner) (addERC20Balances account tokens out) := by
  induction tokens generalizing out with
  | nil => exact only_pure _
  | cons entry rest ih =>
    refine only_bind ?_ fun out => ih out
    unfold addERC20Balance
    split
    · exact only_pure _
    · refine only_bind ?_ fun balance => ?_
      · exact attempt_only_iff.mpr (erc20Balance_only (asksAbout_balance isOwner _))
      · split
        · exact only_pure _
        · exact only_pure _
        · refine only_bind (attempt_only_iff.mpr (erc20DecimalsOn_asks _)) fun decimals => ?_
          split <;> simp

/-- The token balances are those of the owner's account. -/
theorem erc20Balances_asks (deps : Deps) (owner : String) :
    Only (AsksAbout deps.codec owner) (erc20Balances deps owner) := by
  unfold erc20Balances
  split
  · exact only_pure _
  · split
    · exact only_pure _
    · rename_i account isOwner
      exact addERC20Balances_asks (ownerEthAddress_eq_ok.mp isOwner) _ _

/-- The loop asks for the balances of the owner's account. -/
theorem addWalletBalances_asks (isOwner : AccountOf codec owner account)
    (oracle : Address) (markets : List Market) (out : List WalletBalanceDTO) :
    Only (AsksAbout codec owner) (addWalletBalances oracle account markets out) := by
  have plain := (asksAbout_lendora isOwner).plain
  have rate (cToken : Address) : AsksAbout codec owner
      (.evm homeClient (.callContract cToken packExchangeRateStored)) := .inl (by decide +kernel)
  have supplied (cToken : Address) (cBal : Nat) :
      Only (AsksAbout codec owner) (suppliedUnderlying cToken cBal) := by
    unfold suppliedUnderlying
    split <;> simp [exchangeRateStored, evmRead, rate]
  have value (m : Market) (walletBal : Nat) :
      Only (AsksAbout codec owner) (walletValue oracle m walletBal) := by
    refine only_bind (attempt_only_iff.mpr (underlyingUsdPrice_only plain _ _)) fun price => ?_
    split <;> simp
  have balance := asksAbout_balance isOwner
  induction markets generalizing out with
  | nil => exact only_pure _
  | cons m rest ih =>
    refine only_bind ?_ fun out => ih out
    unfold addWalletBalance
    split
    · exact only_pure _
    · simp [erc20Balance_only (balance _), cTokenBalance_only (balance _), supplied, value]

/-- The gas balance is the owner's. -/
theorem nativeGasBalance_asks : Only (AsksAbout codec owner) (nativeGasBalance owner) := by
  have asked : AsksAbout codec owner (.allBalances owner) := rfl
  refine only_bind (only_call asked) fun (answer : Except String (List BankCoin)) => ?_
  dsimp only
  split <;> simp

end Confined

variable {holds : Event World Env ServerOp Reply → Prop}

/-- The check passes an address that is omitted or the tenant's own. -/
theorem checkOwner_owner {requested : String} {passed : Unit} (serving : Serving deps w)
    (acts : ActsFor deps w ctx tp)
    (run : Gives deps holds w (checkOwner tp.tenantID requested) w' passed) :
    requested = "" ∨ requested = tp.owner := by
  obtain ⟨tc, now, _, found⟩ := acts
  simp [checkOwner] at run
  obtain ⟨env, _, known, isKnown, _, isOwner⟩ := run
  rw [serving_tenantID serving found] at isKnown
  rw [engineTenant_unique found isKnown]
  exact isOwner

/-- A sequence calls what is allowed if the runs of its first part do and the rest does from
every value these return. -/
theorem alone_calls_bind {β : Type} {allowed : ServerOp → Prop} {h : Handler β}
    {next : β → Handler α}
    (first : ∀ events mid result, Alone deps w h events mid result → ∀ e ∈ events, allowed e.op)
    (second : ∀ events mid value, Alone deps w h events mid (.ok value) → Only allowed (next value))
    (run : Alone deps w (h >>= next) events w' result) : ∀ e ∈ events, allowed e.op := by
  rcases exec_bindExcept run with ⟨_, failed, _⟩ | ⟨before, mid, value, after, parts, done, rest⟩
  · exact first _ _ _ failed
  · intro e member
    rw [parts] at member
    rcases List.mem_append.mp member with early | late
    · exact first _ _ _ done e early
    · exact exec_calls (second before mid value done) rest e late

/-- A read behind `authorizeOwner` stays on the owner if what follows does, for an address that
is omitted or the owner's. -/
theorem authorizeOwner_confines {next : TenantPolicy → Handler α} (serving : Serving deps w)
    (acts : ActsFor deps w ctx tp)
    (rest : addr = "" ∨ addr = tp.owner → Only (AsksAbout deps.codec tp.owner) (next tp))
    (run : Alone deps w (authorizeOwner ctx tool addr >>= next) events w' result) :
    ∀ e ∈ events, AsksAbout deps.codec tp.owner e.op := by
  have checks : Only (AsksAbout deps.codec tp.owner) (authorizeOwner ctx tool addr) :=
    authorizeOwner_only (fun _ => trivial) (fun _ => trivial) ctx tool addr
  refine alone_calls_bind (fun _ _ _ => exec_calls checks) ?_ run
  intro before mid found passed
  have passed := alone_gives passed
  simp [authorizeOwner] at passed
  obtain ⟨_, authorized, _, checked⟩ := passed
  obtain rfl : tp = found := actsFor_unique acts (authorize_ok authorized)
  rw [authorize_gives authorized] at checked
  exact rest (checkOwner_owner serving acts checked)

/-- What `lendoraOwner` returns is the tenant's owner, whatever the address. -/
theorem lendoraOwner_owner {found : ViewOwner} (serving : Serving deps w)
    (acts : ActsFor deps w ctx tp)
    (run : Gives deps holds w (lendoraOwner deps ctx tool addr) w' found) :
    found.owner = tp.owner ∧ AccountOf deps.codec tp.owner found.eth := by
  obtain ⟨_, tp', authorized, run⟩ := completes_bind.mp run
  obtain rfl : tp = tp' := actsFor_unique acts (authorize_ok authorized)
  rw [authorize_gives authorized] at run
  dsimp only at run
  split at run
  · simp at run
    obtain ⟨account, ⟨_, parsed⟩, rfl⟩ := run
    exact ⟨rfl, ownerEthAddress_eq_ok.mp parsed⟩
  · next named =>
    obtain ⟨_, _, checked, run⟩ := completes_bind.mp run
    simp at run
    obtain ⟨account, ⟨_, parsed⟩, rfl⟩ := run
    have isOwner := (checkOwner_owner serving acts checked).resolve_left named
    rw [isOwner] at parsed
    exact ⟨isOwner, ownerEthAddress_eq_ok.mp parsed⟩

/-- A view stays on the owner if what follows `lendoraOwner` does from the owner's account. -/
theorem lendoraOwner_confines {next : ViewOwner → Handler α} (serving : Serving deps w)
    (acts : ActsFor deps w ctx tp)
    (rest : ∀ account, AccountOf deps.codec tp.owner account →
      Only (AsksAbout deps.codec tp.owner) (next ⟨tp.owner, account⟩))
    (run : Alone deps w (lendoraOwner deps ctx tool addr >>= next) events w' result) :
    ∀ e ∈ events, AsksAbout deps.codec tp.owner e.op := by
  have tenants (id : String) : AsksAbout deps.codec tp.owner (.tenant id) := trivial
  have checks : Only (AsksAbout deps.codec tp.owner) (lendoraOwner deps ctx tool addr) := by
    apply only_bind (authorize_only tenants (fun _ => trivial) ctx tool)
    intro known
    dsimp only
    split
    · exact only_bind (only_ofResult _) fun _ => only_pure _
    · apply only_bind (checkOwner_only tenants _ _)
      intro _
      exact only_bind (only_ofResult _) fun _ => only_pure _
  refine alone_calls_bind (fun _ _ _ => exec_calls checks) ?_ run
  intro before mid found passed
  obtain ⟨isOwner, isAccount⟩ := lendoraOwner_owner serving acts (alone_gives passed)
  have only := rest found.eth isAccount
  rw [← isOwner] at only ⊢
  exact only

/-- The reads of an account, each with its input. -/
inductive AccountRead where
  | getSubaccount (input : SubaccountReadInput)
  | getLiveSubaccount (input : SubaccountReadInput)
  | getBalance (owner : String)
  | getOrders (input : GetOrdersInput)
  | getFills (input : GetFillsInput)
  | getTransfers (input : SubaccountReadInput)
  | getPnl (input : SubaccountReadInput)
  | getHistoricalPnl (input : SubaccountReadInput)
  | getFundingPayments (input : SubaccountReadInput)
  | lendoraGetAccountSummary (address : String)
  | lendoraGetAccountPositions (address : String)
  | lendoraGetBalances (address : String)
  | lendoraAssessRisk (address : String)

namespace AccountRead

/-- What each read returns. -/
def Output : AccountRead → Type
  | .getSubaccount _ => IndexerSubaccount
  | .getLiveSubaccount _ => LiveSubaccountDTO
  | .getBalance _ => GetBalanceOutput
  | .getOrders _ => Option (List Json)
  | .getFills _ => IndexerPage
  | .getTransfers _ => IndexerPage
  | .getPnl _ => Option (List Json)
  | .getHistoricalPnl _ => IndexerPage
  | .getFundingPayments _ => Option (List Json)
  | .lendoraGetAccountSummary _ => LendoraSummary
  | .lendoraGetAccountPositions _ => LendoraPositions
  | .lendoraGetBalances _ => LendoraBalances
  | .lendoraAssessRisk _ => LendoraAssessment

/-- The tool of a read. -/
def run (deps : Deps) (evm : EvmDeps) (ctx : Context) :
    (read : AccountRead) → Handler read.Output
  | .getSubaccount input => SvpMcp.getSubaccount ctx input
  | .getLiveSubaccount input => SvpMcp.getLiveSubaccount ctx input
  | .getBalance owner => SvpMcp.getBalance deps ctx owner
  | .getOrders input => SvpMcp.getOrders ctx input
  | .getFills input => SvpMcp.getFills ctx input
  | .getTransfers input => SvpMcp.getTransfers ctx input
  | .getPnl input => SvpMcp.getPnl ctx input
  | .getHistoricalPnl input => SvpMcp.getHistoricalPnl ctx input
  | .getFundingPayments input => SvpMcp.getFundingPayments ctx input
  | .lendoraGetAccountSummary address => SvpMcp.lendoraGetAccountSummary deps evm ctx address
  | .lendoraGetAccountPositions address => SvpMcp.lendoraGetAccountPositions deps evm ctx address
  | .lendoraGetBalances address => SvpMcp.lendoraGetBalances deps evm ctx address
  | .lendoraAssessRisk address => SvpMcp.lendoraAssessRisk deps evm ctx address

/-- The address argument of a read that is passed on as it is; the Lendora views pass on the
owner. -/
def passedOn : AccountRead → Option String
  | .getSubaccount input => some input.address
  | .getLiveSubaccount input => some input.address
  | .getBalance owner => some owner
  | .getOrders input => some input.address
  | .getFills input => some input.address
  | .getTransfers input => some input.address
  | .getPnl input => some input.address
  | .getHistoricalPnl input => some input.address
  | .getFundingPayments input => some input.address
  | _ => none

/-- Whatever the server, the tenant and the moment, every query of the read is about the owner of
the tenant it acts for. -/
def StaysOnOwner (read : AccountRead) : Prop :=
  ∀ (deps : Deps) (evm : EvmDeps) (w : World) (ctx : Context) (tp : TenantPolicy)
    (events : Events) (w' : World)
    (result : Except Fault read.Output),
    Serving deps w → ActsFor deps w ctx tp →
      Alone deps w (read.run deps evm ctx) events w' result →
        ∀ e ∈ events, AsksAbout deps.codec tp.owner e.op

end AccountRead

/-- A read of a subaccount stays on the owner if its query does. -/
theorem subaccountRead_confines {number : UInt32} (serving : Serving deps w)
    (acts : ActsFor deps w ctx tp) (named : addr ≠ "")
    (asks : addr = tp.owner → Only (AsksAbout deps.codec tp.owner) fetch)
    (run : Alone deps w (subaccountRead ctx tool addr number fetch) events w' result) :
    ∀ e ∈ events, AsksAbout deps.codec tp.owner e.op := by
  refine authorizeOwner_confines serving acts ?_ run
  intro passed
  apply only_bind (checkSubaccount_only (fun _ => trivial) _ _)
  intro _
  exact asks (passed.resolve_left named)

/-- The views of the risk engine stay on the owner. -/
theorem riskView_confines {view : String × RiskResult → Except Fault α} (serving : Serving deps w)
    (acts : ActsFor deps w ctx tp)
    (run : Alone deps w (riskView deps evm ctx tool addr >>= fun found => ofCall (view found))
      events w' result) :
    ∀ e ∈ events, AsksAbout deps.codec tp.owner e.op := by
  refine alone_calls_bind ?_ (fun _ _ _ _ => only_ofCall _) run
  intro before mid found viewed
  refine lendoraOwner_confines serving acts ?_ viewed
  intro account isAccount
  apply only_bind (requireLendora_only _ _)
  intro _
  apply only_bind (computeRisk_only (asksAbout_lendora isAccount) trivial)
  intro r
  exact only_pure _

/-- A Lendora view stays on the owner, and so does every other read whose address is not
omitted. -/
theorem staysOnOwner_of_named {read : AccountRead} (named : read.passedOn ≠ some "") :
    read.StaysOnOwner := by
  intro deps evm w ctx tp events w' result serving acts run
  have differs {addr : String} (isPassed : read.passedOn = some addr) : addr ≠ "" := by
    intro omitted
    exact named (isPassed.trans (congrArg some omitted))
  cases read with
  | getSubaccount input =>
    refine subaccountRead_confines serving acts (differs rfl) ?_ run
    intro isOwner
    rw [isOwner]
    have asked : AsksAbout deps.codec tp.owner (.indexerGet .subaccount
        (Indexer.subaccountPath tp.owner input.subaccountNumber) []) := .inl ⟨_, rfl, rfl⟩
    exact only_bind (indexerRead_only asked _ _ _) fun _ => only_pure _
  | getLiveSubaccount input =>
    refine subaccountRead_confines serving acts (differs rfl) ?_ run
    intro isOwner
    have asked : AsksAbout deps.codec tp.owner
        (.subaccount input.address input.subaccountNumber) := isOwner
    exact only_bind (only_bind (only_call asked) fun _ => only_ofResult _) fun _ => only_pure _
  | getBalance owner =>
    refine authorizeOwner_confines serving acts ?_ run
    intro passed
    have asked : AsksAbout deps.codec tp.owner (.allBalances owner) :=
      passed.resolve_left (differs rfl)
    apply only_bind (only_bind (only_call asked) fun _ => only_ofResult _)
    intro coins
    apply only_bind (only_ofCall _)
    intro balances
    exact only_bind (erc20Balances_asks deps tp.owner) fun _ => only_pure _
  | getOrders input =>
    refine subaccountRead_confines serving acts (differs rfl) ?_ run
    intro isOwner
    rw [isOwner]
    exact orEmpty_only _ (indexerRead_only (requestsAccount_query _ _ _) _ _ _)
  | getFills input =>
    refine subaccountRead_confines serving acts (differs rfl) ?_ run
    intro isOwner
    rw [isOwner]
    exact getPage_asks _ _ _ _ _
  | getTransfers input =>
    refine subaccountRead_confines serving acts (differs rfl) ?_ run
    intro isOwner
    rw [isOwner]
    exact getPage_asks _ _ _ _ _
  | getPnl input =>
    refine subaccountRead_confines serving acts (differs rfl) ?_ run
    intro isOwner
    rw [isOwner]
    exact orEmpty_only _ (getEntries_asks _ _ _ _)
  | getHistoricalPnl input =>
    refine subaccountRead_confines serving acts (differs rfl) ?_ run
    intro isOwner
    rw [isOwner]
    exact orEmpty_only _ (getPage_asks _ _ _ _ _)
  | getFundingPayments input =>
    refine subaccountRead_confines serving acts (differs rfl) ?_ run
    intro isOwner
    rw [isOwner]
    exact orEmpty_only _ (getEntries_asks _ _ _ _)
  | lendoraGetAccountSummary address => exact riskView_confines serving acts run
  | lendoraGetAccountPositions address => exact riskView_confines serving acts run
  | lendoraGetBalances address =>
    refine lendoraOwner_confines serving acts ?_ run
    intro account isAccount
    have allows := asksAbout_lendora isAccount
    apply only_bind (requireLendora_only _ _)
    intro _
    apply only_bind (lendoraOracle_only allows.plain allows.cache)
    intro oracle
    have block : AsksAbout deps.codec tp.owner (.evm homeClient .blockNumber) := trivial
    apply only_bind (only_bind (only_call block) fun _ => only_pure _)
    intro blockNumber
    apply only_bind nativeGasBalance_asks
    intro gasToken
    apply only_bind (only_call allows.cache)
    intro (cache : LendoraCache)
    exact only_bind (addWalletBalances_asks isAccount _ _ _) fun _ => only_pure _
  | lendoraAssessRisk address => exact riskView_confines serving acts run

/-- A tenant that may use one subaccount. -/
def omittedTenant (number : UInt32) : TenantPolicy := ⟨"tenant", "svp1owner", [number], false⟩

/-- A server with that tenant. -/
def omittedDeps (number : UInt32) : Deps := fixedDeps ⟨0, 0, 0, 0⟩ (omittedTenant number) []

/-- The server has just started. -/
def omittedWorld : World := startWorld ⟨"", "", ∅, ∅⟩ (.new 0)

/-- The tenant's request. -/
def omittedContext : Context := some ⟨"tenant", "svp1owner"⟩

section Omitted

variable (number : UInt32)

/-- The server of the example is running. -/
theorem omitted_serving : Serving (omittedDeps number) omittedWorld where
  static := ⟨[omittedTenant number], rfl⟩
  minted := ⟨⟨"", fun _ _ => .error ""⟩, omittedWorld.auth, [], ⟨rfl, rfl, rfl, rfl⟩, .start⟩

/-- Its tenant is known. -/
theorem omitted_known (now : Calendar.Time) :
    engineTenant (omittedDeps number).perTenant omittedWorld.auth.tenants now "tenant" =
      .ok (omittedTenant number) := by
  have listed : (omittedDeps number).perTenant.get "tenant" = some (omittedTenant number) :=
    Table.get_set_self ∅ _ _
  unfold engineTenant
  rw [listed]

/-- A request acts for the tenant. -/
theorem omitted_actsFor :
    ActsFor (omittedDeps number) omittedWorld omittedContext (omittedTenant number) :=
  ⟨_, 0, rfl, omitted_known number 0⟩

/-- The lookup finds the tenant. -/
theorem omitted_lookup : resultIn (omittedDeps number) omittedWorld (acceptingEnv 0)
    (ofResult (engineTenant (omittedDeps number).perTenant omittedWorld.auth.tenants 0 "tenant")) =
      .ok (omittedTenant number) :=
  resultIn_ofResult.mpr (omitted_known number 0)

/-- The omitted address is let through. -/
theorem omitted_authorized (tool : String) :
    resultIn (omittedDeps number) omittedWorld (acceptingEnv 0)
      (authorizeOwner omittedContext tool "") = .ok (omittedTenant number) := by
  have admitted : Admits (omittedDeps number) omittedWorld (acceptingEnv 0) omittedContext
      (omittedTenant number) := ⟨_, rfl, omitted_known number 0, rfl, rfl⟩
  refine resultIn_bind.mpr ⟨_, resultIn_authorize.mpr admitted, ?_⟩
  refine resultIn_bind.mpr ⟨(), ?_, rfl⟩
  refine resultIn_bind.mpr ⟨_, resultIn_call _, ?_⟩
  exact resultIn_bind.mpr ⟨_, omitted_lookup number, rfl⟩

/-- The subaccount is let through. -/
theorem omitted_subaccount :
    resultIn (omittedDeps number) omittedWorld (acceptingEnv 0)
      (checkSubaccount "tenant" number) = .ok () := by
  refine resultIn_bind.mpr ⟨_, resultIn_call _, ?_⟩
  refine resultIn_bind.mpr ⟨_, omitted_lookup number, resultIn_require.mpr ?_⟩
  exact List.contains_iff_mem.mpr List.mem_cons_self

variable {number}

/-- With the address omitted, a read behind `authorizeOwner` goes on. -/
theorem omitted_mustAsk {tool : String} {next : TenantPolicy → Handler α} {op : ServerOp}
    (rest : MustAsk (omittedDeps number) omittedWorld (acceptingEnv 0) op
      (next (omittedTenant number))) :
    MustAsk (omittedDeps number) omittedWorld (acceptingEnv 0) op
      (authorizeOwner omittedContext tool "" >>= next) :=
  mustAsk_bind (authorizeOwner_only (fun _ _ _ => rfl) (fun _ _ _ => rfl) _ _ _)
    (omitted_authorized number tool) rest

/-- With the address omitted, a read of a subaccount makes its query. -/
theorem omitted_subaccountRead {tool : String} {op : ServerOp}
    {next : Reply op → Program ServerOp Reply (Except Fault α)}
    (isCall : fetch.run = .call op next) :
    MustAsk (omittedDeps number) omittedWorld (acceptingEnv 0) op
      (subaccountRead omittedContext tool "" number fetch) :=
  omitted_mustAsk (mustAsk_bind (checkSubaccount_only (fun _ _ _ => rfl) _ _)
    (omitted_subaccount number) (mustAsk_of_call isCall))

end Omitted

/-- The path of an omitted address does not name the owner. -/
theorem omitted_path {codec : TxCodec} {number : UInt32} :
    ¬ AsksAbout codec "svp1owner" (.indexerGet body (Indexer.subaccountPath "" number) []) := by
  rintro (⟨other, samePath, _⟩ | impossible)
  · -- The paths differ in the character behind "/addresses/".
    have sameChar := congrArg (fun path => path.toList[11]?) samePath
    simp [Indexer.subaccountPath] at sameChar
  · cases impossible

/-- The parameters of an omitted address do not name the owner. -/
theorem omitted_query {codec : TxCodec} {path : String} {number : UInt32}
    {rest : List (String × String)} :
    ¬ AsksAbout codec "svp1owner" (.indexerGet body path (subaccountQuery "" number rest)) := by
  rintro (⟨_, _, impossible⟩ | sameOwner)
  · cases impossible
  · have impossible : "" = "svp1owner" := Option.some.inj sameOwner
    exact absurd impossible (by decide)

namespace AccountRead

/-- The subaccount a read is about; for the others any. -/
def number : AccountRead → UInt32
  | .getSubaccount input => input.subaccountNumber
  | .getLiveSubaccount input => input.subaccountNumber
  | .getOrders input => input.subaccountNumber
  | .getFills input => input.subaccountNumber
  | .getTransfers input => input.subaccountNumber
  | .getPnl input => input.subaccountNumber
  | .getHistoricalPnl input => input.subaccountNumber
  | .getFundingPayments input => input.subaccountNumber
  | _ => 0

end AccountRead

/-- With the address omitted, every read but the Lendora views asks about no account of the
tenant. -/
theorem omitted_asks {read : AccountRead} (evm : EvmDeps) (omitted : read.passedOn = some "") :
    ∃ op, ¬ AsksAbout (omittedDeps read.number).codec "svp1owner" op ∧
      MustAsk (omittedDeps read.number) omittedWorld (acceptingEnv 0) op
        (read.run (omittedDeps read.number) evm omittedContext) := by
  cases read with
  | getSubaccount input =>
    obtain ⟨address, number⟩ := input
    cases omitted
    exact ⟨_, omitted_path, omitted_subaccountRead rfl⟩
  | getLiveSubaccount input =>
    obtain ⟨address, number⟩ := input
    cases omitted
    refine ⟨.subaccount "" number, ?_, omitted_subaccountRead rfl⟩
    show "" ≠ "svp1owner"
    decide
  | getBalance owner =>
    cases omitted
    refine ⟨.allBalances "", ?_, omitted_mustAsk (mustAsk_of_call rfl)⟩
    show "" ≠ "svp1owner"
    decide
  | getOrders input =>
    obtain ⟨⟨address, number⟩, _⟩ := input
    cases omitted
    exact ⟨_, omitted_query, omitted_subaccountRead rfl⟩
  | getFills input =>
    obtain ⟨⟨address, number⟩, _⟩ := input
    cases omitted
    exact ⟨_, omitted_query, omitted_subaccountRead rfl⟩
  | getTransfers input =>
    obtain ⟨address, number⟩ := input
    cases omitted
    exact ⟨_, omitted_query, omitted_subaccountRead rfl⟩
  | getPnl input =>
    obtain ⟨address, number⟩ := input
    cases omitted
    exact ⟨_, omitted_query, omitted_subaccountRead rfl⟩
  | getHistoricalPnl input =>
    obtain ⟨address, number⟩ := input
    cases omitted
    exact ⟨_, omitted_query, omitted_subaccountRead rfl⟩
  | getFundingPayments input =>
    obtain ⟨address, number⟩ := input
    cases omitted
    exact ⟨_, omitted_query, omitted_subaccountRead rfl⟩
  | lendoraGetAccountSummary => cases omitted
  | lendoraGetAccountPositions => cases omitted
  | lendoraGetBalances => cases omitted
  | lendoraAssessRisk => cases omitted

/-- A read stays on the tenant's own account exactly when its address is not omitted, or is not
passed on. -/
theorem reads_stay_on_owner_iff (read : AccountRead) :
    read.StaysOnOwner ↔ read.passedOn ≠ some "" := by
  constructor
  · intro stays omitted
    have evm : EvmDeps := ⟨0, none, none, 0, fun _ => .zero, none⟩
    obtain ⟨op, strays, asks⟩ := omitted_asks evm omitted
    obtain ⟨events, w', result, run, e, member, isOp⟩ := mustAsk_run asks
    have asked := stays _ evm _ _ _ events w' result (omitted_serving _) (omitted_actsFor _) run
      e member
    rw [isOp] at asked
    exact strays asked
  · exact staysOnOwner_of_named

/-- What the one tenant's `GetSubaccount` of a subaccount asks, in order. -/
def subaccountOps (address : String) : List ServerOp :=
  (runAlone (server (omittedDeps 0)) (fun _ => acceptingEnv 0) 0 omittedWorld
    (getSubaccount omittedContext ⟨address, 0⟩)).1.map (·.op)

/-- A request that names the owner stays there. -/
theorem reads_stay_on_owner_iff_named :
    (AccountRead.getSubaccount ⟨"svp1owner", 0⟩).StaysOnOwner ∧
      (subaccountOps "svp1owner").getLast? =
        some (.indexerGet .subaccount "/addresses/svp1owner/subaccountNumber/0" []) :=
  ⟨(reads_stay_on_owner_iff _).mpr (by decide), by decide +kernel⟩

/-- With the address omitted the indexer is asked for no address, while the tenant's owner is
`svp1owner`. -/
theorem omitted_address_asked :
    subaccountOps "" =
        [.tenant "tenant", .tenant "tenant", .rateAllow "get_subaccount:tenant", .tenant "tenant",
          .tenant "tenant", .indexerGet .subaccount "/addresses//subaccountNumber/0" []] ∧
      Serving (omittedDeps 0) omittedWorld ∧
      ActsFor (omittedDeps 0) omittedWorld omittedContext (omittedTenant 0) ∧
      ¬ AsksAbout (omittedDeps 0).codec (omittedTenant 0).owner
        (.indexerGet .subaccount (Indexer.subaccountPath "" 0) []) :=
  ⟨by decide +kernel, omitted_serving 0, omitted_actsFor 0, omitted_path⟩

end SvpMcp
