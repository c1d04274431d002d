import SvpMcp.Model.AccountQueries
import SvpMcp.Model.Evm
import SvpMcp.Model.LendoraMarkets
import SvpMcp.Model.Policy

/-!
# The server's shared state and the operations on it

A tool handler is a program over these operations: one critical section of a store, one call to a
node, or one choice of the Go runtime. Other requests may run in between.
-/

namespace SvpMcp

open Calendar

/-- What the node answers. -/
structure BroadcastResult where
  txHash : String
  /-- The code of `CheckTx`; zero means accepted. -/
  code : UInt32
  rawLog : String
deriving DecidableEq, Repr

/-- The account state a builder reads. -/
structure AccountState where
  accountNumber : UInt64
  sequence : UInt64
deriving DecidableEq, Repr

/-- `ethereum.CallMsg`, as the assembler fills it in to estimate gas. -/
structure CallMsg where
  sender : Address
  recipient : Address
  value : Int
  data : Bytes
  gasFeeCap : Int
  gasTipCap : Int
deriving DecidableEq

/-- The reads of `chain.EVMClient`. -/
inductive EvmQuery where
  | chainID
  | pendingNonceAt (account : Address)
  | suggestGasTipCap
  | baseFee
  | estimateGas (msg : CallMsg)
  | callContract (contract : Address) (data : Bytes)
  | blockNumber
deriving DecidableEq

/-- What each read returns. -/
abbrev EvmAnswer : EvmQuery → Type
  | .chainID => Int
  | .pendingNonceAt _ => UInt64
  | .suggestGasTipCap => Int
  | .baseFee => Int
  | .estimateGas _ => UInt64
  | .callContract _ _ => Bytes
  | .blockNumber => UInt64

/-- The operations of the handlers. -/
inductive ServerOp where
  /-- `Policy.Tenant`. -/
  | tenant (tenantID : String)
  /-- `RateLimit.Allow`. -/
  | rateAllow (key : String)
  | now
  /-- `Idempotency.Claim` behind its lock. -/
  | claim (tenantID clientID : String) (now : Time)
  /-- `limits.Enforce`. -/
  | enforce (tenantID : String) (tool : Tool) (quantums : UInt64)
  /-- `WithdrawLedger.Record`, if there is a ledger. -/
  | recordWithdraw (tenantID : String) (quantums : UInt64)
  | checkTransferOut (owner symbol : String) (amount : Int)
  | recordTransferOut (owner symbol : String) (amount : Int)
  /-- `Chain.Broadcast.BroadcastSync`. -/
  | broadcastSync (txBytes : Bytes)
  /-- `SendTransaction` of the home client, or of the foreign chain's. -/
  | sendTransaction (foreign : Option UInt64) (tx : EvmTx)
  /-- A read of the home client, or of the foreign chain's. -/
  | evm (foreign : Option UInt64) (query : EvmQuery)
  /-- A decoded read of a Lendora contract, of the home client. -/
  | lendora (query : LendoraQuery)
  /-- A read of the Lendora market cache behind its lock. -/
  | lendoraCache
  /-- `Chain.Account.Account`. -/
  | account (owner : String)
  /-- `indexer.Client.get` — a path and its parameters. -/
  | indexerGet (body : IndexerBody) (path : String) (query : List (String × String))
  /-- `Chain.SubaccountQuery.Subaccount`. -/
  | subaccount (owner : String) (number : UInt32)
  /-- `Chain.BankQuery.AllBalances`. -/
  | allBalances (address : String)
  /-- `Auditor.Append`. -/
  | audit (entry : AuditEntry)
  /-- The order in which `range` visits a map. -/
  | rangeMap (entries : List (String × Int))
deriving DecidableEq

/-- What each operation returns. -/
abbrev Reply : ServerOp → Type
  | .tenant _ => Except Err TenantPolicy
  | .rateAllow _ => Bool
  | .now => Time
  | .claim _ _ _ => Except Err Unit
  | .enforce _ _ _ => Except ErrCapExceeded Unit
  | .recordWithdraw _ _ => Unit
  | .checkTransferOut _ _ _ => Except ErrSymbolCapExceeded Unit
  | .recordTransferOut _ _ _ => Unit
  | .broadcastSync _ => Except String BroadcastResult
  | .sendTransaction _ _ => Except String String
  | .evm _ query => Except String (EvmAnswer query)
  | .lendora query => Except ReadFault (LendoraAnswer query)
  | .lendoraCache => LendoraCache
  | .account _ => Except String AccountState
  | .indexerGet body _ _ => Except IndexerFault body.Response
  | .subaccount _ _ => Except String ChainSubaccount
  | .allBalances _ => Except String (List BankCoin)
  | .audit _ => Unit
  | .rangeMap entries => { order : List (String × Int) // order.Perm entries }

/-- The configuration and the third-party code the handlers use. -/
structure Deps where
  codec : TxCodec
  evmCodec : EvmCodec
  limits : Config
  /-- The policy engine's static table. -/
  perTenant : Table String TenantPolicy
  /-- `Chain.EVM != nil`. -/
  evmEnabled : Bool
  /-- The chain ids of `EVM.ForeignChains`. -/
  foreignChains : List UInt64
  /-- The router and WSVP addresses of `EVM.Uniswap`, if configured. -/
  uniswap : Option (Address × Address)

/-- The shared state. -/
structure World where
  auth : AuthState
  idempotency : Idempotency
  ledger : Option MemoryLedger
  transferOut : MemoryTransferOutStore
  disk : Disk
  lendora : LendoraCache
  /-- The audit log, oldest row first, each with its time. -/
  audit : List (Time × AuditEntry)

/-- What the environment contributes at one operation. -/
structure Env where
  now : Time
  /-- Whether the token bucket has a token. -/
  rateAllowed : Bool
  /-- The node's answer to a broadcast. -/
  broadcast : Except String BroadcastResult
  /-- The EVM node's answer to a transaction. -/
  sent : Except String String
  /-- The EVM nodes' answers to the reads. -/
  evm : (foreign : Option UInt64) → (query : EvmQuery) → Except String (EvmAnswer query)
  /-- The Lendora contracts' answers. -/
  lendora : (query : LendoraQuery) → Except ReadFault (LendoraAnswer query)
  /-- The node's answer to an account query. -/
  account : Except String AccountState
  /-- The indexer's answer; by default it knows nothing. -/
  indexer : (body : IndexerBody) → Except IndexerFault body.Response := fun _ => .error .notFound
  /-- The node's answer to a subaccount query; by default it fails. -/
  subaccount : Except String ChainSubaccount := .error "unavailable"
  /-- The node's answer to a bank query; by default it fails. -/
  allBalances : Except String (List BankCoin) := .error "unavailable"
  /-- The order in which a map is visited. -/
  order : (entries : List (String × Int)) → { order : List (String × Int) // order.Perm entries }

/-- What each operation does. -/
def perform (deps : Deps) (w : World) (env : Env) : (op : ServerOp) → Reply op × World
  | .tenant tenantID => (engineTenant deps.perTenant w.auth.tenants env.now tenantID, w)
  | .rateAllow _ => (env.rateAllowed, w)
  | .now => (env.now, w)
  | .claim tenantID clientID now =>
    let (result, idempotency) := w.idempotency.claim tenantID clientID now
    (result, { w with idempotency })
  | .enforce tenantID tool quantums =>
    let (result, ledger) := enforce deps.limits w.ledger env.now tenantID tool quantums
    (result, { w with ledger })
  | .recordWithdraw tenantID quantums =>
    ((), { w with ledger := w.ledger.map fun l => l.record env.now tenantID quantums })
  | .checkTransferOut owner symbol amount =>
    let (result, transferOut, disk) := w.transferOut.check w.disk env.now owner symbol (some amount)
    (result, { w with transferOut, disk })
  | .recordTransferOut owner symbol amount =>
    let (transferOut, disk) := w.transferOut.record w.disk env.now owner symbol (some amount)
    ((), { w with transferOut, disk })
  | .broadcastSync _ => (env.broadcast, w)
  | .sendTransaction _ _ => (env.sent, w)
  | .evm foreign query => (env.evm foreign query, w)
  | .lendora query => (env.lendora query, w)
  | .lendoraCache => (w.lendora, w)
  | .account _ => (env.account, w)
  | .indexerGet body _ _ => (env.indexer body, w)
  | .subaccount _ _ => (env.subaccount, w)
  | .allBalances _ => (env.allBalances, w)
  | .audit entry => ((), { w with audit := w.audit ++ [(env.now, entry)] })
  | .rangeMap entries => (env.order entries, w)

/-- The server as a system that performs operations. -/
def server (deps : Deps) : System World Env ServerOp Reply :=
  ⟨perform deps⟩

/-- The performed calls of a run, oldest first. -/
abbrev Events := List (Event World Env ServerOp Reply)

/-- A tool handler: it calls operations and returns, or fails. -/
abbrev Handler (α : Type) := ExceptT Fault (Program ServerOp Reply) α

namespace Handler

/-- Call one operation. -/
def call (op : ServerOp) : Handler (Reply op) :=
  ExceptT.lift (.perform op)

/-- Return an error. -/
def fail {α : Type} (e : Err) : Handler α :=
  throw (.error e)

/-- Continue with a result, or return its error. -/
def ofResult {α : Type} (result : Except Err α) : Handler α :=
  match result with
  | .ok value => pure value
  | .error e => fail e

/-- Continue with the result of a call that may panic. -/
def ofCall {α : Type} (result : Except Fault α) : Handler α :=
  match result with
  | .ok value => pure value
  | .error fault => throw fault

/-- Return an error unless a condition holds. -/
def require (condition : Bool) (e : Err) : Handler Unit :=
  if condition then pure () else fail e

end Handler

open Handler

/-- Refuse a tenant that is unknown or disabled. -/
def checkTenant (tenantID : String) : Handler Unit := do
  let tp ← call (.tenant tenantID)
  let tp ← ofResult tp
  require (!tp.killSwitch) (.errorf ⟨"kill switch active for tenant %s", [tenantID]⟩)

/-- `Handlers.authorize` — the tenant's policy, unless it is unknown, blocked or over its
rate. -/
def authorize (ctx : Context) (tool : String) : Handler TenantPolicy :=
  match ctx with
  | none => fail .noTenant
  | some tc => do
    checkTenant tc.tenantID
    let tp ← call (.tenant tc.tenantID)
    let tp ← ofResult tp
    let allowed ← call (.rateAllow (tool ++ ":" ++ tc.tenantID))
    require allowed (.errorf ⟨"rate limit exceeded", []⟩)
    return tp

/-- Refuse a subaccount that is not allowed. -/
def checkSubaccount (tenantID : String) (subaccount : UInt32) : Handler Unit := do
  let tp ← call (.tenant tenantID)
  let tp ← ofResult tp
  require (tp.allowedSubaccounts.contains subaccount)
    (.errorf ⟨"subaccount %d not allowed for tenant %s",
      [String.ofList (Decimal.digits subaccount.toNat), tenantID]⟩)

/-- Let a request in for one of its subaccounts. -/
def authorizeSubaccount (ctx : Context) (tool : String) (sub : UInt32) :
    Handler TenantPolicy := do
  let tp ← authorize ctx tool
  checkSubaccount tp.tenantID sub
  return tp

/-- `Engine.CheckOwner` — an omitted owner passes. -/
def checkOwner (tenantID requestedOwner : String) : Handler Unit := do
  let tp ← call (.tenant tenantID)
  let tp ← ofResult tp
  require (requestedOwner = "" ∨ requestedOwner = tp.owner)
    (.errorf ⟨"owner %s not allowed for tenant %s (allowed: %s)",
      [requestedOwner, tenantID, tp.owner]⟩)

/-- Let a request in for its own address. -/
def authorizeOwner (ctx : Context) (tool ownerAddr : String) :
    Handler TenantPolicy := do
  let tp ← authorize ctx tool
  checkOwner tp.tenantID ownerAddr
  return tp

/-- `Idempotency.Claim` — the clock is read before the lock is taken. -/
def claimClientID (tenantID clientID : String) : Handler Unit :=
  if clientID = "" then fail (.errorf ⟨"missing client_id", []⟩)
  else do
    let now ← call .now
    let claimed ← call (.claim tenantID clientID now)
    ofResult claimed

end SvpMcp
