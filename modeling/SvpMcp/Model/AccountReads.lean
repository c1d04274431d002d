import SvpMcp.Model.LendoraRisk
import SvpMcp.Model.Swap

/-!
# The owner-scoped reads

The tools of `tools/account.go` and `tools/account_v021.go`: each checks the address it was given
against the tenant's owner and then asks for it.
-/

namespace SvpMcp

open Handler

/-- `errors.Is(err, indexer.ErrNotFound)`. -/
def Err.isNotFound : Err → Bool
  | .indexerNotFound => true
  | .wrap _ _ cause => cause.isNotFound
  | _ => false

/-- The failure of a request as an error. -/
def IndexerFault.err : IndexerFault → Err
  | .notFound => .indexerNotFound
  | .failed text => .external text

/-- A number in a path or a query. -/
def formatNumber (number : UInt32) : String := String.ofList (Decimal.digits number.toNat)

/-- `get`, with the error the client reports for a subaccount. -/
def indexerRead (body : IndexerBody) (path : String) (query : List (String × String))
    (method address : String) (number : UInt32) : Handler body.Response := do
  let answer ← call (.indexerGet body path query)
  ofResult (answer.mapError fun fault =>
    .wrap (method ++ " %s/%d: %w") [address, formatNumber number] fault.err)

/-- The parameters of a subaccount, then those of the rest that are not empty. -/
def subaccountQuery (address : String) (number : UInt32) (rest : List (String × String)) :
    List (String × String) :=
  ("address", address) :: ("subaccountNumber", formatNumber number) ::
    rest.filter fun parameter => parameter.2 ≠ ""

namespace Indexer

/-- The path of a subaccount. -/
def subaccountPath (address : String) (number : UInt32) : String :=
  "/addresses/" ++ address ++ "/subaccountNumber/" ++ formatNumber number

/-- The subaccount the indexer knows. -/
def getSubaccount (address : String) (number : UInt32) : Handler IndexerSubaccount := do
  let (sa : IndexerSubaccount) ←
    indexerRead .subaccount (subaccountPath address number) [] "GetSubaccount" address number
  return { sa with
    openPerpetualPositions := some (sa.openPerpetualPositions.getD [])
    assetPositions := some (sa.assetPositions.getD []) }

/-- The orders of a subaccount. -/
def getOrders (address : String) (number : UInt32) (filters : List (String × String)) :
    Handler (Option (List Json)) :=
  indexerRead .orders "/orders" (subaccountQuery address number filters) "GetOrders" address number

/-- A paginated read; absent entries are none. -/
def getPage (path key method address : String) (number : UInt32)
    (rest : List (String × String)) : Handler IndexerPage := do
  let (resp : IndexerPage) ←
    indexerRead (.page key) path (subaccountQuery address number rest) method address number
  return { resp with entries := some (resp.entries.getD []) }

/-- A read of a list of entries; absent entries are none. -/
def getEntries (path key method address : String) (number : UInt32) :
    Handler (Option (List Json)) := do
  let (entries : Option (List Json)) ←
    indexerRead (.entries key) path (subaccountQuery address number []) method address number
  return some (entries.getD [])

/-- The fills of a subaccount. -/
def getFills (address : String) (number : UInt32) (market : String) : Handler IndexerPage :=
  getPage "/fills" "fills" "GetFills" address number [("market", market)]

/-- The transfers of a subaccount. -/
def getTransfers (address : String) (number : UInt32) : Handler IndexerPage :=
  getPage "/transfers" "transfers" "GetTransfers" address number []

/-- The profits and losses of a subaccount. -/
def getPnl (address : String) (number : UInt32) : Handler (Option (List Json)) :=
  getEntries "/pnl" "historicalPnl" "GetPnl" address number

/-- The earlier profits and losses. -/
def getHistoricalPnl (address : String) (number : UInt32) : Handler IndexerPage :=
  getPage "/historical-pnl" "historicalPnl" "GetHistoricalPnl" address number []

/-- The funding payments of a subaccount. -/
def getFundingPayments (address : String) (number : UInt32) : Handler (Option (List Json)) :=
  getEntries "/fundingPayments" "fundingPayments" "GetFundingPayments" address number

end Indexer

/-- The steps every read of a subaccount starts with. -/
def subaccountRead {α : Type} (ctx : Context) (tool address : String)
    (number : UInt32) (fetch : Handler α) : Handler α := do
  let tp ← authorizeOwner ctx tool address
  checkSubaccount tp.tenantID number
  fetch

/-- The guard for a subaccount the indexer does not know: an empty result. -/
def orEmpty {α : Type} (empty : α) (fetch : Handler α) : Handler α := do
  let result ← attempt fetch
  match result with
  | .ok value => return value
  | .error (.error e) => if e.isNotFound then return empty else fail e
  | .error (.panic reason) => throw (.panic reason)

/-- The input of a read that takes a subaccount only. -/
structure SubaccountReadInput where
  address : String
  subaccountNumber : UInt32
deriving DecidableEq, Repr

/-- The arguments of `get_orders`. -/
structure GetOrdersInput extends SubaccountReadInput where
  status : String
  side : String
  type : String
  ticker : String
  goodTilBlockBefore : String
  returnLatestOrders : String
deriving DecidableEq, Repr

/-- The filters of the orders, as query parameters. -/
def GetOrdersInput.filters (input : GetOrdersInput) : List (String × String) :=
  [("status", input.status), ("side", input.side), ("type", input.type),
    ("ticker", input.ticker), ("goodTilBlockBefore", input.goodTilBlockBefore),
    ("returnLatestOrders", input.returnLatestOrders)]

/-- The arguments of `get_fills`. -/
structure GetFillsInput extends SubaccountReadInput where
  market : String
deriving DecidableEq, Repr

/-- The tool `get_subaccount`. -/
def getSubaccount (ctx : Context) (input : SubaccountReadInput) :
    Handler IndexerSubaccount :=
  subaccountRead ctx "get_subaccount" input.address input.subaccountNumber
    (Indexer.getSubaccount input.address input.subaccountNumber)

/-- The tool `get_orders`. -/
def getOrders (ctx : Context) (input : GetOrdersInput) :
    Handler (Option (List Json)) :=
  subaccountRead ctx "get_orders" input.address input.subaccountNumber
    (orEmpty (some []) (Indexer.getOrders input.address input.subaccountNumber input.filters))

/-- `GetFills` — without the guard. -/
def getFills (ctx : Context) (input : GetFillsInput) : Handler IndexerPage :=
  subaccountRead ctx "get_fills" input.address input.subaccountNumber
    (Indexer.getFills input.address input.subaccountNumber input.market)

/-- `GetTransfers` — without the guard. -/
def getTransfers (ctx : Context) (input : SubaccountReadInput) : Handler IndexerPage :=
  subaccountRead ctx "get_transfers" input.address input.subaccountNumber
    (Indexer.getTransfers input.address input.subaccountNumber)

/-- The tool `get_pnl`. -/
def getPnl (ctx : Context) (input : SubaccountReadInput) :
    Handler (Option (List Json)) :=
  subaccountRead ctx "get_pnl" input.address input.subaccountNumber
    (orEmpty (some []) (Indexer.getPnl input.address input.subaccountNumber))

/-- The tool `get_historical_pnl`. -/
def getHistoricalPnl (ctx : Context) (input : SubaccountReadInput) :
    Handler IndexerPage :=
  subaccountRead ctx "get_historical_pnl" input.address input.subaccountNumber
    (orEmpty ⟨some [], 0, 0, 0⟩ (Indexer.getHistoricalPnl input.address input.subaccountNumber))

/-- The tool `get_funding_payments`. -/
def getFundingPayments (ctx : Context) (input : SubaccountReadInput) :
    Handler (Option (List Json)) :=
  subaccountRead ctx "get_funding_payments" input.address input.subaccountNumber
    (orEmpty (some []) (Indexer.getFundingPayments input.address input.subaccountNumber))

/-- A balance as the tool prints it. -/
structure LiveAssetPositionDTO where
  assetId : UInt32
  quantums : String
  index : UInt64
deriving DecidableEq, Repr

/-- A position as the tool prints it. -/
structure LivePerpetualPositionDTO where
  perpetualId : UInt32
  quantums : String
  fundingIndex : String
  quoteBalance : String
deriving DecidableEq, Repr

/-- A subaccount as the chain reports it. -/
structure LiveSubaccountDTO where
  /-- The owner and the number. -/
  id : String × UInt32
  assetPositions : List LiveAssetPositionDTO
  perpetualPositions : List LivePerpetualPositionDTO
  marginEnabled : Bool
deriving DecidableEq, Repr

/-- `liveSubaccountFromChain` — nil positions are skipped. -/
def liveSubaccountFromChain (sub : ChainSubaccount) : LiveSubaccountDTO where
  id := sub.id.getD ("", 0)
  assetPositions := (sub.assetPositions.filterMap id).map fun ap =>
    ⟨ap.assetId, String.ofList (Decimal.print ap.quantums), ap.index⟩
  perpetualPositions := (sub.perpetualPositions.filterMap id).map fun pp =>
    ⟨pp.perpetualId, String.ofList (Decimal.print pp.quantums),
      String.ofList (Decimal.print pp.fundingIndex),
      String.ofList (Decimal.print pp.quoteBalance)⟩
  marginEnabled := sub.marginEnabled

/-- `subaccountQueryClient.Subaccount`. -/
def querySubaccount (owner : String) (number : UInt32) : Handler ChainSubaccount := do
  let (answer : Except String ChainSubaccount) ← call (.subaccount owner number)
  ofResult (answer.mapError fun text => .wrap "subaccounts.Query/Subaccount %s/%d: %w"
    [owner, formatNumber number] (.external text))

/-- The tool `get_live_subaccount`. -/
def getLiveSubaccount (ctx : Context) (input : SubaccountReadInput) :
    Handler LiveSubaccountDTO :=
  subaccountRead ctx "get_live_subaccount" input.address input.subaccountNumber do
    let sub ← querySubaccount input.address input.subaccountNumber
    return liveSubaccountFromChain sub

/-- `BalanceDTO`; an omitted text is empty. -/
structure BalanceDTO where
  denom : String
  amount : String
  symbol : String
  display : String
  source : String
deriving DecidableEq, Repr

/-- `bankQueryClient.AllBalances`. -/
def queryAllBalances (address : String) : Handler (List BankCoin) := do
  let (answer : Except String (List BankCoin)) ← call (.allBalances address)
  ofResult (answer.mapError fun text => .wrap "bank.Query/AllBalances %s: %w" [address]
    (.external text))

/-- One turn of the loop of `balancesFromCoins`. -/
def balanceFromCoin (coin : BankCoin) : Except Fault BalanceDTO :=
  let amount := String.ofList (Decimal.print coin.2)
  match knownDenoms.lookup coin.1 with
  | none => .ok ⟨coin.1, amount, "", "", ""⟩
  | some (symbol, decimals) => do
    let display ← humanAmount coin.2 decimals
    return ⟨coin.1, amount, symbol, display, ""⟩

/-- The balances of the bank module, printed. -/
def balancesFromCoins (coins : List BankCoin) : Except Fault (List BalanceDTO) :=
  coins.mapM balanceFromCoin

/-- The calldata of `balanceOf`. -/
def packBalanceOf (account : Address) : Bytes :=
  Abi.pack "balanceOf(address)" [.address account]

/-- `erc20Balance`, and `erc20BalanceOf` of the Lendora tools. -/
def erc20Balance (token account : Address) : Handler Nat := do
  let (out : Bytes) ← evmRead homeClient (.callContract token (packBalanceOf account))
    "read balanceOf for %s: %w" [token.hex]
  ofResult (unpacked "balanceOf" (Abi.unpackUint out))

/-- `knownSwapTokens[symbol].bankLinked`. -/
def bankLinked (symbol : String) : Bool := symbol = "usdc"

/-- One turn of the loop of `erc20Balances`: a token that cannot be read is left out. -/
def addERC20Balance (owner : Address) (symbol : String) (token : Address)
    (out : List BalanceDTO) : Handler (List BalanceDTO) :=
  if bankLinked symbol then return out
  else do
    let balance ← attempt (erc20Balance token owner)
    match balance with
    | .error _ => return out
    | .ok 0 => return out
    | .ok bal =>
      let decimals ← attempt (tokenDecimals (.erc20 token))
      match decimals with
      | .error _ => return out
      | .ok dec =>
        let display ← ofCall (humanOut bal dec)
        return out ++ [⟨token.hex, String.ofList (Decimal.print bal), Strings.toUpper symbol,
          display, "erc20"⟩]

/-- The loop of `erc20Balances`. -/
def addERC20Balances (owner : Address) :
    List (String × Address) → List BalanceDTO → Handler (List BalanceDTO)
  | [], out => return out
  | (symbol, token) :: rest, out => do
    let out ← addERC20Balance owner symbol token out
    addERC20Balances owner rest out

/-- `erc20Balances` — none where the EVM or the router is off. -/
def erc20Balances (deps : Deps) (owner : String) : Handler (List BalanceDTO) :=
  if deps.evmEnabled = false ∨ deps.uniswap = none then return []
  else
    match ownerEthAddress deps.codec owner with
    | .error _ => return []
    | .ok ownerEth =>
      addERC20Balances ownerEth (knownSwapTokens.mergeSort fun a b => a.1 ≤ b.1) []

/-- What `get_balance` returns. -/
structure GetBalanceOutput where
  owner : String
  balances : List BalanceDTO
deriving DecidableEq, Repr

/-- `GetBalance` — the bank is asked for the address given, the contracts for the tenant's
owner. -/
def getBalance (deps : Deps) (ctx : Context) (owner : String) :
    Handler GetBalanceOutput := do
  let tp ← authorizeOwner ctx "get_balance" owner
  let coins ← queryAllBalances owner
  let balances ← ofCall (balancesFromCoins coins)
  let contracts ← erc20Balances deps tp.owner
  return ⟨tp.owner, balances ++ contracts⟩

end SvpMcp
