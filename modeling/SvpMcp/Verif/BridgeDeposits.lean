import SvpMcp.Lib.Keyed
import SvpMcp.Verif.EvmMetering
import SvpMcp.Verif.RouteNames

/-!
# Bridge deposits follow the registry

A loaded registry has one route for a leg and a source token, and the leg decides the whole payload:
the contract, the entrypoint, the value and every argument.
-/

namespace SvpMcp

open Calendar Handler Program

variable {allowed : ServerOp → Prop} {client : EvmClient}

/-- What a route is looked up by: its two chains and its source token. -/
def Route.key (r : Route) : UInt64 × UInt64 × Address :=
  (r.srcChainID, r.targetChainID, r.srcToken)

namespace Registry

variable {reg : Registry}

/-- A loaded registry has at most one route for two chains and a source token. -/
theorem ofRaw_keyed {raws : List RawRoute} (loaded : ofRaw raws = .ok reg) :
    Keyed Route.key reg.routes := by
  have separate := (ofRaw_ok loaded).1
  refine List.pairwise_map.mpr (separate.tokens.imp fun apart same => ?_)
  simp only [Route.key, Prod.mk.injEq] at same
  exact apart ⟨same.1, same.2.1⟩ same.2.2

/-- The other chain is another one. -/
theorem resolveChain_ne {query : String} {fixedID id : UInt64} {fixedIsTarget : Bool}
    (resolved : reg.resolveChain query fixedID fixedIsTarget = .ok id) : id ≠ fixedID := by
  unfold resolveChain at resolved
  dsimp only at resolved
  split at resolved
  · cases resolved
  · split at resolved
    · cases resolved
    · split at resolved
      · cases resolved
      · rename_i differs
        split at resolved <;> split at resolved
        · cases resolved
        · cases resolved
          exact differs
        · cases resolved
        · cases resolved
          exact differs

/-- A route selected is configured. -/
theorem selectRoute_mem {routes : List Route} {selected : Route → Bool} {notFound : String}
    {operands : List String} {route : Route}
    (found : selectRoute routes selected notFound operands = .ok route) : route ∈ routes :=
  List.mem_of_find?_eq_some (selectRoute_eq_ok.mp found)

/-- What is looked up is a route of the leg. -/
theorem lookup_mem {src target : UInt64} {tokenQuery : String} {route : Route}
    (found : reg.lookup src target tokenQuery = .ok route) :
    route ∈ reg.routes ∧ route.srcChainID = src ∧ route.targetChainID = target := by
  have ofLeg : route ∈ reg.routesFor src target := by
    unfold lookup at found
    dsimp only at found
    split at found
    · cases found
    · split at found
      · exact selectRoute_mem found
      · split at found
        · exact selectRoute_mem found
        · exact selectRoute_mem found
  have both := List.mem_filter.mp ofLeg
  exact ⟨both.1, of_decide_eq_true both.2⟩

end Registry

/-- The two deposit tools. -/
inductive BridgeDirection where
  | outbound
  | inbound
deriving DecidableEq

namespace BridgeDirection

/-- The tool of a direction. -/
def tool : BridgeDirection → String
  | outbound => "build_bridge_deposit"
  | inbound => "build_bridge_deposit_inbound"

/-- The leg a tool resolves. -/
def leg (deps : Deps) (evm : EvmDeps) (input : BuildBridgeDepositInput) :
    BridgeDirection → Except Err BridgeLeg
  | outbound => outboundLeg deps evm input
  | inbound => inboundLeg deps evm input

/-- The handler of a tool. -/
def build (deps : Deps) (evm : EvmDeps) (ctx : Context)
    (input : BuildBridgeDepositInput) : BridgeDirection → Handler BridgeDepositOutput
  | outbound => buildBridgeDeposit deps evm ctx input
  | inbound => buildBridgeDepositInbound deps evm ctx input

/-- Both directions are one builder. -/
theorem build_eq (deps : Deps) (evm : EvmDeps) (ctx : Context)
    (input : BuildBridgeDepositInput) (direction : BridgeDirection) :
    direction.build deps evm ctx input = buildBridge deps ctx direction.tool input.amount
      input.recipient input.clientID (direction.leg deps evm input) := by
  cases direction with
  | outbound => rfl
  | inbound => rfl

/-- A leg has the end its direction fixes, and the bridge and the client of its source chain. -/
def Fixes (deps : Deps) (evm : EvmDeps) (leg : BridgeLeg) : BridgeDirection → Prop
  | outbound => leg.srcChainID = evm.bridgeSourceChainID ∧ evm.bridge = some leg.bridge ∧
      leg.client = homeClient
  | inbound => leg.destChainID = evm.homeChainID ∧ leg.srcChainID ∈ deps.foreignChains ∧
      leg.bridge = evm.foreignBridge leg.srcChainID ∧ leg.client = some leg.srcChainID

end BridgeDirection

variable {α : Type} {deps : Deps} {evm : EvmDeps} {ctx : Context} {w w' : World}
  {events : Events} {reg : Registry}
  {input : BuildBridgeDepositInput} {leg : BridgeLeg}

/-- A leg runs along a route of the registry between two different chains. -/
structure Routed (reg : Registry) (leg : BridgeLeg) : Prop where
  member : leg.route ∈ reg.routes
  src : leg.route.srcChainID = leg.srcChainID
  target : leg.route.targetChainID = leg.destChainID
  differ : leg.srcChainID ≠ leg.destChainID

/-- An outbound leg follows a route. -/
theorem outboundLeg_routed (configured : evm.bridgeRoutes = some reg)
    (resolved : outboundLeg deps evm input = .ok leg) :
    Routed reg leg ∧ BridgeDirection.outbound.Fixes deps evm leg := by
  have contract := outboundLeg_bridge resolved
  simp [outboundLeg, registryError] at resolved
  obtain ⟨bridge, routes, srcChainID, required, destChainID, isDest, route, isRoute, rfl⟩ :=
    resolved
  have ends : routes = reg ∧ srcChainID = evm.bridgeSourceChainID := by
    unfold requireBridge at required
    split at required
    · cases required
    · split at required
      · rename_i routes' _ isRoutes
        cases required
        exact ⟨Option.some.inj (isRoutes.symm.trans configured), rfl⟩
      · cases required
  obtain ⟨rfl, isSource⟩ := ends
  obtain ⟨member, src, target⟩ := Registry.lookup_mem isRoute
  have differ := Registry.resolveChain_ne isDest
  exact ⟨⟨member, src, target, differ.symm⟩, isSource, contract, rfl⟩

/-- So does an inbound one. -/
theorem inboundLeg_routed (configured : evm.bridgeRoutes = some reg)
    (resolved : inboundLeg deps evm input = .ok leg) :
    Routed reg leg ∧ BridgeDirection.inbound.Fixes deps evm leg := by
  simp [inboundLeg, registryError] at resolved
  obtain ⟨routes, required, srcChainID, isSource, known, route, isRoute, rfl⟩ := resolved
  have same : routes = reg := by
    unfold requireInboundBridge at required
    rw [configured] at required
    dsimp only at required
    split at required
    · cases required
    · cases required
      rfl
  subst same
  obtain ⟨member, src, target⟩ := Registry.lookup_mem isRoute
  have differ := Registry.resolveChain_ne isSource
  exact ⟨⟨member, src, target, differ⟩, rfl, known, rfl, rfl⟩

/-- The leg of either tool runs along a route of the registry. -/
theorem leg_routed {direction : BridgeDirection} (configured : evm.bridgeRoutes = some reg)
    (resolved : direction.leg deps evm input = .ok leg) :
    Routed reg leg ∧ direction.Fixes deps evm leg := by
  cases direction with
  | outbound => exact outboundLeg_routed configured resolved
  | inbound => exact inboundLeg_routed configured resolved

/-- A deposit, as the bridge reads it. -/
inductive BridgeCall where
  | deposit (token : Address) (amount targetChainID : Nat) (targetToken recipient : Address)
  | depositNative (targetChainID : Nat) (targetToken recipient : Address)
deriving DecidableEq

/-- The selector of `deposit`. -/
def selDeposit : Bytes := [0x5c, 0x28, 0x95, 0x71]

/-- The selector of `depositNative`. -/
def selDepositNative : Bytes := [0x58, 0xb2, 0x63, 0x64]

/-- The deposit the bridge is called for, if it is by one of its two methods. -/
def readBridgeCall (data : Bytes) : Option BridgeCall :=
  if data.take 4 = selDeposit then
    some (.deposit (Abi.addressAt data 0) (Abi.uintAt data 1) (Abi.uintAt data 2)
      (Abi.addressAt data 3) (Abi.addressAt data 4))
  else if data.take 4 = selDepositNative then
    some (.depositNative (Abi.uintAt data 0) (Abi.addressAt data 1) (Abi.addressAt data 2))
  else none

/-- The selector of `deposit`. -/
theorem selector_deposit :
    Abi.selector "deposit(address,uint256,uint64,address,address)" = selDeposit := by
  decide +kernel

/-- The selector of `depositNative`. -/
theorem selector_depositNative :
    Abi.selector "depositNative(uint64,address,address)" = selDepositNative := by
  decide +kernel

/-- A chain id is a word. -/
theorem chainID_lt (id : UInt64) : id.toNat < 2 ^ 256 :=
  Nat.lt_of_lt_of_le id.toNat_lt (by decide)

/-- The bridge reads back the deposit of a token. -/
theorem readBridgeCall_packDeposit {amount : Nat} (fits : amount < 2 ^ 256)
    (token : Address) (id : UInt64) (targetToken recipient : Address) :
    readBridgeCall (packDeposit token amount id targetToken recipient) =
      some (.deposit token amount id.toNat targetToken recipient) := by
  have method : (packDeposit token amount id targetToken recipient).take 4 = selDeposit :=
    Abi.take_pack selector_deposit rfl
  rw [readBridgeCall, if_pos method, packDeposit, Abi.addressAt_pack selector_deposit rfl rfl,
    Abi.uintAt_nat selector_deposit rfl rfl fits,
    Abi.uintAt_nat selector_deposit rfl rfl (chainID_lt id),
    Abi.addressAt_pack selector_deposit rfl rfl, Abi.addressAt_pack selector_deposit rfl rfl]

/-- The bridge reads back the deposit of the native coin. -/
theorem readBridgeCall_packDepositNative (id : UInt64) (targetToken recipient : Address) :
    readBridgeCall (packDepositNative id targetToken recipient) =
      some (.depositNative id.toNat targetToken recipient) := by
  have method : (packDepositNative id targetToken recipient).take 4 = selDepositNative :=
    Abi.take_pack selector_depositNative rfl
  have other : selDepositNative ≠ selDeposit := by decide
  rw [readBridgeCall, method, if_neg other, if_pos rfl, packDepositNative,
    Abi.uintAt_nat selector_depositNative rfl rfl (chainID_lt id),
    Abi.addressAt_pack selector_depositNative rfl rfl,
    Abi.addressAt_pack selector_depositNative rfl rfl]

/-- Without an approval to ask for, the allowance was read and covers the amount. -/
theorem checkBridgeAllowance_none {owner : Address} {amount : Int} {amountHuman retryTool : String}
    {seen : Events}
    (run : Gives deps (· ∈ seen) w (checkBridgeAllowance leg owner amount amountHuman retryTool) w'
      none) :
    ∃ allowance : Nat,
      ReadsAllowance leg.client leg.route.srcToken owner leg.bridge allowance seen ∧
      amount ≤ allowance := by
  simp [checkBridgeAllowance] at run
  obtain ⟨_, out, read, allowance, decoded, run⟩ := run
  refine ⟨allowance, readsAllowance_pack read decoded, ?_⟩
  split at run
  · simp at run
  · next covers => exact Int.not_lt.mp covers

/-- A node is read through one client only. -/
def AtClient (client : EvmClient) (op : ServerOp) : Prop :=
  ∀ other query, op = .evm other query → other = client

/-- A read calls its query. -/
@[simp] theorem evmRead_only_iff {query : EvmQuery} {format : String} {operands : List String} :
    Only (α := no_index (EvmAnswer query)) allowed (evmRead client query format operands) ↔
      allowed (.evm client query) := by
  simp [evmRead]

/-- A transaction is assembled from reads of the node and the clock. -/
theorem assembleEVM_only (reads : ∀ query, allowed (.evm client query)) (clock : allowed .now)
    (args : EVMArgs) :
    Only allowed (assembleEVM client args) := by
  simp [assembleEVM, reads, clock]

/-- A deposit is assembled like any transaction. -/
theorem assembleDeposit_only (reads : ∀ query, allowed (.evm leg.client query))
    (clock : allowed .now) (sender recipient : Address) (amount : Int) (data : Bytes)
    (value : Option Int) (amountHuman clientID toolName : String) : Only allowed
      (assembleDeposit leg sender recipient amount data value amountHuman clientID toolName) := by
  simp [assembleDeposit, assembleEVM_only reads clock]

/-- The allowance is read from the node. -/
theorem checkBridgeAllowance_only (reads : ∀ query, allowed (.evm leg.client query))
    (owner : Address) (amount : Int) (amountHuman retryTool : String) :
    Only allowed (checkBridgeAllowance leg owner amount amountHuman retryTool) := by
  simp [checkBridgeAllowance, reads]

/-- The shared algorithm reads the node of the leg. -/
theorem assembleBridgeDeposit_only (reads : ∀ query, allowed (.evm leg.client query))
    (clock : allowed .now) (sender recipient : Address) (amountHuman clientID toolName : String) :
    Only allowed
      (assembleBridgeDeposit leg sender recipient amountHuman clientID toolName) := by
  have assembles := assembleDeposit_only reads clock
  refine only_bind (only_ofCall _) fun amount => ?_
  split
  · exact assembles _ _ _ _ _ _ _ _
  · refine only_bind (checkBridgeAllowance_only reads _ _ _ _) fun missing => ?_
    cases missing with
    | some approval => exact only_pure _
    | none => exact assembles _ _ _ _ _ _ _ _

/-- A transaction that makes the deposit of a leg's route for a recipient. -/
structure Deposits (leg : BridgeLeg) (amount : Nat) (sender recipient : Address)
    (tx : DynamicFeeTx) (events : Events) : Prop where
  /-- The bridge of the leg's source chain is called. -/
  target : tx.recipient = leg.bridge
  /-- The amount is the value of `depositNative` exactly when the route starts at the native
  coin. -/
  native : tx.value = amount ∧ readBridgeCall tx.data = some (.depositNative
    leg.route.targetChainID.toNat leg.route.targetToken recipient) ↔ leg.route.srcToken = .zero
  /-- Otherwise it is an argument of `deposit`, with no value, and was allowed to be pulled. -/
  token : leg.route.srcToken ≠ .zero → tx.value = 0 ∧
    readBridgeCall tx.data = some (.deposit leg.route.srcToken amount
      leg.route.targetChainID.toNat leg.route.targetToken recipient) ∧
    ∃ allowance, ReadsAllowance leg.client leg.route.srcToken sender leg.bridge allowance events ∧
      amount ≤ allowance

/-- A payload of the shared algorithm makes the deposit of the leg. -/
theorem assembleBridgeDeposit_deposits {sender recipient : Address}
    {amountHuman clientID toolName : String} {output : BridgeDepositOutput} {p : EVMTxPayload}
    {seen : Events}
    (target : leg.route.targetChainID = leg.destChainID)
    (run : Gives deps (· ∈ seen) w (assembleBridgeDeposit leg sender recipient amountHuman clientID
      toolName) w' output) (isBuilt : output.payload = some p) :
    ∃ (amount : Nat) (tx : DynamicFeeTx), humanToBaseUnits amountHuman leg.route.decimals =
      .ok (amount : Int) ∧ p.unsignedTx = .ok tx ∧
      Deposits leg amount sender recipient tx seen := by
  simp [assembleBridgeDeposit] at run
  obtain ⟨_, asked, run⟩ := run
  obtain ⟨positive, fits⟩ := humanToBaseUnits_bounds asked
  obtain ⟨amount, rfl⟩ := Int.eq_ofNat_of_zero_le (Int.le_of_lt positive)
  by_cases native : leg.route.srcToken = .zero
  · have isNative : leg.route.nativeSource = true := decide_eq_true native
    rw [if_pos isNative] at run
    obtain ⟨payload, isPayload, tx, isTx, isBridge, value, data⟩ := assembleDeposit_calls run
    cases isPayload.symm.trans isBuilt
    refine ⟨amount, tx, asked, isTx, isBridge, ?_, fun token => absurd native token⟩
    rw [data, target, readBridgeCall_packDepositNative]
    exact ⟨fun _ => native, fun _ => ⟨value, rfl⟩⟩
  · have isToken : ¬ leg.route.nativeSource = true := fun isNative =>
      native (of_decide_eq_true isNative)
    rw [if_neg isToken] at run
    obtain ⟨tx, isTx, isBridge, value, data⟩ := assembleTokenDeposit_calls run isBuilt
    obtain ⟨_, missing, checked, run⟩ := completes_bind.mp run
    cases missing with
    | some approval =>
      rw [← (completes_pure.mp run).2] at isBuilt
      cases isBuilt
    | none =>
      refine ⟨amount, tx, asked, isTx, isBridge, ⟨fun isNative => ?_, fun isZero => ?_⟩,
        fun _ => ?_⟩
      · rw [value] at isNative
        omega
      · exact absurd isZero native
      · obtain ⟨allowance, isRead, covers⟩ := checkBridgeAllowance_none checked
        rw [data, target, readBridgeCall_packDeposit (by omega)]
        exact ⟨value, rfl, allowance, isRead, Int.ofNat_le.mp covers⟩

/-- The recipient of a deposit: the owner, unless the request names another address. -/
def IsRecipient (sender : Address) (recipientArg : String) (recipient : Address) : Prop :=
  if recipientArg = "" then recipient = sender
  else parseEVMAddress recipientArg "recipient" = .ok recipient

/-- The parties of a deposit are the owner's account and the recipient. -/
theorem bridgeParties_ok {owner recipientArg : String} {sender recipient : Address}
    (parties : bridgeParties deps owner recipientArg = .ok (sender, recipient)) :
    AccountOf deps.codec owner sender ∧ IsRecipient sender recipientArg recipient := by
  simp [bridgeParties] at parties
  obtain ⟨found, isSender, rest⟩ := parties
  have account := ownerEthAddress_eq_ok.mp isSender
  unfold IsRecipient
  split at rest
  · simp at rest
    obtain ⟨rfl, rfl⟩ := rest
    simp [*]
  · simp at rest
    obtain ⟨isParsed, rfl⟩ := rest
    simp [*]

/-- A deposit's payload follows the registry. There is one route with the chains and the source
token of the leg, and the payload makes that route's deposit for the recipient, at the bridge of the
leg's source chain; only that chain's node is read. -/
theorem deposit_follows_route {deps : Deps} {evm : EvmDeps} {ctx : Context}
    {w w' : World} {events : Events} {raws : List RawRoute}
    {reg : Registry} {direction : BridgeDirection} {input : BuildBridgeDepositInput}
    {output : BridgeDepositOutput} {p : EVMTxPayload}
    (loaded : Registry.ofRaw raws = .ok reg) (configured : evm.bridgeRoutes = some reg)
    (run : Alone deps w (direction.build deps evm ctx input) events w' (.ok output))
    (isBuilt : output.payload = some p) :
    ∃ tp sender recipient leg amount tx,
      ActsFor deps w ctx tp ∧ AccountOf deps.codec tp.owner sender ∧
      IsRecipient sender input.recipient recipient ∧
      direction.leg deps evm input = .ok leg ∧ direction.Fixes deps evm leg ∧
      leg.srcChainID ≠ leg.destChainID ∧
      (∀ e ∈ events, AtClient leg.client e.op) ∧
      reg.routes.filter (fun r => r.srcChainID = leg.srcChainID ∧
        r.targetChainID = leg.destChainID ∧ r.srcToken = leg.route.srcToken) = [leg.route] ∧
      humanToBaseUnits input.amount leg.route.decimals = .ok ((amount : Nat) : Int) ∧
      p.unsignedTx = .ok tx ∧ Deposits leg amount sender recipient tx events := by
  rw [BridgeDirection.build_eq] at run
  -- The calls are the authorization's and the algorithm's: the two steps between make none.
  obtain ⟨before, _, tp, _, rfl, authorized, rest⟩ := exec_bind_ok run
  obtain ⟨_, _, ⟨sender, recipient⟩, _, rfl, parties, rest⟩ := exec_bind_ok rest
  obtain ⟨_, _, leg, after, rfl, isLeg, assembled⟩ := exec_bind_ok rest
  obtain ⟨isParties, rfl, rfl⟩ := alone_ofResult parties
  obtain ⟨resolved, rfl, rfl⟩ := alone_ofResult isLeg
  obtain ⟨isSender, isRecipient⟩ := bridgeParties_ok isParties
  obtain ⟨routed, fixes⟩ := leg_routed configured resolved
  obtain ⟨amount, tx, asked, isTx, deposits⟩ := assembleBridgeDeposit_deposits routed.target
    ⟨after, assembled, fun _ member => List.mem_append_right before member⟩ isBuilt
  have only := (Registry.ofRaw_keyed loaded).filter_eq routed.member
  have byKey : (fun r : Route => decide (r.key = leg.route.key)) = fun r =>
      decide (r.srcChainID = leg.srcChainID ∧ r.targetChainID = leg.destChainID ∧
        r.srcToken = leg.route.srcToken) := by
    funext r
    simp only [Route.key, Prod.mk.injEq, routed.src, routed.target]
  rw [byKey] at only
  have atClient : ∀ e ∈ before ++ after, AtClient leg.client e.op := by
    have reads : ∀ query, AtClient leg.client (.evm leg.client query) := by
      intro query other asked same
      cases same
      rfl
    have authorizes : Only (AtClient leg.client) (authorize ctx direction.tool) :=
      authorize_only (fun _ _ _ other => nomatch other) (fun _ _ _ other => nomatch other) _ _
    have assembles : Only (AtClient leg.client) (assembleBridgeDeposit leg sender recipient
        input.amount input.clientID direction.tool) :=
      assembleBridgeDeposit_only reads (fun _ _ other => nomatch other) _ _ _ _ _
    intro e member
    rcases List.mem_append.mp member with early | late
    · exact exec_calls authorizes authorized e early
    · exact exec_calls assembles assembled e late
  exact ⟨tp, sender, recipient, leg, amount, tx, authorize_ok (alone_gives authorized),
    isSender, isRecipient, resolved, fixes, routed.differ, atClient, only, asked, isTx, deposits⟩

/-- Two routes between the same chains, of the native coin and of a token. -/
def bridgeRaws : List RawRoute :=
  [⟨"svp_chain", 1, "sepolia", 2, "0x0000000000000000000000000000000000000000",
    "0x0000000000000000000000000000000000000005", "SVP", 18⟩,
   ⟨"svp_chain", 1, "sepolia", 2, "0x0000000000000000000000000000000000000007",
    "0x0000000000000000000000000000000000000008", "USDC", 6⟩]

/-- A server with these routes. -/
def bridgeEvm : EvmDeps :=
  { meterEvm with
    bridge := some (.ofBytes [4])
    bridgeRoutes := (Registry.ofRaw bridgeRaws).toOption }

/-- The outbound deposit of six base units, at a node whose allowances are six. -/
def bridgeRun :
    Events × World × Except Fault BridgeDepositOutput :=
  runAlone (server meterDeps) (fun _ => meterEnv) 0 meterWorld
    (BridgeDirection.outbound.build meterDeps bridgeEvm ownerContext
      ⟨"Sepolia", "usdc", "0.000006", "", "first"⟩)

/-- The payload of a run, if it returned one. -/
def depositOf : Except Fault BridgeDepositOutput → Option EVMTxPayload
  | .ok output => output.payload
  | .error _ => none

/-- The deposit of the token follows its only route: six base units go to the owner's account on the
other chain. -/
theorem deposit_follows_route_usdc : ∃ reg output p leg tx,
    Registry.ofRaw bridgeRaws = .ok reg ∧ bridgeRun.2.2 = .ok output ∧ output.payload = some p ∧
    BridgeDirection.outbound.leg meterDeps bridgeEvm
      ⟨"Sepolia", "usdc", "0.000006", "", "first"⟩ = .ok leg ∧
    reg.routes.filter (fun r => r.srcChainID = leg.srcChainID ∧
      r.targetChainID = leg.destChainID ∧ r.srcToken = leg.route.srcToken) = [leg.route] ∧
    humanToBaseUnits "0.000006" leg.route.decimals = .ok 6 ∧ p.unsignedTx = .ok tx ∧
    tx.recipient = .ofBytes [4] ∧ tx.value = 0 ∧
    readBridgeCall tx.data = some (.deposit (.ofBytes [7]) 6 2 (.ofBytes [8]) .zero) ∧
    ∃ allowance,
      ReadsAllowance homeClient (.ofBytes [7]) .zero (.ofBytes [4]) allowance bridgeRun.1 ∧
      6 ≤ allowance := by
  obtain ⟨reg, loaded⟩ := exists_of_isOk
    (show (Registry.ofRaw bridgeRaws).isOk = true by decide +kernel)
  have configured : bridgeEvm.bridgeRoutes = some reg := congrArg Except.toOption loaded
  obtain ⟨p, isBuilt⟩ := Option.isSome_iff_exists.mp
    (show (depositOf bridgeRun.2.2).isSome = true by decide +kernel)
  obtain ⟨output, returned⟩ : ∃ output, bridgeRun.2.2 = .ok output :=
    exists_of_isOk (by decide +kernel)
  rw [returned] at isBuilt
  have run := alone_runAlone meterDeps (fun _ => meterEnv) 0 meterWorld
    (BridgeDirection.outbound.build meterDeps bridgeEvm ownerContext
      ⟨"Sepolia", "usdc", "0.000006", "", "first"⟩)
  rw [← bridgeRun, returned] at run
  obtain ⟨tp, sender, recipient, leg, amount, tx, _, ⟨acc, isAcc, isSender⟩, isRecipient, resolved,
    ⟨_, isBridge, isClient⟩, _, _, only, asked, isTx, deposits⟩ :=
    deposit_follows_route loaded configured run isBuilt
  have isLeg : ((BridgeDirection.outbound.leg meterDeps bridgeEvm
      ⟨"Sepolia", "usdc", "0.000006", "", "first"⟩).toOption.map fun leg =>
        (leg.route.decimals, leg.route.srcToken, leg.route.targetChainID, leg.route.targetToken)) =
      some (6, .ofBytes [7], 2, .ofBytes [8]) := by decide +kernel
  rw [resolved] at isLeg
  obtain ⟨decimals, rest⟩ := Prod.mk.inj (Option.some.inj isLeg)
  obtain ⟨token, rest⟩ := Prod.mk.inj rest
  obtain ⟨chain, targetToken⟩ := Prod.mk.inj rest
  have six : humanToBaseUnits "0.000006" 6 = .ok 6 := by decide +kernel
  rw [decimals] at asked
  have isSix : amount = 6 := Int.ofNat.inj (Except.ok.inj (asked.symm.trans six))
  have owner : sender = .zero := by
    cases isAcc
    exact isSender
  have isOwner : recipient = .zero := isRecipient.trans owner
  obtain ⟨value, read, allowance, isRead, covers⟩ := deposits.token (by rw [token]; decide)
  have contract : leg.bridge = .ofBytes [4] := (Option.some.inj isBridge).symm
  rw [token, chain, targetToken, isOwner, isSix] at read
  rw [isClient, token, owner, contract] at isRead
  exact ⟨reg, output, p, leg, tx, loaded, returned, isBuilt, resolved, only, by rw [decimals, six],
    isTx, deposits.target.trans contract, value, read, allowance, isRead, by omega⟩

end SvpMcp
