import SvpMcp.Verif.AssetNames
import SvpMcp.Verif.ExitGuard
import SvpMcp.Verif.SupplyRepay
import SvpMcp.Verif.WithdrawGuard

/-!
# The markets a Lendora operation acts on

A market of the cache was listed when the cache was filled. An address the cache does not know is
loaded from the contract itself, and nothing asks whether it is listed.
-/

namespace SvpMcp

open Handler Program

variable {deps : Deps} {evm : EvmDeps} {ctx : Context} {w w' : World}
  {events : Events} {out : LendoraTxOutput} {m : Address}

/-- A call of a tool that builds a Lendora operation. -/
inductive LendoraRequest where
  | supply (input : LendoraSupplyInput)
  | withdraw (input : LendoraWithdrawInput)
  | borrow (input : LendoraBorrowInput)
  | repay (input : LendoraRepayInput)
  | collateral (input : LendoraCollateralInput)

namespace LendoraRequest

/-- The asset of a request. -/
def asset : LendoraRequest → String
  | supply input => input.asset
  | withdraw input => input.asset
  | borrow input => input.asset
  | repay input => input.asset
  | collateral input => input.asset

/-- The handler of a request. -/
def build (deps : Deps) (evm : EvmDeps) (ctx : Context) :
    LendoraRequest → Handler LendoraTxOutput
  | supply input => lendoraBuildSupplyTx deps evm ctx input
  | withdraw input => lendoraBuildWithdrawTx deps evm ctx input
  | borrow input => lendoraBuildBorrowTx deps evm ctx input
  | repay input => lendoraBuildRepayTx deps evm ctx input
  | collateral input => lendoraBuildCollateralTx deps evm ctx input

end LendoraRequest

/-- The cToken a payload calls or an approval names as the spender. -/
def LendoraTxOutput.Acts (out : LendoraTxOutput) (m : Address) : Prop :=
  (∃ p data, out.payload = some p ∧ p.Calls m 0 data) ∨
    ∃ approval, out.approvalRequired = some approval ∧ approval.spender = m.hex

/-- The cToken a payload to the Comptroller enters or exits. -/
def LendoraTxOutput.Switches (out : LendoraTxOutput) (comptroller m : Address) : Prop :=
  ∃ p, out.payload = some p ∧
    (p.Calls comptroller 0 (packEnterMarkets [m]) ∨ p.Calls comptroller 0 (packExitMarket m))

/-- The cToken a request calls, enters, exits or asks the user to approve as a spender. -/
def LendoraRequest.Targets (request : LendoraRequest) (comptroller : Address)
    (out : LendoraTxOutput) (m : Address) : Prop :=
  match request with
  | .collateral _ => out.Switches comptroller m
  | _ => out.Acts m

/-- An output with one thing to do, in a market: a payload that calls it or an approval of it. -/
inductive ActsOnly (out : LendoraTxOutput) (m : Address) : Prop where
  | calls (p : EVMTxPayload) (data : Bytes) (isPayload : out.payload = some p)
      (isApproval : out.approvalRequired = none) (calls : p.Calls m 0 data)
  | approves (approval : LendoraApproval) (isPayload : out.payload = none)
      (isApproval : out.approvalRequired = some approval) (spender : approval.spender = m.hex)

/-- It does act there. -/
theorem ActsOnly.acts (only : ActsOnly out m) : out.Acts m := by
  cases only with
  | calls p data isPayload _ calls => exact .inl ⟨p, data, isPayload, calls⟩
  | approves approval _ isApproval spender => exact .inr ⟨approval, isApproval, spender⟩

/-- And nowhere else. -/
theorem ActsOnly.eq {target : Address} (only : ActsOnly out m) (acts : out.Acts target) :
    target = m := by
  cases only with
  | calls p data isPayload isApproval calls =>
    rcases acts with ⟨p', data', isPayload', calls'⟩ | ⟨approval, isApproval', _⟩
    · cases isPayload.symm.trans isPayload'
      exact (calls_unique calls' calls).1
    · cases isApproval.symm.trans isApproval'
  | approves approval isPayload isApproval spender =>
    rcases acts with ⟨p', data', isPayload', _⟩ | ⟨approval', isApproval', spender'⟩
    · cases isPayload.symm.trans isPayload'
    · cases isApproval.symm.trans isApproval'
      exact Address.hex_inj (spender'.symm.trans spender)

/-- An end acts on its market. -/
theorem Ends.actsOnly {market : Market} {pull : Int} {data : Bytes} {allowance : Nat}
    (ends : Ends market pull data allowance out) : ActsOnly out market.cToken := by
  cases ends with
  | waits approval _ isPayload isApproval spender =>
    exact .approves approval isPayload isApproval spender
  | builds p _ isPayload isApproval calls => exact .calls p data isPayload isApproval calls

/-- So does a finished operation. -/
theorem finishOp_actsOnly {ownerBech clientID tool description : String} {data : Bytes}
    {sim : LendoraSimulation}
    (run : Gives deps (· ∈ events) w (finishOp deps ownerBech m data clientID tool description sim)
      w' out) : ActsOnly out m := by
  obtain ⟨p, rfl, calls⟩ := finishOp_ok run
  exact .calls p data rfl rfl calls

/-- A supply acts in the market its asset names. -/
theorem supply_acts {input : LendoraSupplyInput}
    (run : Gives deps (· ∈ events) w (lendoraBuildSupplyTx deps evm ctx input) w' out) :
    ∃ market, w.lendora.Names input.asset market ∧ ActsOnly out market.cToken := by
  simp [lendoraBuildSupplyTx] at run
  obtain ⟨_, op, common, _, _, _, _, _, _, _, _, finished⟩ := run
  obtain ⟨_, _, _, ends⟩ := finishWithAllowance_ok finished
  exact ⟨op.market, opCommon_named common, ends.actsOnly⟩

/-- A repayment acts in the market its asset names. -/
theorem repay_acts {input : LendoraRepayInput}
    (run : Gives deps (· ∈ events) w (lendoraBuildRepayTx deps evm ctx input) w' out) :
    ∃ market, w.lendora.Names input.asset market ∧ ActsOnly out market.cToken := by
  simp [lendoraBuildRepayTx] at run
  obtain ⟨_, op, common, _, _, _, _, _, _, _, finished⟩ := run
  obtain ⟨_, _, _, ends⟩ := finishWithAllowance_ok finished
  exact ⟨op.market, opCommon_named common, ends.actsOnly⟩

/-- A withdrawal acts in the market its asset names. -/
theorem withdraw_acts {input : LendoraWithdrawInput}
    (run : Gives deps (· ∈ events) w (lendoraBuildWithdrawTx deps evm ctx input) w' out) :
    ∃ market, w.lendora.Names input.asset market ∧ ActsOnly out market.cToken := by
  simp [lendoraBuildWithdrawTx] at run
  obtain ⟨_, op, common, _, _, _, _, _, _, _, _, finished⟩ := run
  exact ⟨op.market, opCommon_named common, finishOp_actsOnly finished⟩

/-- A borrow acts in the market its asset names. -/
theorem borrow_acts {input : LendoraBorrowInput}
    (run : Gives deps (· ∈ events) w (lendoraBuildBorrowTx deps evm ctx input) w' out) :
    ∃ market, w.lendora.Names input.asset market ∧ ActsOnly out market.cToken := by
  simp [lendoraBuildBorrowTx] at run
  obtain ⟨_, op, common, _, _, _, _, _, _, _, _, _, _, finished⟩ := run
  exact ⟨op.market, opCommon_named common, finishOp_actsOnly finished⟩

/-- The data give the market. -/
theorem packExitMarket_inj {a b : Address} (same : packExitMarket a = packExitMarket b) :
    a = b := by
  have behind := List.append_cancel_left same
  exact Abi.addressWord_inj (by simpa [Abi.heads, Abi.Arg.head, Abi.Arg.tail] using behind)

/-- So do the data of `enterMarkets`. -/
theorem packEnterMarkets_inj {a b : Address} (same : packEnterMarkets [a] = packEnterMarkets [b]) :
    a = b := by
  have behind := List.append_cancel_left same
  exact Abi.addressWord_inj (by simpa [Abi.heads, Abi.Arg.head, Abi.Arg.tail] using behind)

/-- An exit is shorter than the entry of a market, whatever their selectors are. -/
theorem packExitMarket_ne {a b : Address} : packExitMarket a ≠ packEnterMarkets [b] := by
  intro same
  have lengths := congrArg List.length same
  have short : (Abi.selector "exitMarket(address)").length ≤ 4 := List.length_take_le 4 _
  simp only [packExitMarket, packEnterMarkets, Abi.pack, List.length_append, Abi.length_heads,
    List.flatMap_singleton, Abi.Arg.tail, Abi.length_word, Abi.length_addressWord, List.length_nil,
    List.length_singleton] at lengths
  omega

/-- The data of a switch: it enters the market or exits it. -/
theorem switchCollateral_data {op : OpContext} {action : String} {contributed : Nat}
    {data : Bytes} {post : Int} (isOk : switchCollateral op action contributed = .ok (data, post)) :
    data = packEnterMarkets [op.market.cToken] ∨ data = packExitMarket op.market.cToken := by
  unfold switchCollateral at isOk
  by_cases enables : action = "enable"
  · rw [if_pos enables] at isOk
    exact .inl (Prod.mk.inj (Except.ok.inj isOk)).1.symm
  · rw [if_neg enables] at isOk
    by_cases disables : action = "disable"
    · rw [if_pos disables] at isOk
      exact .inr (disableCollateral_ok isOk).2.1
    · rw [if_neg disables] at isOk
      cases isOk

/-- Only the market named is switched. -/
theorem collateral_switches {input : LendoraCollateralInput}
    (run : Gives deps (· ∈ events) w (lendoraBuildCollateralTx deps evm ctx input) w' out) :
    ∃ market, w.lendora.Names input.asset market ∧
      ∀ target, out.Switches (evm.comptroller.getD .zero) target → target = market.cToken := by
  simp [lendoraBuildCollateralTx] at run
  obtain ⟨_, op, common, _, _, _, data, post, switched, _, _, finished⟩ := run
  obtain ⟨p, rfl, calls⟩ := finishOp_ok finished
  refine ⟨op.market, opCommon_named common, ?_⟩
  rintro target ⟨p', isPayload, switches⟩
  cases isPayload
  have isData := switchCollateral_data switched
  rcases switches with enters | exits
  · have same := (calls_unique enters calls).2.2
    rcases isData with isEnter | isExit
    · exact packEnterMarkets_inj (same.trans isEnter)
    · exact absurd (isExit.symm.trans same.symm) packExitMarket_ne
  · have same := (calls_unique exits calls).2.2
    rcases isData with isEnter | isExit
    · exact absurd (same.trans isEnter) packExitMarket_ne
    · exact packExitMarket_inj (same.trans isExit)

/-- What a request targets is the market its asset names. -/
theorem targets_named {request : LendoraRequest}
    (run : Gives deps (· ∈ events) w (request.build deps evm ctx) w' out) :
    ∃ market, w.lendora.Names request.asset market ∧
      ∀ target, request.Targets (evm.comptroller.getD .zero) out target →
        target = market.cToken := by
  cases request with
  | supply input =>
    obtain ⟨market, named, only⟩ := supply_acts run
    exact ⟨market, named, fun _ acts => only.eq acts⟩
  | withdraw input =>
    obtain ⟨market, named, only⟩ := withdraw_acts run
    exact ⟨market, named, fun _ acts => only.eq acts⟩
  | borrow input =>
    obtain ⟨market, named, only⟩ := borrow_acts run
    exact ⟨market, named, fun _ acts => only.eq acts⟩
  | repay input =>
    obtain ⟨market, named, only⟩ := repay_acts run
    exact ⟨market, named, fun _ acts => only.eq acts⟩
  | collateral input => exact collateral_switches run

/-- A cToken that the Comptroller listed at some point of a run. -/
def ListedIn (events : Events) (m : Address) : Prop :=
  ∃ e ∈ events, ∃ listed : List Address, e.env.lendora .getAllMarkets = .ok listed ∧ m ∈ listed

/-- A cache and the run that filled it: the last refresh, or none yet. -/
inductive LendoraCache.FilledBy : LendoraCache → Events → Prop where
  | never : LendoraCache.FilledBy .empty []
  | refreshed {deps : Deps} {w w' : World} {events : Events}
      {cache : LendoraCache} (run : Alone deps w refresh events w' (.ok cache)) :
      cache.FilledBy events

/-- A cached market was listed when the cache was filled. -/
theorem resolve_listed {cache : LendoraCache} {filled : Events}
    {asset : String} {market : Market} (isFilled : cache.FilledBy filled)
    (found : cache.resolve asset = some market) : ListedIn filled market.cToken := by
  cases isFilled with
  | never => cases found
  | refreshed run =>
    obtain ⟨indexed, e, member, listed, answered, sublist⟩ := refresh_indexed run
    have cached : market.cToken ∈ cache.cTokens :=
      List.mem_map_of_mem (resolve_some indexed found).1
    exact ⟨e, member, listed, answered, sublist.subset cached⟩

/-- The address an asset spells. -/
def spelledAddress (asset : String) : Address :=
  .ofHex (String.ofList (Strings.trimSpace asset.toList))

/-- What a request targets is listed, at the last refresh or during the call, if and only if the
cache knows the asset or the address it spells is listed. The contract at any other address answers
for itself. -/
theorem targets_listed_iff {deps : Deps} {evm : EvmDeps} {ctx : Context}
    {request : LendoraRequest} {out : LendoraTxOutput} {w w' : World}
    {filled events : Events} (isFilled : w.lendora.FilledBy filled)
    (run : Alone deps w (request.build deps evm ctx) events w' (.ok out)) :
    ∀ m, request.Targets (evm.comptroller.getD .zero) out m →
      ((ListedIn filled m ∨ ListedIn events m) ↔
        (w.lendora.resolve request.asset).isSome ∨
          ListedIn filled (spelledAddress request.asset) ∨
          ListedIn events (spelledAddress request.asset)) := by
  obtain ⟨market, named, only⟩ := targets_named (alone_gives run)
  intro m targets
  rw [only m targets]
  rcases named with known | ⟨unknown, _, isSpelled⟩
  · have listed := resolve_listed isFilled known
    have isKnown : (w.lendora.resolve request.asset).isSome := by rw [known, Option.isSome_some]
    exact ⟨fun _ => .inl isKnown, fun _ => .inl listed⟩
  · rw [isSpelled, unknown]
    exact ⟨.inr, fun listed => listed.resolve_left Bool.false_ne_true⟩

/-- The supply in the first market, which the cache knows. -/
theorem targets_listed_iff_cached :
    ∃ out, (supplyRun "usdc").2.2 = .ok out ∧ ∃ m,
      (LendoraRequest.supply (supplyInput "usdc")).Targets (lendEvm.comptroller.getD .zero) out m ∧
      (ListedIn (runOn meterDeps twoMarkets twoSymbols meterWorld refresh).1 m ∨
        ListedIn (supplyRun "usdc").1 m) := by
  have builds : (supplyRun "usdc").2.2.isOk = true := by
    rw [supplyRun, lendWorld_eq]
    decide +kernel
  have resolves : (lendWorld.lendora.resolve "usdc").isSome := by
    rw [lendWorld_lendora]
    decide +kernel
  obtain ⟨out, isOut⟩ := exists_of_isOk builds
  obtain ⟨market, _, only⟩ := supply_acts (alone_gives (supplyRun_ok isOut))
  have listed := targets_listed_iff (.refreshed lendWorld_refreshed)
    (show Alone meterDeps lendWorld ((LendoraRequest.supply (supplyInput "usdc")).build meterDeps
      lendEvm ownerContext) _ _ _ from supplyRun_ok isOut) market.cToken only.acts
  exact ⟨out, isOut, market.cToken, only.acts, listed.mpr (.inl resolves)⟩

/-- An address the Comptroller does not list. -/
def thirdAddress : String := "0x0000000000000000000000000000000000000003"

/-- The targets are not all listed: a contract that answers as a market would is supplied to,
although the Comptroller never listed it. -/
theorem targets_not_listed :
    ¬ ∀ (deps : Deps) (evm : EvmDeps) (ctx : Context) (request : LendoraRequest)
      (out : LendoraTxOutput) (w w' : World)
      (filled events : Events), w.lendora.FilledBy filled →
      Alone deps w (request.build deps evm ctx) events w' (.ok out) →
      ∀ m, request.Targets (evm.comptroller.getD .zero) out m →
        ListedIn filled m ∨ ListedIn events m := by
  intro all
  have builds : (supplyRun thirdAddress).2.2.isOk = true := by
    rw [supplyRun, lendWorld_eq]
    decide +kernel
  have unknown : lendWorld.lendora.resolve thirdAddress = none := by
    rw [lendWorld_lendora]
    decide +kernel
  obtain ⟨out, isOut⟩ := exists_of_isOk builds
  obtain ⟨market, named, only⟩ := supply_acts (alone_gives (supplyRun_ok isOut))
  have isThird : market.cToken = .ofBytes [3] :=
    (named.spelled unknown).trans (by decide +kernel)
  have apart : Address.ofBytes [3] ∉ twoMarkets.listed := by decide
  rcases all meterDeps lendEvm ownerContext (.supply (supplyInput thirdAddress))
    out lendWorld _ _ _ (.refreshed lendWorld_refreshed) (supplyRun_ok isOut) market.cToken
    only.acts with ⟨e, member, listed, answered, isListed⟩ | ⟨e, member, listed, answered, isListed⟩
  · have reads := runOn_reads meterDeps twoMarkets twoSymbols meterWorld refresh e member
    cases reads.getAllMarkets.symm.trans answered
    exact apart (isThird ▸ isListed)
  · have reads := runOn_reads meterDeps (oneCollateral true) twoSymbols lendWorld _ e member
    cases reads.getAllMarkets.symm.trans answered
    exact apart (isThird ▸ isListed)

end SvpMcp
