import SvpMcp.Model.LendoraExits
import SvpMcp.Verif.BorrowGuard

/-!
# What the withdraw guard guards

A withdrawal is guarded by the Comptroller's own projection. The health factor it shows is rebuilt
from the engine's debt.
-/

namespace SvpMcp

open Handler Program

variable {deps : Deps} {evm : EvmDeps} {ctx : Context} {w w' : World}
  {events : Events} {c : LendoraChain} {op : OpContext}
  {owner : Address}

/-- An environment in which the cTokens answer the views a withdrawal reads from one state. -/
structure Exposes (c : LendoraChain) (env : Env) : Prop where
  balanceOf : ∀ m account out, env.evm homeClient (.callContract m (packBalanceOf account)) =
    .ok out → Abi.unpackUint out = some (c.cTokens account m)
  exchangeRateStored : ∀ m out, env.evm homeClient (.callContract m packExchangeRateStored) =
    .ok out → Abi.unpackUint out = some (c.exchangeRate m)

/-- What a withdrawal encodes and burns: all cTokens, or those of an amount of the underlying. -/
inductive Burns (c : LendoraChain) (owner : Address) (m : Market) (input : LendoraWithdrawInput) :
    (data : Bytes) → (tokens : Nat) → Prop where
  | all (asked : input.full = true ∨ input.amount = "") :
      Burns c owner m input (packRedeem (c.cTokens owner m.cToken)) (c.cTokens owner m.cToken)
  | part (asked : ¬ (input.full = true ∨ input.amount = "")) (amount : Nat)
      (accepted : humanToBaseUnits input.amount m.underlyingDecimals = .ok (amount : Int)) :
      Burns c owner m input (packRedeemUnderlying amount)
        (amount * e18 / c.exchangeRate m.cToken)

/-- A call that a withdrawal's views answer from one state. -/
@[simp]
def Shows (c : LendoraChain) (e : Event World Env ServerOp Reply) : Prop :=
  Exposes c e.env

/-- A view of a contract that was read has the value the state says. -/
theorem view_eq {query : EvmQuery} {format : String} {operands : List String}
    {decode : EvmAnswer query → Option Nat} {answer : EvmAnswer query} {value expected : Nat}
    (run : Gives deps (Shows c) w (evmRead homeClient query format operands) w' answer)
    (decoded : decode answer = some value)
    (state : ∀ env, Exposes c env → ∀ out, env.evm homeClient query = .ok out →
      decode out = some expected) : value = expected := by
  obtain ⟨_, env, exposes, answered⟩ := gives_evmRead.mp run
  exact Option.some.inj (decoded.symm.trans (state env exposes _ answered))

/-- The plan of a withdrawal burns what it encodes. -/
theorem withdrawPlan_ok {input : LendoraWithdrawInput} {plan : WithdrawPlan}
    (run : Gives deps (Shows c) w (withdrawPlan op input) w' plan) :
    Burns c op.owner op.market input plan.data plan.redeemTokens := by
  unfold withdrawPlan at run
  by_cases asked : input.full = true ∨ input.amount = ""
  · rw [if_pos asked] at run
    simp [withdrawFull, erc20Balance] at run
    obtain ⟨out, read, balance, decoded, _, rfl⟩ := run
    have isBalance := view_eq read decoded fun _ exposes => exposes.balanceOf _ _
    rw [isBalance]
    exact .all asked
  · rw [if_neg asked] at run
    simp [withdrawPart, exchangeRateStored] at run
    obtain ⟨amount, accepted, out, read, rate, decoded, _, rfl⟩ := run
    have isRate := view_eq read decoded fun _ exposes => exposes.exchangeRateStored _
    have positive := (humanToBaseUnits_bounds accepted).1
    obtain ⟨units, rfl⟩ := Int.eq_ofNat_of_zero_le (Int.le_of_lt positive)
    rw [isRate]
    exact .part asked units accepted

/-- `sumCollateral` once cTokens of a market are burned: it drops by their weighted value if the
market is entered. -/
def LendoraChain.collateralAfter (c : LendoraChain) (owner m : Address) (tokens : Nat) : Int :=
  c.sumCollateral owner -
    if m ∈ c.entered owner then ((c.tokensToDenom m * tokens / e18 : Nat) : Int) else 0

/-- The answer is the margin after the redemption. -/
theorem hypotheticalLiquidity_redeem (c : LendoraChain) (owner m : Address) (tokens : Nat) :
    c.hypotheticalLiquidity owner m tokens 0 =
      LendoraChain.marginAnswer (c.collateralAfter owner m tokens - c.sumBorrow owner) := by
  rw [LendoraChain.hypotheticalLiquidity, LendoraChain.collateralAfter, LendoraChain.effects]
  by_cases isEntered : m ∈ c.entered owner
  · rw [if_pos isEntered, if_pos isEntered, Int.mul_zero, Int.zero_ediv, Int.add_zero,
      Int.natCast_ediv, Int.natCast_mul]
    congr 1
    omega
  · rw [if_neg isEntered, if_neg isEntered]
    congr 1
    omega

/-- A text that is the health factor of two sums: their quotient as the decimals round it, or the
mark of an account without debt. -/
def IsHealthFactor (text : String) (collateral debt : Int) : Prop :=
  if debt = 0 then text = "∞"
  else ∃ hf, (LegacyDec.ofBigInt collateral).quo (.ofBigInt debt) = some hf ∧
    text = String.ofList hf.print

/-- A text shown is the health factor. -/
theorem isHealthFactor_of_text {text : String} {collateral debt : Int} (nonneg : 0 ≤ debt)
    (isText : healthText collateral debt = .ok text) : IsHealthFactor text collateral debt := by
  unfold IsHealthFactor
  by_cases debtless : debt = 0
  · rw [if_pos debtless]
    rw [debtless] at isText
    exact (Except.ok.inj isText).symm
  · have owes : ¬ debt ≤ 0 := by omega
    rw [healthText, projectHF, if_neg owes] at isText
    rw [if_neg debtless]
    cases quotient : (LegacyDec.ofBigInt collateral).quo (.ofBigInt debt) with
    | none =>
      rw [quotient] at isText
      cases isText
    | some hf =>
      rw [quotient] at isText
      exact ⟨hf, rfl, (Except.ok.inj isText).symm⟩

/-- A call of the withdraw tool for an owner and a market. -/
structure WithdrawCall (deps : Deps) (w : World) (ctx : Context)
    (input : LendoraWithdrawInput) (owner : Address) (m : Market) : Prop where
  owned : OwnedBy deps w ctx owner
  named : w.lendora.Names input.asset m

/-- What a withdrawal that is built tells. -/
theorem lendoraBuildWithdrawTx_ok {input : LendoraWithdrawInput} {out : LendoraTxOutput}
    (run : Alone deps w (lendoraBuildWithdrawTx deps evm ctx input) events w' (.ok out))
    (reads : Reads c events) (exposes : ∀ e ∈ events, Exposes c e.env) :
    ∃ owner m data tokens p, WithdrawCall deps w ctx input owner m ∧
      Burns c owner m input data tokens ∧ out.payload = some p ∧ p.Calls m.cToken 0 data ∧
      c.sumBorrow owner ≤ c.collateralAfter owner m.cToken tokens ∧
      0 ≤ w.lendora.debtOn c owner ∧
      healthText (c.collateralAfter owner m.cToken tokens - c.sumBorrow owner +
        w.lendora.debtOn c owner) (w.lendora.debtOn c owner) =
          .ok out.simulation.projectedHealthFactor := by
  have run : Gives deps (fun e => Sees c e ∧ Shows c e) w _ w' out :=
    ⟨events, run, fun e member => ⟨reads e member, exposes e member⟩⟩
  simp [lendoraBuildWithdrawTx] at run
  obtain ⟨_, op, common, _, plan, planned, _, liq, asked, sim, simulated, finished⟩ := run
  have opened := opCommon_ok (common.mono fun _ => And.left)
  have burns := withdrawPlan_ok (planned.mono fun _ => And.right)
  obtain ⟨rfl, rfl, noShort⟩ := gives_hypotheticalLiquidity.mp (asked.mono fun _ => And.left)
  rw [hypotheticalLiquidity_redeem] at noShort simulated
  obtain ⟨margin, isMargin⟩ := marginAnswer_short noShort.symm
  have text := simulation_text simulated
  rw [opened.sumBorrow, isMargin] at text
  obtain ⟨p, rfl, calls⟩ := finishOp_ok finished
  refine ⟨op.owner, op.market, plan.data, plan.redeemTokens, p, ⟨opened.owned, opened.named⟩,
    burns, rfl, calls, by omega, ?_, text⟩
  have summed := opened.sumBorrow
  omega

/-- The debt the engine sums when every market with a debt is entered and cached: the Comptroller's,
at the prices of the cached oracle. -/
theorem debtOn_eq {cache : LendoraCache} (nodup : cache.cTokens.Nodup)
    (known : ∀ x, 0 < c.borrow owner x → x ∈ c.entered owner ∧ x ∈ cache.cTokens) :
    cache.debtOn c owner =
      c.sumBorrow owner + c.overstated (cache.oracleOn c) owner cache.cTokens := by
  have nothing : c.missing owner cache.cTokens = 0 := by
    refine missing_eq_zero.mpr fun x _ absent => ?_
    have owesNothing : c.borrow owner x = 0 := by
      have notOwed := mt (known x) fun both => absent both.2
      omega
    rw [LendoraChain.debt, LendoraChain.debtBy, owesNothing, Nat.mul_zero, Nat.zero_div]
  rw [LendoraCache.debtOn, sumBorrow_split nodup fun x owes => (known x owes).1, nothing,
    Int.sub_zero]

/-- A withdrawal that leaves the account collateralized and whose projected health factor is that
of the sums after it. -/
structure ExactWithdraw (c : LendoraChain) (owner m : Address) (tokens : Nat)
    (sim : LendoraSimulation) : Prop where
  collateralized : c.sumBorrow owner ≤ c.collateralAfter owner m tokens
  projected : IsHealthFactor sim.projectedHealthFactor (c.collateralAfter owner m tokens)
    (c.sumBorrow owner)

/-- A withdrawal that is built leaves the account collateralized. What the prices of the cached
oracle overstate of its debt shows in both sums of the health factor, and with the Comptroller's
own oracle in the cache that is nothing: the withdrawal is exact. -/
theorem withdraw_guard_exact {deps : Deps} {evm : EvmDeps} {ctx : Context}
    {c : LendoraChain} {input : LendoraWithdrawInput} {out : LendoraTxOutput} {w w' : World}
    {events : Events} (nodup : w.lendora.cTokens.Nodup)
    (run : Alone deps w (lendoraBuildWithdrawTx deps evm ctx input) events w' (.ok out))
    (reads : Reads c events) (exposes : ∀ e ∈ events, Exposes c e.env) :
    ∃ owner m data tokens p, WithdrawCall deps w ctx input owner m ∧
      Burns c owner m input data tokens ∧ out.payload = some p ∧ p.Calls m.cToken 0 data ∧
      ((∀ x, 0 < c.borrow owner x → x ∈ c.entered owner ∧ x ∈ w.lendora.cTokens) →
        c.sumBorrow owner ≤ c.collateralAfter owner m.cToken tokens ∧
        IsHealthFactor out.simulation.projectedHealthFactor
          (c.collateralAfter owner m.cToken tokens +
            c.overstated (w.lendora.oracleOn c) owner w.lendora.cTokens)
          (c.sumBorrow owner + c.overstated (w.lendora.oracleOn c) owner w.lendora.cTokens) ∧
        (w.lendora.oracleOn c = c.oracle →
          ExactWithdraw c owner m.cToken tokens out.simulation)) := by
  obtain ⟨owner, m, data, tokens, p, isCall, burns, isPayload, calls, covered, nonneg, text⟩ :=
    lendoraBuildWithdrawTx_ok run reads exposes
  refine ⟨owner, m, data, tokens, p, isCall, burns, isPayload, calls, fun known => ?_⟩
  have isDebt := debtOn_eq nodup known
  have factor := isHealthFactor_of_text nonneg text
  rw [isDebt] at factor
  have shifted : c.collateralAfter owner m.cToken tokens - c.sumBorrow owner +
      (c.sumBorrow owner + c.overstated (w.lendora.oracleOn c) owner w.lendora.cTokens) =
      c.collateralAfter owner m.cToken tokens +
        c.overstated (w.lendora.oracleOn c) owner w.lendora.cTokens := by
    omega
  rw [shifted] at factor
  refine ⟨covered, factor, fun current => ⟨covered, ?_⟩⟩
  rw [current, overstated_current, Int.add_zero, Int.add_zero] at factor
  exact factor

variable (replaced : Bool)

/-- Two entered markets with a token in each: a collateral of 1, and a debt of 0.4 in the second.
The oracle that was replaced has twice the prices of the Comptroller's. -/
def tokenInEach : LendoraChain where
  __ := twoMarkets
  oracle := if replaced then .ofBytes [12] else .ofBytes [10]
  prices oracle _ := if replaced ∧ oracle = .ofBytes [10] then 2 * e18 else e18
  cTokens _ _ := e18
  borrow _ m := if m = .ofBytes [2] then 400000000000000000 else 0

/-- A node that answers from that state, and every view of a contract with 10¹⁸. -/
def tokenEnv : Env where
  __ := chainEnv (tokenInEach replaced) twoSymbols
  evm client
    | .callContract _ _ => .ok (Abi.word e18)
    | query => meterEnv.evm client query

/-- The node answers from the chain. -/
theorem tokenEnv_consistent : Consistent (tokenInEach replaced) (tokenEnv replaced) :=
  { chainEnv_consistent (tokenInEach replaced) twoSymbols with }

/-- And its contracts do. -/
theorem tokenEnv_exposes : Exposes (tokenInEach replaced) (tokenEnv replaced) := by
  have decoded : Abi.unpackUint (Abi.word e18) = some e18 := Abi.unpackUint_word (by decide)
  refine ⟨?_, ?_⟩
  · intro m account out answered
    rw [← Except.ok.inj answered]
    exact decoded
  · intro m out answered
    rw [← Except.ok.inj answered]
    exact decoded

/-- The withdrawal of the whole first market. -/
def withdrawInput : LendoraWithdrawInput := ⟨"usdc", "", true, "first"⟩

/-- Its handler. -/
def withdrawBuild : Handler LendoraTxOutput :=
  lendoraBuildWithdrawTx meterDeps lendEvm ownerContext withdrawInput

/-- The run of the withdrawal. -/
def withdrawRun : Events × World × Except Fault LendoraTxOutput :=
  runAlone (server meterDeps) (fun _ => tokenEnv replaced) 0 lendWorld withdrawBuild

/-- The withdraw is a run with no other request. -/
theorem withdrawRun_ok {replaced : Bool} {out : LendoraTxOutput}
    (isOut : (withdrawRun replaced).2.2 = .ok out) :
    Alone meterDeps lendWorld withdrawBuild (withdrawRun replaced).1 (withdrawRun replaced).2.1
      (.ok out) := by
  have run := alone_runAlone meterDeps (fun _ => tokenEnv replaced) 0 lendWorld withdrawBuild
  rw [← withdrawRun, isOut] at run
  exact run

/-- It sees one environment. -/
theorem withdrawRun_env : ∀ e ∈ (withdrawRun replaced).1, e.env = tokenEnv replaced :=
  runAlone_env (tokenEnv replaced) 0 lendWorld withdrawBuild

/-- It reads the chain. -/
theorem withdrawRun_reads : Reads (tokenInEach replaced) (withdrawRun replaced).1 := by
  intro e member
  rw [withdrawRun_env replaced e member]
  exact tokenEnv_consistent replaced

/-- And the chain's contracts. -/
theorem withdrawRun_exposes :
    ∀ e ∈ (withdrawRun replaced).1, Exposes (tokenInEach replaced) e.env := by
  intro e member
  rw [withdrawRun_env replaced e member]
  exact tokenEnv_exposes replaced

/-- Its debts are in markets entered and cached. -/
theorem tokenInEach_known (owner : Address) :
    ∀ x, 0 < (tokenInEach replaced).borrow owner x →
      x ∈ (tokenInEach replaced).entered owner ∧ x ∈ lendWorld.lendora.cTokens := by
  intro x owes
  have isSecond : x = .ofBytes [2] := by
    by_contra other
    have nothing : (tokenInEach replaced).borrow owner x = 0 := if_neg other
    omega
  rw [isSecond]
  rw [lendWorld_lendora]
  exact ⟨List.mem_cons_of_mem _ List.mem_cons_self, List.mem_cons_of_mem _ List.mem_cons_self⟩

/-- With the Comptroller's oracle in the cache the withdrawal is exact. -/
theorem withdraw_guard_exact_whole :
    ∃ out, (withdrawRun false).2.2 = .ok out ∧ ∃ owner m data tokens p,
      WithdrawCall meterDeps lendWorld ownerContext withdrawInput owner m ∧
      Burns (tokenInEach false) owner m withdrawInput data tokens ∧ out.payload = some p ∧
      p.Calls m.cToken 0 data ∧
      ExactWithdraw (tokenInEach false) owner m.cToken tokens out.simulation := by
  have builds : (withdrawRun false).2.2.isOk = true := by
    rw [withdrawRun, lendWorld_eq]
    decide +kernel
  obtain ⟨out, isOut⟩ := exists_of_isOk builds
  obtain ⟨owner, m, data, tokens, p, isCall, burns, isPayload, calls, guarded⟩ :=
    withdraw_guard_exact lendWorld_nodup (withdrawRun_ok isOut) (withdrawRun_reads false)
      (withdrawRun_exposes false)
  have current : lendWorld.lendora.oracleOn (tokenInEach false) = (tokenInEach false).oracle := by
    rw [lendWorld_lendora]
    decide
  exact ⟨out, isOut, owner, m, data, tokens, p, isCall, burns, isPayload, calls,
    (guarded (tokenInEach_known false owner)).2.2 current⟩

/-- The projected health factor of a run, if it returned. -/
def projectedOf : Except Fault LendoraTxOutput → Option String
  | .ok out => some out.simulation.projectedHealthFactor
  | .error _ => none

/-- The projection is not exact while the cache has an oracle the Comptroller no longer uses: a
health factor of 1.25 is shown as 1.125. -/
theorem withdraw_projection_inexact :
    ¬ ∀ (deps : Deps) (evm : EvmDeps) (ctx : Context) (c : LendoraChain)
      (input : LendoraWithdrawInput) (out : LendoraTxOutput) (w w' : World)
      (events : Events), w.lendora.cTokens.Nodup →
      Alone deps w (lendoraBuildWithdrawTx deps evm ctx input) events w' (.ok out) →
      Reads c events → (∀ e ∈ events, Exposes c e.env) →
      ∀ owner m data tokens p, WithdrawCall deps w ctx input owner m →
        Burns c owner m input data tokens → out.payload = some p → p.Calls m.cToken 0 data →
        (∀ x, 0 < c.borrow owner x → x ∈ c.entered owner ∧ x ∈ w.lendora.cTokens) →
        ExactWithdraw c owner m.cToken tokens out.simulation := by
  intro all
  have builds : (withdrawRun true).2.2.isOk = true := by
    rw [withdrawRun, lendWorld_eq]
    decide +kernel
  obtain ⟨out, isOut⟩ := exists_of_isOk builds
  obtain ⟨owner, m, data, tokens, p, isCall, burns, isPayload, calls, _⟩ :=
    lendoraBuildWithdrawTx_ok (withdrawRun_ok isOut) (withdrawRun_reads true)
      (withdrawRun_exposes true)
  have exactly := all meterDeps lendEvm ownerContext (tokenInEach true)
    withdrawInput out lendWorld _ _ lendWorld_nodup (withdrawRun_ok isOut) (withdrawRun_reads true)
    (withdrawRun_exposes true) owner m data tokens p isCall burns isPayload calls
    (tokenInEach_known true owner)
  have resolves : lendWorld.lendora.resolve withdrawInput.asset = some firstMarket := by
    rw [lendWorld_lendora]
    decide +kernel
  have isTokens : tokens = e18 := by
    cases burns with
    | all asked => rfl
    | part asked amount accepted => exact absurd (.inl rfl) asked
  have shown : projectedOf (withdrawRun true).2.2 = some "1.125000000000000000" := by
    rw [withdrawRun, lendWorld_eq]
    decide +kernel
  rw [isOut] at shown
  have isText := Option.some.inj shown
  have left : (tokenInEach true).collateralAfter owner (.ofBytes [1]) e18 =
      500000000000000000 := by
    change (tokenInEach true).collateralAfter .zero (.ofBytes [1]) e18 = _
    decide +kernel
  have owed : (tokenInEach true).sumBorrow owner = 400000000000000000 := by
    change (tokenInEach true).sumBorrow .zero = _
    decide +kernel
  have projected := exactly.projected
  rw [isCall.named.known resolves, isTokens, isText] at projected
  change IsHealthFactor _ ((tokenInEach true).collateralAfter owner (.ofBytes [1]) e18) _
    at projected
  rw [left, owed, IsHealthFactor, if_neg (by decide)] at projected
  obtain ⟨hf, quotient, isPrint⟩ := projected
  have isQuotient : (LegacyDec.ofBigInt 500000000000000000).quo (.ofBigInt 400000000000000000) =
      some ⟨1250000000000000000⟩ := by
    decide +kernel
  cases isQuotient.symm.trans quotient
  exact absurd isPrint (by decide +kernel)

end SvpMcp
