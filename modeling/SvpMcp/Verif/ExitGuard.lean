import SvpMcp.Model.LendoraExits
import SvpMcp.Verif.BorrowGuard

/-!
# What the exit guard guards

An exit is guarded by the tool's positions and its own valuation of them, not by the Comptroller; it
is sound where both say what the Comptroller would.
-/

namespace SvpMcp

open Handler Program

variable {deps : Deps} {evm : EvmDeps} {ctx : Context} {w w' : World}
  {events : Events} {c : LendoraChain} {op : OpContext}
  {owner m : Address}

/-- The collateral of an account in a market as the tool values it: what is supplied is rounded
first, then its value at the prices of an oracle, then its weight. -/
def LendoraChain.valuedBy (c : LendoraChain) (oracle owner m : Address) : Nat :=
  weightedNative (c.prices oracle m) (c.supplied owner m) (c.collateralFactor m)

/-- In an entered position the tool takes away the market's collateral as it values it. -/
theorem contribution_entered {tool asset : String} {before : World} {contributed : Nat}
    (opened : Opened deps before c ctx tool asset op) (isEntered : op.enteredPosition = true)
    (run : Gives deps (Sees c) w (contribution op) w' contributed)
    (cache : w.lendora = before.lendora) :
    contributed = c.valuedBy (before.lendora.oracleOn c) op.owner op.market.cToken := by
  unfold OpContext.enteredPosition at isEntered
  unfold contribution at run
  cases found : op.risk.marketPosition op.market.cToken with
  | none =>
    rw [found] at isEntered
    cases isEntered
  | some pos =>
    obtain ⟨isMarket, onChain, _⟩ := marketPosition_some opened.tracks found
    simp [found] at run
    rw [← run.2, cache, onChain.supplied, onChain.factor, isMarket]
    rfl

/-- What the guard of an exit has let through. -/
theorem disableCollateral_ok {contributed : Nat} {data : Bytes} {post : Int}
    (isOk : disableCollateral op contributed = .ok (data, post)) :
    op.debt = 0 ∧ data = packExitMarket op.market.cToken ∧
      (op.enteredPosition = true → op.risk.hasDebt = true →
        (op.risk.sumBorrowNat : Int) ≤ op.risk.sumCollateralNat - contributed) := by
  obtain ⟨_, noDebt, isOk⟩ := bind_eq_ok.mp isOk
  have isZero : op.debt = 0 := by
    have notOwed := refuseIf_eq_ok.mp noDebt
    omega
  cases isEntered : op.enteredPosition with
  | false =>
    rw [isEntered, if_neg Bool.false_ne_true] at isOk
    have same := Prod.mk.inj (Except.ok.inj isOk)
    exact ⟨isZero, same.1.symm, fun impossible => nomatch impossible⟩
  | true =>
    rw [isEntered, if_pos rfl] at isOk
    obtain ⟨_, covered, isOk⟩ := bind_eq_ok.mp isOk
    have same := Prod.mk.inj (Except.ok.inj isOk)
    refine ⟨isZero, same.1.symm, fun _ hasDebt => ?_⟩
    exact Int.not_lt.mp fun short => refuseIf_eq_ok.mp covered ⟨hasDebt, short⟩

/-- An exit after which the other entered markets have no shortfall, from a market in which nothing
is owed. -/
structure SoundExit (c : LendoraChain) (owner m : Address) : Prop where
  owesNothing : c.borrow owner m = 0
  noShortfall : sumOver (fun x => (c.debt owner x : Int)) ((c.entered owner).filter (· ≠ m)) ≤
    sumOver (fun x => (c.collateral owner x : Int)) ((c.entered owner).filter (· ≠ m))

/-- What a market counts as collateral. -/
def LendoraChain.counted (c : LendoraChain) (owner m : Address) : Int :=
  if m ∈ c.entered owner then (c.collateral owner m : Int) else 0

/-- An exit is sound when nothing is owed in its market and the margin covers what it counts. -/
theorem soundExit_iff :
    SoundExit c owner m ↔ c.borrow owner m = 0 ∧ c.counted owner m ≤ c.margin owner := by
  have noDebt : c.borrow owner m = 0 → c.debt owner m = 0 := by
    intro none
    rw [LendoraChain.debt, LendoraChain.debtBy, none, Nat.mul_zero, Nat.zero_div]
  have others : c.borrow owner m = 0 →
      (sumOver (fun x => (c.debt owner x : Int)) ((c.entered owner).filter (· ≠ m)) ≤
        sumOver (fun x => (c.collateral owner x : Int)) ((c.entered owner).filter (· ≠ m)) ↔
          c.counted owner m ≤ c.margin owner) := by
    intro none
    unfold LendoraChain.counted LendoraChain.margin LendoraChain.sumCollateral
      LendoraChain.sumBorrow
    by_cases isEntered : m ∈ c.entered owner
    · have debts : sumOver (fun x => (c.debt owner x : Int)) (c.entered owner) = _ :=
        sumOver_others (c.entered_nodup owner) isEntered
      have collaterals : sumOver (fun x => (c.collateral owner x : Int)) (c.entered owner) = _ :=
        sumOver_others (c.entered_nodup owner) isEntered
      have zero := noDebt none
      rw [if_pos isEntered]
      omega
    · have all : (c.entered owner).filter (· ≠ m) = c.entered owner := by
        apply List.filter_eq_self.mpr
        intro x member
        have other : x ≠ m := fun same => isEntered (same ▸ member)
        simpa using other
      rw [if_neg isEntered, all]
      omega
  exact ⟨fun sound => ⟨sound.owesNothing, (others sound.owesNothing).mp sound.noShortfall⟩,
    fun both => ⟨both.1, (others both.1).mpr both.2⟩⟩

/-- The exits the guard compares: from a cached market with an entered position, of an account with
a debt the engine knows. -/
def Compared (c : LendoraChain) (cache : LendoraCache) (owner m : Address) : Prop :=
  (m ∈ cache.cTokens ∧ c.holds owner m = true ∧ m ∈ c.entered owner) ∧ 0 < cache.debtOn c owner

/-- The exits that are sound once the guard has let them through: nothing is owed in a market that
is not cached, and the margin does not lie between the collateral as the tool values it and as the
Comptroller does, or, where nothing is compared, it covers the market. -/
def SafeExit (c : LendoraChain) (cache : LendoraCache) (owner m : Address) : Prop :=
  (m ∉ cache.cTokens → c.borrow owner m = 0) ∧
    (Compared c cache owner m → ¬ ((c.valuedBy (cache.oracleOn c) owner m : Int) ≤ c.margin owner ∧
      c.margin owner < c.collateral owner m)) ∧
    (¬ Compared c cache owner m → c.counted owner m ≤ c.margin owner)

/-- A call of the collateral tool that disables a market. -/
structure DisableCall (deps : Deps) (w : World) (ctx : Context)
    (input : LendoraCollateralInput) (owner : Address) (m : Market) : Prop where
  owned : OwnedBy deps w ctx owner
  named : w.lendora.Names input.asset m

/-- What an exit that is built tells. -/
theorem lendoraBuildCollateralTx_ok {input : LendoraCollateralInput} {out : LendoraTxOutput}
    (disables : input.action = "disable")
    (run : Alone deps w (lendoraBuildCollateralTx deps evm ctx input) events w' (.ok out))
    (reads : Reads c events) :
    ∃ op p, Opened deps w c ctx "lendora_build_collateral_tx" input.asset op ∧
      out.payload = some p ∧
      p.Calls (evm.comptroller.getD .zero) 0 (packExitMarket op.market.cToken) ∧ op.debt = 0 ∧
      (op.enteredPosition = true → 0 < w.lendora.debtOn c op.owner →
        (c.valuedBy (w.lendora.oracleOn c) op.owner op.market.cToken : Int) ≤
          c.margin op.owner) := by
  have run := reads_gives run reads
  simp [lendoraBuildCollateralTx] at run
  obtain ⟨_, op, common, _, contributed, valued, data, post, switched, sim, _, finished⟩ := run
  have opened := opCommon_ok common
  rw [disables, switchCollateral, if_neg (by decide), if_pos rfl] at switched
  obtain ⟨noDebt, isData, covered⟩ := disableCollateral_ok switched
  obtain ⟨p, rfl, calls⟩ := finishOp_ok finished
  rw [isData] at calls
  refine ⟨op, p, opened, rfl, calls, noDebt, ?_⟩
  intro isEntered owes
  have hasDebt : op.risk.hasDebt = true := by
    rw [opened.hasDebt]
    exact decide_eq_true owes
  have margin := covered isEntered hasDebt
  rw [contribution_entered opened isEntered valued (gives_lendora common),
    opened.sumCollateral, opened.sumBorrow] at margin
  omega

/-- An exit that is built is sound if and only if it is one of the safe ones: a market that is not
cached has no position, so neither its debt nor its collateral is seen. -/
theorem disable_guard_iff {deps : Deps} {evm : EvmDeps} {ctx : Context}
    {c : LendoraChain} {input : LendoraCollateralInput} {out : LendoraTxOutput} {w w' : World}
    {events : Events} (disables : input.action = "disable")
    (run : Alone deps w (lendoraBuildCollateralTx deps evm ctx input) events w' (.ok out))
    (reads : Reads c events) :
    ∃ owner m p, DisableCall deps w ctx input owner m ∧ out.payload = some p ∧
      p.Calls (evm.comptroller.getD .zero) 0 (packExitMarket m.cToken) ∧
      (SoundExit c owner m.cToken ↔ SafeExit c w.lendora owner m.cToken) := by
  obtain ⟨op, p, opened, isPayload, calls, noDebt, covered⟩ :=
    lendoraBuildCollateralTx_ok disables run reads
  refine ⟨op.owner, op.market, p, ⟨opened.owned, opened.named⟩, isPayload, calls, ?_⟩
  -- In a cached market the debt was seen.
  have owes : c.borrow op.owner op.market.cToken = 0 ↔
      (op.market.cToken ∉ w.lendora.cTokens → c.borrow op.owner op.market.cToken = 0) := by
    refine ⟨fun none _ => none, fun absent => ?_⟩
    by_cases cached : op.market.cToken ∈ w.lendora.cTokens
    · rw [← opened.debt_eq cached]
      exact noDebt
    · exact absent cached
  rw [soundExit_iff, owes, SafeExit]
  refine and_congr_right fun _ => ?_
  by_cases compared : Compared c w.lendora op.owner op.market.cToken
  · have margin := covered (opened.enteredPosition_iff.mpr compared.1) compared.2
    have counts : c.counted op.owner op.market.cToken = c.collateral op.owner op.market.cToken :=
      if_pos compared.1.2.2
    constructor
    · intro enough
      exact ⟨fun _ between => by omega, fun other => absurd compared other⟩
    · intro safe
      have outside := safe.1 compared
      omega
  · exact ⟨fun enough => ⟨fun other => absurd other compared, fun _ => enough⟩,
      fun safe => safe.2 compared⟩

/-- An exit from a market. -/
def exitInput (asset : String) : LendoraCollateralInput := ⟨asset, "disable", "first"⟩

/-- Its handler. -/
def exitBuild (asset : String) : Handler LendoraTxOutput :=
  lendoraBuildCollateralTx meterDeps lendEvm ownerContext (exitInput asset)

/-- The run of an exit. -/
def exitRun (c : LendoraChain) (w : World) (asset : String) :
    Events × World × Except Fault LendoraTxOutput :=
  runOn meterDeps c twoSymbols w (exitBuild asset)

/-- The exit is a run with no other request. -/
theorem exitRun_ok {c : LendoraChain} {w : World} {asset : String} {out : LendoraTxOutput}
    (isOut : (exitRun c w asset).2.2 = .ok out) :
    Alone meterDeps w (exitBuild asset) (exitRun c w asset).1 (exitRun c w asset).2.1
      (.ok out) := by
  have run := runOn_alone meterDeps c twoSymbols w (exitBuild asset)
  rw [← exitRun, isOut] at run
  exact run

/-- Every account has a collateral of 50 in the first market, and one of 100 in the second, where
it owes 80. -/
def coveredDebt : LendoraChain where
  __ := twoMarkets
  cTokens _ m := if m = .ofBytes [1] then 100 else 200

/-- The exit of an account with debt, which the other collateral covers. -/
theorem disable_guard_iff_covered :
    ∃ out, (exitRun coveredDebt lendWorld "usdc").2.2 = .ok out ∧ ∃ owner m p,
      DisableCall meterDeps lendWorld ownerContext (exitInput "usdc") owner m ∧
      out.payload = some p ∧
      p.Calls (lendEvm.comptroller.getD .zero) 0 (packExitMarket m.cToken) ∧
      (SoundExit coveredDebt owner m.cToken ↔
        SafeExit coveredDebt lendWorld.lendora owner m.cToken) := by
  have builds : (exitRun coveredDebt lendWorld "usdc").2.2.isOk = true := by
    rw [lendWorld_eq]
    decide +kernel
  obtain ⟨out, isOut⟩ := exists_of_isOk builds
  exact ⟨out, isOut, disable_guard_iff rfl (exitRun_ok isOut)
    (runOn_reads meterDeps coveredDebt twoSymbols lendWorld _)⟩

/-- The address of the second market. -/
def secondAddress : String := "0x0000000000000000000000000000000000000002"

/-- The guard is not sound: a market that the refresh could not read is loaded on demand, and the
exit from it is built although 80 are owed in it. -/
theorem disable_guard_unsound :
    ¬ ∀ (deps : Deps) (evm : EvmDeps) (ctx : Context) (c : LendoraChain)
      (input : LendoraCollateralInput) (out : LendoraTxOutput) (w w' : World)
      (events : Events), input.action = "disable" →
      Alone deps w (lendoraBuildCollateralTx deps evm ctx input) events w' (.ok out) →
      Reads c events → ∀ owner m p, DisableCall deps w ctx input owner m → out.payload = some p →
        p.Calls (evm.comptroller.getD .zero) 0 (packExitMarket m.cToken) →
        SoundExit c owner m.cToken := by
  intro all
  obtain ⟨out, isOut⟩ := exists_of_isOk
    (show (exitRun twoMarkets (refreshedWorld firstSymbol) secondAddress).2.2.isOk = true by
      decide +kernel)
  have reads := runOn_reads meterDeps twoMarkets twoSymbols (refreshedWorld firstSymbol)
    (exitBuild secondAddress)
  obtain ⟨op, p, opened, isPayload, calls, _⟩ :=
    lendoraBuildCollateralTx_ok rfl (exitRun_ok isOut) reads
  have sound := all meterDeps lendEvm ownerContext twoMarkets
    (exitInput secondAddress) out (refreshedWorld firstSymbol) _ _ rfl (exitRun_ok isOut) reads
    op.owner op.market p ⟨opened.owned, opened.named⟩ isPayload calls
  have unknown : (refreshedWorld firstSymbol).lendora.resolve secondAddress = none := by
    decide +kernel
  have isSecond : op.market.cToken = .ofBytes [2] :=
    (opened.named.spelled unknown).trans (by decide +kernel)
  have owesNothing := sound.owesNothing
  rw [isSecond] at owesNothing
  have owes : twoMarkets.borrow op.owner (.ofBytes [2]) = 80 := by
    change (if Address.ofBytes [2] = .ofBytes [2] then 80 else 0) = 80
    exact if_pos rfl
  omega

end SvpMcp
