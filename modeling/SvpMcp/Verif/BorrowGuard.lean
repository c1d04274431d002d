import SvpMcp.Verif.LendoraPositions

/-!
# What the borrow guard guards

The Comptroller answers over the entered markets only, and a borrow enters its market first: the
answer for a market that is not entered leaves the borrow out.
-/

namespace SvpMcp

open Handler Program

variable {deps : Deps} {w w' : World} {events : Events}
  {c : LendoraChain} {owner m : Address} {amount : Nat}

section After

variable {isListed : m ∈ c.listed}

/-- The market is entered. -/
theorem afterBorrow_entered :
    (c.afterBorrow owner m amount isListed).entered owner = c.enteredWith owner m :=
  if_pos rfl

/-- The debt in the market. -/
theorem afterBorrow_debt_self : (c.afterBorrow owner m amount isListed).debt owner m =
    c.price m * (c.borrow owner m + amount) / e18 := by
  change c.price m * (if owner = owner ∧ m = m then _ else _) / e18 = _
  rw [if_pos ⟨rfl, rfl⟩]

/-- The other debts stay. -/
theorem afterBorrow_debt_other {x : Address} (other : x ≠ m) :
    (c.afterBorrow owner m amount isListed).debt owner x = c.debt owner x := by
  change c.price x * (if owner = owner ∧ x = m then _ else _) / e18 = _
  rw [if_neg fun both => other both.2]
  rfl

/-- In a market entered the collateral stays. -/
theorem sumCollateral_entered (isEntered : m ∈ c.entered owner) :
    (c.afterBorrow owner m amount isListed).sumCollateral owner = c.sumCollateral owner := by
  rw [LendoraChain.sumCollateral, afterBorrow_entered, LendoraChain.enteredWith, if_pos isEntered]
  rfl

/-- In a new one its collateral is added. -/
theorem sumCollateral_first (notEntered : m ∉ c.entered owner) :
    (c.afterBorrow owner m amount isListed).sumCollateral owner =
      c.sumCollateral owner + c.collateral owner m := by
  rw [LendoraChain.sumCollateral, afterBorrow_entered, LendoraChain.enteredWith,
    if_neg notEntered, sumOver_append]
  change _ + ((c.collateral owner m : Int) + 0) = _
  rw [Int.add_zero]
  rfl

/-- The debt grows, as rounded. -/
theorem sumBorrow_entered (isEntered : m ∈ c.entered owner) :
    (c.afterBorrow owner m amount isListed).sumBorrow owner = c.sumBorrow owner +
      ((c.price m * (c.borrow owner m + amount) / e18 : Nat) - c.debt owner m) := by
  have updated : sumOver (fun x => ((c.afterBorrow owner m amount isListed).debt owner x : Int))
      (c.entered owner) = c.sumBorrow owner +
        ((c.afterBorrow owner m amount isListed).debt owner m - c.debt owner m) := by
    apply sumOver_update (c.entered_nodup owner) isEntered
    intro x other
    rw [afterBorrow_debt_other other]
  rw [LendoraChain.sumBorrow, afterBorrow_entered, LendoraChain.enteredWith, if_pos isEntered,
    updated, afterBorrow_debt_self]

/-- A first debt is added. -/
theorem sumBorrow_first (notEntered : m ∉ c.entered owner) (borrows : c.BorrowsEntered owner) :
    (c.afterBorrow owner m amount isListed).sumBorrow owner =
      c.sumBorrow owner + nativeValue (c.price m) amount := by
  have none : c.borrow owner m = 0 := by
    have notBorrowed := mt (borrows m) notEntered
    omega
  have others : sumOver (fun x => ((c.afterBorrow owner m amount isListed).debt owner x : Int))
      (c.entered owner) = c.sumBorrow owner := by
    apply sumOver_congr
    intro x isEntered
    have other : x ≠ m := by
      intro same
      exact notEntered (same ▸ isEntered)
    rw [afterBorrow_debt_other other]
  rw [LendoraChain.sumBorrow, afterBorrow_entered, LendoraChain.enteredWith,
    if_neg notEntered, sumOver_append, others, sumOver, sumOver, afterBorrow_debt_self, none,
    Nat.zero_add, Int.add_zero]
  rfl

end After

/-- The debt an account ends up with as the tool reconstructs it, above the Comptroller's. -/
def LendoraChain.excess (c : LendoraChain) (oracle owner m : Address) (cached : List Address)
    (amount : Nat) : Int :=
  c.overstated oracle owner cached +
    (nativeValue (c.prices oracle m) amount - nativeValue (c.price m) amount)

/-- The margin the Comptroller answers the tool with. -/
def LendoraChain.marginLeft (c : LendoraChain) (owner m : Address) (amount : Nat) : Int :=
  c.sumCollateral owner - (c.sumBorrow owner +
    if m ∈ c.entered owner then (nativeValue (c.price m) amount : Int) else 0)

/-- The answer is the margin left. -/
theorem hypotheticalLiquidity_eq (c : LendoraChain) (owner m : Address) (amount : Nat) :
    c.hypotheticalLiquidity owner m 0 amount =
      LendoraChain.marginAnswer (c.marginLeft owner m amount) := by
  rw [LendoraChain.hypotheticalLiquidity, LendoraChain.marginLeft, LendoraChain.effects]
  by_cases isEntered : m ∈ c.entered owner
  · rw [if_pos isEntered, if_pos isEntered, Int.mul_zero, Int.zero_ediv, Int.zero_add]
    rfl
  · rw [if_neg isEntered, if_neg isEntered]

/-- A call of the borrow tool for an owner, a market and an amount. -/
structure BorrowCall (deps : Deps) (w : World) (ctx : Context)
    (input : LendoraBorrowInput) (owner : Address) (m : Market) (amount : Nat) : Prop where
  owned : OwnedBy deps w ctx owner
  asked : humanToBaseUnits input.amount m.underlyingDecimals = .ok (amount : Int)

/-- What the Comptroller and the cache say of a borrow that is built. -/
theorem lendoraBuildBorrowTx_ok {evm : EvmDeps} {ctx : Context}
    {input : LendoraBorrowInput} {out : LendoraTxOutput}
    (run : Gives deps (Sees c) w (lendoraBuildBorrowTx deps evm ctx input) w' out) :
    ∃ owner m amount p, BorrowCall deps w ctx input owner m amount ∧ out.payload = some p ∧
      p.Calls m.cToken 0 (packBorrow amount) ∧ 0 ≤ c.marginLeft owner m.cToken amount ∧
      ∃ debt : Int, debt = sumOver
          (fun x => (c.debtBy (w.lendora.oracleOn c) owner x : Int)) w.lendora.cTokens +
          nativeValue (c.prices (w.lendora.oracleOn c) m.cToken) amount ∧
        healthText (c.marginLeft owner m.cToken amount + debt) debt =
          .ok out.simulation.projectedHealthFactor := by
  simp [lendoraBuildBorrowTx] at run
  obtain ⟨mid, op, common, asked, accepted, noShort, sim, simulated, finished⟩ := run
  have opened := opCommon_ok common
  have positive := (humanToBaseUnits_bounds accepted).1
  obtain ⟨amount, rfl⟩ := Int.eq_ofNat_of_zero_le (Int.le_of_lt positive)
  -- The guard has seen the Comptroller's answer, and it had no shortfall.
  rw [hypotheticalLiquidity_eq] at noShort simulated
  obtain ⟨margin, isMargin⟩ := marginAnswer_short noShort
  have text := simulation_text simulated
  obtain ⟨p, rfl, calls⟩ := finishOp_ok finished
  refine ⟨op.owner, op.market, amount, p, ⟨opened.owned, accepted⟩, rfl, calls, margin, _, rfl, ?_⟩
  rw [← text, ← LendoraCache.debtOn, ← opened.sumBorrow, isMargin, noShort, gives_lendora common]
  simp

/-- A borrow that leaves the account collateralized and whose projected health factor is the
quotient of the sums after it. -/
structure SoundBorrow (c : LendoraChain) (owner m : Address) (amount : Nat)
    (isListed : m ∈ c.listed) (sim : LendoraSimulation) : Prop where
  collateralized : (c.afterBorrow owner m amount isListed).sumBorrow owner ≤
    (c.afterBorrow owner m amount isListed).sumCollateral owner
  projected : healthText ((c.afterBorrow owner m amount isListed).sumCollateral owner)
    (c.sumBorrow owner + nativeValue (c.price m) amount) = .ok sim.projectedHealthFactor

/-- The borrows in an entered market that are sound: the margin is not used up by a borrow whose
debt is rounded up by one, and the oracle's excess does not show in the quotient. -/
def SafeEntered (c : LendoraChain) (oracle owner m : Address) (cached : List Address)
    (amount : Nat) : Prop :=
  let debt := c.sumBorrow owner + nativeValue (c.price m) amount
  let excess := c.excess oracle owner m cached amount
  ¬ (c.sumCollateral owner = debt ∧ c.price m * (c.borrow owner m + amount) / e18 =
      c.debt owner m + nativeValue (c.price m) amount + 1) ∧
    healthText (c.sumCollateral owner + excess) (debt + excess) =
      healthText (c.sumCollateral owner) debt

/-- The borrows in a market that is not entered that are sound: the collateral covers them all the
same, and counting the borrow itself as collateral does not show in the quotient. -/
def SafeFirst (c : LendoraChain) (oracle owner m : Address) (cached : List Address)
    (amount : Nat) : Prop :=
  let value := nativeValue (c.price m) amount
  let debt := c.sumBorrow owner + value
  let excess := c.excess oracle owner m cached amount
  debt ≤ c.sumCollateral owner + c.collateral owner m ∧
    healthText (c.sumCollateral owner + value + excess) (debt + excess) =
      healthText (c.sumCollateral owner + c.collateral owner m) debt

section Guard

variable {isListed : m ∈ c.listed} {sim : LendoraSimulation} {oracle : Address}
  {cached : List Address}

/-- The guard in a market entered. -/
theorem soundBorrow_entered (isEntered : m ∈ c.entered owner)
    (margin : 0 ≤ c.marginLeft owner m amount)
    (text : healthText (c.sumCollateral owner + c.excess oracle owner m cached amount)
      (c.sumBorrow owner + nativeValue (c.price m) amount + c.excess oracle owner m cached amount) =
        .ok sim.projectedHealthFactor) :
    SoundBorrow c owner m amount isListed sim ↔ SafeEntered c oracle owner m cached amount := by
  have rounded := nativeValue_add (c.price m) (c.borrow owner m) amount
  rw [LendoraChain.marginLeft, if_pos isEntered] at margin
  have collateralized : (c.afterBorrow owner m amount isListed).sumBorrow owner ≤
      (c.afterBorrow owner m amount isListed).sumCollateral owner ↔
      ¬ (c.sumCollateral owner = c.sumBorrow owner + nativeValue (c.price m) amount ∧
        c.price m * (c.borrow owner m + amount) / e18 =
          c.debt owner m + nativeValue (c.price m) amount + 1) := by
    have sameDebt : c.price m * c.borrow owner m / e18 = c.debt owner m := rfl
    rw [sumBorrow_entered isEntered, sumCollateral_entered isEntered]
    omega
  constructor
  · intro sound
    have projected := sound.projected
    rw [sumCollateral_entered isEntered] at projected
    exact ⟨collateralized.mp sound.collateralized, text.trans projected.symm⟩
  · intro safe
    refine ⟨collateralized.mpr safe.1, ?_⟩
    rw [sumCollateral_entered isEntered]
    exact safe.2.symm.trans text

/-- The guard in a new market. -/
theorem soundBorrow_first (notEntered : m ∉ c.entered owner) (borrows : c.BorrowsEntered owner)
    (text : healthText (c.sumCollateral owner + nativeValue (c.price m) amount +
        c.excess oracle owner m cached amount)
      (c.sumBorrow owner + nativeValue (c.price m) amount + c.excess oracle owner m cached amount) =
        .ok sim.projectedHealthFactor) :
    SoundBorrow c owner m amount isListed sim ↔ SafeFirst c oracle owner m cached amount := by
  constructor
  · intro sound
    have collateralized := sound.collateralized
    have projected := sound.projected
    rw [sumBorrow_first notEntered borrows, sumCollateral_first notEntered] at collateralized
    rw [sumCollateral_first notEntered] at projected
    exact ⟨collateralized, text.trans projected.symm⟩
  · intro safe
    constructor
    · rw [sumBorrow_first notEntered borrows, sumCollateral_first notEntered]
      exact safe.1
    · rw [sumCollateral_first notEntered]
      exact safe.2.symm.trans text

end Guard

/-- A complete cache misses no debt. -/
theorem missing_complete {cached : List Address} (complete : ∀ x ∈ c.listed, x ∈ cached) :
    c.missing owner cached = 0 :=
  missing_eq_zero.mpr fun x isEntered absent =>
    absurd (complete x (c.entered_listed owner x isEntered)) absent

/-- A borrow that is built is sound if and only if it is one of the safe ones: nothing stops a
first borrow in a market that is not entered from exceeding the collateral. -/
theorem borrow_guard_iff {deps : Deps} {evm : EvmDeps} {ctx : Context}
    {earlier c : LendoraChain} {input : LendoraBorrowInput} {out : LendoraTxOutput}
    {w₀ w₀' w w' : World} {refreshEvents events : Events}
    {cache : LendoraCache}
    (refreshed : Alone deps w₀ refresh refreshEvents w₀' (.ok cache))
    (readsEarlier : Reads earlier refreshEvents) (cached : w.lendora = cache)
    (complete : ∀ m ∈ c.listed, m ∈ cache.cTokens)
    (run : Alone deps w (lendoraBuildBorrowTx deps evm ctx input) events w' (.ok out))
    (reads : Reads c events)
    (borrows : ∀ owner, OwnedBy deps w ctx owner → c.BorrowsEntered owner) :
    ∃ owner m amount p, BorrowCall deps w ctx input owner m amount ∧ out.payload = some p ∧
      p.Calls m.cToken 0 (packBorrow amount) ∧ ∀ isListed : m.cToken ∈ c.listed,
        (SoundBorrow c owner m.cToken amount isListed out.simulation ↔
          if m.cToken ∈ c.entered owner then
            SafeEntered c cache.oracle owner m.cToken cache.cTokens amount
          else SafeFirst c cache.oracle owner m.cToken cache.cTokens amount) := by
  have refreshes := reads_gives refreshed readsEarlier
  have isSet := (refresh_ok refreshes).2.2
  obtain ⟨owner, m, amount, p, isCall, isPayload, calls, margin, debt, isDebt, text⟩ :=
    lendoraBuildBorrowTx_ok (reads_gives run reads)
  have borrowsEntered := borrows owner isCall.owned
  refine ⟨owner, m, amount, p, isCall, isPayload, calls, fun isListed => ?_⟩
  have debtIs : debt = c.sumBorrow owner + nativeValue (c.price m.cToken) amount +
      c.excess cache.oracle owner m.cToken cache.cTokens amount := by
    rw [isDebt, cached, LendoraCache.oracleOn, if_pos isSet,
      sumBorrow_split (refresh_nodup refreshes) borrowsEntered, missing_complete complete,
      LendoraChain.excess]
    omega
  rw [debtIs] at text
  by_cases isEntered : m.cToken ∈ c.entered owner
  · rw [if_pos isEntered]
    refine soundBorrow_entered isEntered margin ?_
    rw [← text, LendoraChain.marginLeft, if_pos isEntered]
    congr 1
    omega
  · rw [if_neg isEntered]
    refine soundBorrow_first isEntered borrowsEntered ?_
    rw [← text, LendoraChain.marginLeft, if_neg isEntered]
    congr 1
    omega

/-- A configuration with Lendora. -/
def lendEvm : EvmDeps := { meterEvm with comptroller := some (.ofBytes [11]) }

/-- Every account has a collateral of 50 in the first market; the second may be entered. -/
def oneCollateral (both : Bool) : LendoraChain where
  __ := twoMarkets
  borrow _ _ := 0
  entered _ := if both then [.ofBytes [1], .ofBytes [2]] else [.ofBytes [1]]
  entered_nodup _ := by cases both <;> decide
  entered_listed _ m member := by
    cases both with
    | true => exact member
    | false =>
      rw [List.mem_singleton.mp member]
      exact List.mem_cons_self

/-- The server after a refresh. -/
def lendWorld : World :=
  { meterWorld with
    lendora := cacheOf (runOn meterDeps twoMarkets twoSymbols meterWorld refresh).2.2 }

/-- The first market as the cache has it. -/
def firstMarket : Market := ⟨"USDC", .ofBytes [1], .ofBytes [1], 18, 18, false⟩

/-- The second market as the cache has it. -/
def secondMarket : Market := ⟨"USDT", .ofBytes [2], .ofBytes [2], 18, 18, false⟩

/-- The cache of that refresh, its keys spelled out. -/
def lendCache : LendoraCache where
  byKey := ((((∅ : Table String Market).set "usdc" firstMarket).set
    "0x0000000000000000000000000000000000000001" firstMarket).set "usdt" secondMarket).set
    "0x0000000000000000000000000000000000000002" secondMarket
  ordered := [firstMarket, secondMarket]
  oracle := twoMarkets.oracle
  oracleSet := true

-- The refresh hashes each address for its key; what is run on the cache below need not do so again.
/-- Its cache, written out. -/
theorem lendWorld_lendora : lendWorld.lendora = lendCache := by
  have entries : lendWorld.lendora.byKey.entries = lendCache.byKey.entries := by decide +kernel
  have ordered : lendWorld.lendora.ordered = lendCache.ordered := by decide +kernel
  have oracle : lendWorld.lendora.oracle = lendCache.oracle := by decide +kernel
  have oracleSet : lendWorld.lendora.oracleSet = lendCache.oracleSet := by decide +kernel
  generalize lendWorld.lendora = cache at entries ordered oracle oracleSet
  cases cache
  rw [LendoraCache.mk.injEq]
  exact ⟨AList.ext entries, ordered, oracle, oracleSet⟩

/-- It differs by its cache. -/
theorem lendWorld_eq : lendWorld = { meterWorld with lendora := lendCache } := by
  rw [← lendWorld_lendora]
  rfl

/-- A borrow in the second market. -/
def borrowRun (both : Bool) (amount : String) :
    Events × World × Except Fault LendoraTxOutput :=
  runOn meterDeps (oneCollateral both) twoSymbols lendWorld
    (lendoraBuildBorrowTx meterDeps lendEvm ownerContext
      ⟨"usdt", amount, "first"⟩)

/-- Whether a payload calls a contract with some data. -/
def callsWith (recipient : Address) (data : Bytes) (p : EVMTxPayload) : Bool :=
  match p.unsignedTx with
  | .ok tx => decide (tx.recipient = recipient ∧ tx.value = 0 ∧ tx.data = data)
  | .error _ => false

/-- The decided call is the call. -/
theorem calls_of_callsWith {recipient : Address} {data : Bytes} {p : EVMTxPayload}
    (calls : callsWith recipient data p = true) : p.Calls recipient 0 data := by
  cases isTx : p.unsignedTx with
  | error fault =>
    rw [callsWith, isTx] at calls
    cases calls
  | ok tx =>
    rw [callsWith, isTx] at calls
    exact ⟨tx, isTx, of_decide_eq_true calls⟩

/-- The payload of a run, if it returned one. -/
def payloadOf : Except Fault LendoraTxOutput → Option EVMTxPayload
  | .ok out => out.payload
  | .error _ => none

/-- A payload comes with an output. -/
theorem exists_of_payloadOf {result : Except Fault LendoraTxOutput} {p : EVMTxPayload}
    (isPayload : payloadOf result = some p) :
    ∃ out, result = .ok out ∧ out.payload = some p := by
  cases result with
  | error fault => cases isPayload
  | ok out => exact ⟨out, rfl, isPayload⟩

/-- It is what a refresh leaves. -/
theorem lendWorld_refreshed :
    Alone meterDeps meterWorld refresh (runOn meterDeps twoMarkets twoSymbols meterWorld refresh).1
      (runOn meterDeps twoMarkets twoSymbols meterWorld refresh).2.1 (.ok lendWorld.lendora) := by
  have isOk : (runOn meterDeps twoMarkets twoSymbols meterWorld refresh).2.2.isOk = true := by
    decide +kernel
  obtain ⟨cache, isCache⟩ := exists_of_isOk isOk
  have run := runOn_alone meterDeps twoMarkets twoSymbols meterWorld refresh
  rw [isCache] at run
  have same : lendWorld.lendora = cache := by
    rw [lendWorld, isCache]
    rfl
  rw [same]
  exact run

/-- The cache has no market twice. -/
theorem lendWorld_nodup : lendWorld.lendora.cTokens.Nodup :=
  refresh_nodup (reads_gives lendWorld_refreshed
    (runOn_reads meterDeps twoMarkets twoSymbols meterWorld refresh))

/-- Its cache is complete. -/
theorem lendWorld_complete (both : Bool) :
    ∀ m ∈ (oneCollateral both).listed, m ∈ lendWorld.lendora.cTokens := by
  change ∀ m ∈ twoMarkets.listed, m ∈ lendWorld.lendora.cTokens
  rw [lendWorld_lendora]
  decide

/-- The borrow is a run with no other request. -/
theorem borrowRun_ok {both : Bool} {amount : String} {out : LendoraTxOutput}
    (isOut : (borrowRun both amount).2.2 = .ok out) :
    Alone meterDeps lendWorld (lendoraBuildBorrowTx meterDeps lendEvm
      ownerContext ⟨"usdt", amount, "first"⟩) (borrowRun both amount).1
      (borrowRun both amount).2.1 (.ok out) := by
  have run := runOn_alone meterDeps (oneCollateral both) twoSymbols lendWorld
    (lendoraBuildBorrowTx meterDeps lendEvm ownerContext
      ⟨"usdt", amount, "first"⟩)
  rw [← borrowRun, isOut] at run
  exact run

/-- Nothing is owed there. -/
theorem oneCollateral_borrows (both : Bool) (owner : Address) :
    (oneCollateral both).BorrowsEntered owner :=
  fun _ owes => absurd owes (Nat.lt_irrefl 0)

/-- A borrow of 40 base units in the entered market. -/
theorem borrow_guard_iff_forty :
    ∃ out, (borrowRun true "0.000000000000000040").2.2 = .ok out ∧ ∃ owner m amount p,
      BorrowCall meterDeps lendWorld ownerContext
        ⟨"usdt", "0.000000000000000040", "first"⟩ owner m amount ∧ out.payload = some p ∧
      p.Calls m.cToken 0 (packBorrow amount) ∧
      ∀ isListed : m.cToken ∈ (oneCollateral true).listed,
        (SoundBorrow (oneCollateral true) owner m.cToken amount isListed out.simulation ↔
          if m.cToken ∈ (oneCollateral true).entered owner then
            SafeEntered (oneCollateral true) lendWorld.lendora.oracle owner m.cToken
              lendWorld.lendora.cTokens amount
          else SafeFirst (oneCollateral true) lendWorld.lendora.oracle owner m.cToken
            lendWorld.lendora.cTokens amount) := by
  have builds : (borrowRun true "0.000000000000000040").2.2.isOk = true := by
    rw [borrowRun, lendWorld_eq]
    decide +kernel
  obtain ⟨out, isOut⟩ := exists_of_isOk builds
  exact ⟨out, isOut, borrow_guard_iff lendWorld_refreshed
    (runOn_reads meterDeps twoMarkets twoSymbols meterWorld refresh) rfl (lendWorld_complete true)
    (borrowRun_ok isOut) (runOn_reads meterDeps (oneCollateral true) twoSymbols lendWorld _)
    (fun owner _ => oneCollateral_borrows true owner)⟩

/-- The guard is not sound: a first borrow of a whole token against a collateral of 50 base units
is built. -/
theorem borrow_guard_unsound :
    ¬ ∀ (deps : Deps) (evm : EvmDeps) (ctx : Context) (earlier c : LendoraChain)
      (input : LendoraBorrowInput) (out : LendoraTxOutput) (w₀ w₀' w w' : World)
      (refreshEvents events : Events) (cache : LendoraCache),
      Alone deps w₀ refresh refreshEvents w₀' (.ok cache) → Reads earlier refreshEvents →
      w.lendora = cache → (∀ m ∈ c.listed, m ∈ cache.cTokens) →
      Alone deps w (lendoraBuildBorrowTx deps evm ctx input) events w' (.ok out) →
      Reads c events → (∀ owner, OwnedBy deps w ctx owner → c.BorrowsEntered owner) →
      ∀ owner m amount p, BorrowCall deps w ctx input owner m amount → out.payload = some p →
        p.Calls m.cToken 0 (packBorrow amount) → ∀ isListed : m.cToken ∈ c.listed,
          SoundBorrow c owner m.cToken amount isListed out.simulation := by
  intro all
  have builds : (payloadOf (borrowRun false "1").2.2).any
      (callsWith (.ofBytes [2]) (packBorrow e18)) = true := by
    rw [borrowRun, lendWorld_eq]
    decide +kernel
  obtain ⟨p, built, calls⟩ := (Option.any_eq_true _ _).mp builds
  obtain ⟨out, isOut, isPayload⟩ := exists_of_payloadOf built
  have isCall : BorrowCall meterDeps lendWorld ownerContext
      ⟨"usdt", "1", "first"⟩ .zero secondMarket e18 := by
    refine ⟨⟨⟨"tenant", "svp1owner", [0], false⟩, ⟨_, 0, rfl, rfl⟩, _, rfl, rfl⟩, ?_⟩
    decide +kernel
  have sound := all meterDeps lendEvm ownerContext twoMarkets
    (oneCollateral false) ⟨"usdt", "1", "first"⟩ out meterWorld _ lendWorld _ _ _ _
    lendWorld_refreshed (runOn_reads meterDeps twoMarkets twoSymbols meterWorld refresh) rfl
    (lendWorld_complete false) (borrowRun_ok isOut)
    (runOn_reads meterDeps (oneCollateral false) twoSymbols lendWorld _)
    (fun owner _ => oneCollateral_borrows false owner) .zero secondMarket e18 p isCall isPayload
    (calls_of_callsWith calls) (List.mem_cons_of_mem _ List.mem_cons_self)
  exact absurd sound.collateralized (by decide +kernel)

end SvpMcp
