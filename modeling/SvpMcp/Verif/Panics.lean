import SvpMcp.Model.LendoraStats
import SvpMcp.Model.OraclePrice
import SvpMcp.Verif.Surroundings

/-!
# Where a handler panics

In surroundings that stand still a handler panics at the first of its steps that does, and a loop at
the first turn. Reads and refusals cannot panic.
-/

namespace SvpMcp

open Handler

section
variable {α β : Type} (deps : Deps) (w : World) (env : Env)

/-- A handler that returns a result or an error. -/
def Calm (h : Handler α) : Prop :=
  ∀ reason, resultIn deps w env h ≠ .error (.panic reason)

/-- A loop gets to an item: the turns before it return a state. -/
def GetsTo (loop : List β → α → Handler α) (items : List β) (start : α) (item : β) (state : α) :
    Prop :=
  ∃ before rest, items = before ++ item :: rest ∧
    resultIn deps w env (loop before start) = .ok state

variable {deps w env} {h : Handler α} {next : α → Handler β} {items : List β} {fault : Fault}

/-- A sequence fails in its first step or behind it. -/
@[simp]
theorem resultIn_bind_error :
    resultIn deps w env (h >>= next) = .error fault ↔
      resultIn deps w env h = .error fault ∨
        ∃ value, resultIn deps w env h = .ok value ∧
          resultIn deps w env (next value) = .error fault := by
  rw [resultIn_sequence, bind_eq_error]

/-- A function of a handler's value fails when the handler does. -/
@[simp]
theorem resultIn_map_error {f : α → β} :
    resultIn deps w env (f <$> h) = .error fault ↔ resultIn deps w env h = .error fault := by
  rw [map_eq_pure_bind, resultIn_bind_error]
  simp only [resultIn_pure, reduceCtorEq, and_false, exists_false, or_false]

section
variable {loop : List β → α → Handler α} {turn : β → α → Handler α}
  (isEmpty : ∀ state, loop [] state = pure state)
  (isTurn : ∀ item rest state, loop (item :: rest) state = turn item state >>= loop rest)
include isEmpty isTurn

/-- A loop that fails gets to an item whose turn fails. -/
theorem loop_stops {start : α} (fails : resultIn deps w env (loop items start) = .error fault) :
    ∃ item state, GetsTo deps w env loop items start item state ∧
      resultIn deps w env (turn item state) = .error fault := by
  induction items generalizing start with
  | nil =>
    rw [isEmpty] at fails
    cases fails
  | cons first items ih =>
    rw [isTurn] at fails
    rcases resultIn_bind_error.mp fails with here | ⟨state, passed, later⟩
    · have done : resultIn deps w env (loop [] start) = .ok start := by
        rw [isEmpty]
        rfl
      exact ⟨first, start, ⟨[], items, rfl, done⟩, here⟩
    · obtain ⟨item, last, ⟨before, rest, split, done⟩, stops⟩ := ih later
      refine ⟨item, last, ⟨first :: before, rest, congrArg (first :: ·) split, ?_⟩, stops⟩
      rw [isTurn, resultIn_step passed]
      exact done

/-- A loop that gets to an item whose turn fails ends there. -/
theorem loop_ends {start state : α} {item : β}
    (reached : GetsTo deps w env loop items start item state)
    (fails : resultIn deps w env (turn item state) = .error fault) :
    resultIn deps w env (loop items start) = .error fault := by
  obtain ⟨before, rest, split, done⟩ := reached
  rw [split]
  exact resultIn_loop_fails isEmpty isTurn done fails

/-- A loop gets to one item whose turn fails, in one state. -/
theorem loop_stops_once {start state state' : α} {item item' : β} {fault fault' : Fault}
    (reached : GetsTo deps w env loop items start item state)
    (fails : resultIn deps w env (turn item state) = .error fault)
    (reached' : GetsTo deps w env loop items start item' state')
    (fails' : resultIn deps w env (turn item' state') = .error fault') :
    item = item' ∧ state = state' := by
  obtain ⟨before, rest, split, done⟩ := reached
  obtain ⟨before', rest', split', done'⟩ := reached'
  rw [split] at split'
  clear split
  induction before generalizing before' start with
  | nil =>
    rw [isEmpty] at done
    cases done
    cases before' with
    | nil =>
      rw [isEmpty] at done'
      cases done'
      cases split'
      exact ⟨rfl, rfl⟩
    | cons first before' =>
      -- The first turn fails on one side and has returned on the other.
      cases split'
      rw [isTurn] at done'
      obtain ⟨_, passed, _⟩ := resultIn_bind.mp done'
      rw [passed] at fails
      cases fails
  | cons first before ih =>
    rw [isTurn] at done
    obtain ⟨mid, passed, done⟩ := resultIn_bind.mp done
    cases before' with
    | nil =>
      cases split'
      rw [isEmpty] at done'
      cases done'
      rw [passed] at fails'
      cases fails'
    | cons first' before' =>
      obtain ⟨sameFirst, tails⟩ := List.cons.inj split'
      subst sameFirst
      rw [isTurn] at done'
      obtain ⟨mid', passed', done'⟩ := resultIn_bind.mp done'
      cases passed.symm.trans passed'
      exact ih done before' tails done'

end

end

section
variable {deps : Deps} {w : World} {env : Env} {reason : String}

/-- A result panics nowhere. -/
@[simp]
theorem ofResult_calm {α : Type} (result : Except Err α) :
    resultIn deps w env (ofResult result) ≠ .error (.panic reason) := by
  cases result with
  | ok value => exact fun panics => nomatch panics
  | error e => exact fun panics => nomatch panics

/-- Neither does a requirement. -/
@[simp]
theorem require_calm (condition : Bool) (e : Err) :
    resultIn deps w env (require condition e) ≠ .error (.panic reason) := by
  cases condition <;> simp [require]

/-- Neither does the authorization. -/
@[simp]
theorem authorize_calm (ctx : Context) (tool : String) :
    resultIn deps w env (authorize ctx tool) ≠ .error (.panic reason) := by
  cases ctx <;> simp [authorize, checkTenant]

/-- Neither does a read of an EVM node. -/
@[simp]
theorem evmRead_calm (client : EvmClient) (query : EvmQuery) (format : String)
    (operands : List String) :
    resultIn (α := no_index (EvmAnswer query)) deps w env (evmRead client query format operands) ≠
      .error (.panic reason) := by
  simp [evmRead]

/-- Neither does a read of the lending market. -/
@[simp]
theorem lendoraRead_calm (query : LendoraQuery) (method : String)
    (context : Option (String × List String)) :
    resultIn (α := no_index (LendoraAnswer query)) deps w env (lendoraRead query method context) ≠
      .error (.panic reason) := by
  simp [lendoraRead]

/-- Neither does the read of the markets entered. -/
@[simp]
theorem lendoraAssetsInSet_calm (owner : Address) :
    resultIn deps w env (lendoraAssetsInSet owner) ≠ .error (.panic reason) :=
  lendoraRead_calm _ _ _

/-- Neither does the read of a price. -/
@[simp]
theorem cTokenUnderlyingPriceNative_calm (oracle cToken : Address) :
    resultIn deps w env (cTokenUnderlyingPriceNative oracle cToken) ≠ .error (.panic reason) :=
  lendoraRead_calm _ _ _

/-- Neither does the read of a collateral factor. -/
@[simp]
theorem cTokenCollateralFactor_calm (cToken : Address) :
    resultIn deps w env (cTokenCollateralFactor cToken) ≠ .error (.panic reason) :=
  lendoraRead_calm _ _ _

/-- Neither does a check that a tool is enabled. -/
@[simp]
theorem requireSwap_calm : resultIn deps w env (requireSwap deps) ≠ .error (.panic reason) := by
  cases isUniswap : deps.uniswap <;> simp [requireSwap, requireEVM, isUniswap]

/-- Neither does the check of the oracle. -/
@[simp]
theorem requireOracle_calm (oracle : Option Address) :
    resultIn deps w env (requireOracle deps oracle) ≠ .error (.panic reason) := by
  cases oracle <;> simp [requireOracle, requireEVM]

/-- Neither does the check of the lending market. -/
@[simp]
theorem requireLendora_calm (evm : EvmDeps) :
    resultIn deps w env (requireLendora deps evm) ≠ .error (.panic reason) := by
  simp [requireLendora, requireEVM]

/-- Neither does a step of a swap whose answer is decoded. -/
@[simp]
theorem tokenDecimals_calm (token : SwapToken) :
    resultIn deps w env (tokenDecimals token) ≠ .error (.panic reason) := by
  cases token <;> simp [tokenDecimals, erc20DecimalsOn]

/-- Neither does a quote. -/
@[simp]
theorem quoteExpectedOut_calm (router : Address) (amountIn : Int) (path : List Address) :
    resultIn deps w env (quoteExpectedOut router amountIn path) ≠ .error (.panic reason) := by
  simp [quoteExpectedOut]

/-- Neither does the check of an allowance. -/
@[simp]
theorem checkAllowance_calm (router owner : Address) (amountIn : Int) (amountHuman : String)
    (token : SwapToken) :
    resultIn deps w env (checkAllowance router owner amountIn amountHuman token) ≠
      .error (.panic reason) := by
  cases token <;> simp [checkAllowance]

/-- Neither does the assembling of a payload. -/
@[simp]
theorem assembleEVM_calm (client : EvmClient) (args : EVMArgs) :
    resultIn deps w env (assembleEVM client args) ≠ .error (.panic reason) := by
  simp [assembleEVM]

/-- The block number is the node's, or zero. -/
@[simp]
theorem resultIn_evmBlockNumber :
    resultIn deps w env evmBlockNumber = .ok ((env.evm homeClient .blockNumber).toOption.getD 0) :=
  rfl

/-- Neither does the read of the oracle. -/
@[simp]
theorem lendoraOracle_calm : resultIn deps w env lendoraOracle ≠ .error (.panic reason) := by
  simp [lendoraOracle]
  split <;> simp

/-- Neither does the read of a feed. -/
@[simp]
theorem underlyingUsdPrice_calm (oracle cToken : Address) :
    resultIn deps w env (underlyingUsdPrice oracle cToken) ≠ .error (.panic reason) := by
  simp [underlyingUsdPrice]
  intro feed _
  split <;> simp [feedPrice]

end

end SvpMcp
