import SvpMcp.Verif.SwapPayloads

/-!
# Until when a swap is valid, and through which tokens

A duration is a 64-bit count of nanoseconds: from 9223372037 seconds on it wraps. Only two tokens
given by address are compared, so a swap of the native coin and WSVP has WSVP twice.
-/

namespace SvpMcp

open Handler Program Calendar

/-- How long a swap is to stay valid, in seconds. -/
def BuildSwapInput.validSeconds (input : BuildSwapInput) : Int :=
  if input.deadlineSec ≤ 0 then 1200 else input.deadlineSec

/-- The deadline of a swap is a word. -/
def BuildSwapInput.DeadlineFits (input : BuildSwapInput) (now : Time) : Prop :=
  0 ≤ unixSeconds now + input.validSeconds ∧ unixSeconds now + input.validSeconds < 2 ^ 256

/-- One token is the native coin and the other WSVP. -/
def SwapTerms.Wraps (terms : SwapTerms) : Prop :=
  (terms.tokenIn = .native ∧ terms.tokenOut = .erc20 terms.wsvp) ∨
    (terms.tokenIn = .erc20 terms.wsvp ∧ terms.tokenOut = .native)

/-- A wrapped duration differs by a multiple of its range, which is no multiple of the word's. -/
theorem wrapped_deadline_iff {now seconds : Int} (positive : 0 < seconds)
    (range : seconds < 2 ^ 63) :
    (now + (seconds * 1000000000).bmod (2 ^ 64)) / 1000000000 % 2 ^ 256 =
        now / 1000000000 + seconds ↔
      seconds ≤ 9223372036 ∧ 0 ≤ now / 1000000000 + seconds ∧
        now / 1000000000 + seconds < 2 ^ 256 := by
  have low : -(2 ^ 63) ≤ (seconds * 1000000000).bmod (2 ^ 64) := Int.le_bmod (by decide)
  have high : (seconds * 1000000000).bmod (2 ^ 64) < 2 ^ 63 := Int.bmod_lt (by decide)
  have wrapped := Int.bmod_add_bdiv (seconds * 1000000000) (2 ^ 64)
  generalize (seconds * 1000000000).bmod (2 ^ 64) = duration at low high wrapped ⊢
  generalize (seconds * 1000000000).bdiv (2 ^ 64) = turns at wrapped
  by_cases short : seconds ≤ 9223372036
  · have unwrapped : turns = 0 := by omega
    have whole : (now + duration) / 1000000000 = now / 1000000000 + seconds := by omega
    rw [whole]
    generalize now / 1000000000 + seconds = deadline
    omega
  · have turned : 1 ≤ turns ∧ turns < 2 ^ 30 := by omega
    have earlier : (now + duration) / 1000000000 < now / 1000000000 + seconds := by omega
    have near : now / 1000000000 + seconds - 2 ^ 64 < (now + duration) / 1000000000 := by omega
    generalize (now + duration) / 1000000000 = encoded at earlier near ⊢
    generalize now / 1000000000 + seconds = asked at earlier near ⊢
    omega

/-- The encoded deadline is the one asked for exactly where the duration does not wrap and the
deadline is a word. -/
theorem deadlineWord_swapDeadline_iff {input : BuildSwapInput} (now : Time)
    (range : input.deadlineSec < 2 ^ 63) :
    (deadlineWord (swapDeadline now input.deadlineSec) : Int) =
        unixSeconds now + input.validSeconds ↔
      input.validSeconds ≤ 9223372036 ∧ input.DeadlineFits now := by
  have isSeconds : input.validSeconds =
      if input.deadlineSec ≤ 0 then defaultSwapDeadline else input.deadlineSec := rfl
  have positive : 0 < input.validSeconds := by
    unfold BuildSwapInput.validSeconds
    split <;> omega
  have bounded : input.validSeconds < 2 ^ 63 := by
    unfold BuildSwapInput.validSeconds
    split <;> omega
  have nonneg : 0 ≤ swapDeadline now input.deadlineSec % 2 ^ 256 := Int.emod_nonneg _ (by decide)
  rw [deadlineWord, Int.toNat_of_nonneg nonneg, swapDeadline, ← isSeconds]
  exact wrapped_deadline_iff positive bounded

/-- The tokens of a path are distinct unless the native coin is swapped for WSVP or back. -/
theorem resolveSwapPlan_distinct_iff {terms : SwapTerms}
    (isPlan : resolveSwapPlan terms.tokenIn terms.tokenOut terms.wsvp = .ok terms.plan) :
    (∃ first last, terms.plan.path = [first, last] ∧ first ≠ last) ↔ ¬ terms.Wraps := by
  unfold SwapTerms.Wraps
  cases isIn : terms.tokenIn with
  | native =>
    cases isOut : terms.tokenOut with
    | native =>
      rw [isIn, isOut] at isPlan
      cases isPlan
    | erc20 outAddr =>
      rw [isIn, isOut] at isPlan
      have isPath : terms.plan.path = [terms.wsvp, outAddr] :=
        congrArg SwapPlan.path (Except.ok.inj isPlan).symm
      simp [isPath, eq_comm]
  | erc20 inAddr =>
    cases isOut : terms.tokenOut with
    | native =>
      rw [isIn, isOut] at isPlan
      have isPath : terms.plan.path = [inAddr, terms.wsvp] :=
        congrArg SwapPlan.path (Except.ok.inj isPlan).symm
      simp [isPath]
    | erc20 outAddr =>
      rw [isIn, isOut, resolveSwapPlan] at isPlan
      by_cases same : inAddr = outAddr
      · rw [if_pos same] at isPlan
        cases isPlan
      · rw [if_neg same] at isPlan
        have isPath : terms.plan.path = [inAddr, outAddr] :=
          congrArg SwapPlan.path (Except.ok.inj isPlan).symm
        simp [isPath, same]

/-- The router's call of a swap that is built: its deadline is computed from what the clock showed,
and its path is that of the plan. -/
theorem buildSwap_deadline {deps : Deps} {w w' : World} {ctx : Context}
    {input : BuildSwapInput} {output : BuildSwapOutput}
    {events : Events}
    (run : Alone deps w (buildSwap deps ctx input) events w' (.ok output)) :
    ∃ (terms : SwapTerms) (now : Time) (tx : DynamicFeeTx) (call : RouterCall),
      terms.Agreed deps w ctx input events ∧ ClockRead events now ∧
      output.payload.unsignedTx = .ok tx ∧ readRouterCall tx.data = some call ∧
      call.deadline = deadlineWord (swapDeadline now input.deadlineSec) ∧
      call.path = terms.plan.path := by
  obtain ⟨terms, agreed, now, isNow, ⟨tx, isTx, _, _, data⟩, _⟩ :=
    buildSwap_ok (alone_gives run)
  obtain ⟨pair, _, _, _, _⟩ := resolveSwapPlan_ok agreed.isPlan
  obtain ⟨amountIn, minOut, isIn, _, inFits, isMin, _, minFits⟩ := agreed.words
  have read := readRouterCall_routerData terms.plan terms.owner
    (swapDeadline now input.deadlineSec) pair inFits minFits
  rw [isIn, isMin] at data
  exact ⟨terms, now, tx, _, agreed, isNow, isTx, data ▸ read, rfl, rfl⟩

/-- The encoded deadline of a swap is the current second plus the seconds asked for, and its path
has two distinct tokens, exactly where the duration does not wrap, the deadline is a word, and the
swap is not between the native coin and WSVP. -/
theorem swap_deadline_and_path_iff {deps : Deps} {w w' : World} {ctx : Context}
    {input : BuildSwapInput} {output : BuildSwapOutput}
    {events : Events} (range : input.deadlineSec < 2 ^ 63)
    (run : Alone deps w (buildSwap deps ctx input) events w' (.ok output)) :
    ∃ (terms : SwapTerms) (now : Time) (tx : DynamicFeeTx) (call : RouterCall),
      terms.Agreed deps w ctx input events ∧ ClockRead events now ∧
      output.payload.unsignedTx = .ok tx ∧ readRouterCall tx.data = some call ∧
      call.deadline = deadlineWord (swapDeadline now input.deadlineSec) ∧
      (((call.deadline : Int) = unixSeconds now + input.validSeconds ∧
          ∃ first last, call.path = [first, last] ∧ first ≠ last) ↔
        (input.validSeconds ≤ 9223372036 ∧ input.DeadlineFits now) ∧ ¬ terms.Wraps) := by
  obtain ⟨terms, now, tx, call, agreed, isNow, isTx, read, isDeadline, isPath⟩ :=
    buildSwap_deadline run
  refine ⟨terms, now, tx, call, agreed, isNow, isTx, read, isDeadline, ?_⟩
  rw [isDeadline, isPath]
  exact and_congr (deadlineWord_swapDeadline_iff now range)
    (resolveSwapPlan_distinct_iff agreed.isPlan)

/-- A swap of the native coin for USDV that is to stay valid for some seconds. -/
def lastingSwap (seconds : Int) : BuildSwapInput := { nativeSwap with deadlineSec := seconds }

/-- What building such a swap does. -/
def lastingRun (seconds : Int) :=
  runAlone (server meterDeps) (fun _ => quotingEnv) 0 meterWorld
    (buildSwap meterDeps ownerContext (lastingSwap seconds))

/-- A swap that is valid for a minute. -/
theorem swap_deadline_and_path_iff_minute : ∃ output, (lastingRun 60).2.2 = .ok output ∧
    ∃ (terms : SwapTerms) (now : Time) (tx : DynamicFeeTx) (call : RouterCall),
      terms.Agreed meterDeps meterWorld ownerContext (lastingSwap 60)
        (lastingRun 60).1 ∧ ClockRead (lastingRun 60).1 now ∧
      output.payload.unsignedTx = .ok tx ∧ readRouterCall tx.data = some call ∧
      call.deadline = deadlineWord (swapDeadline now 60) ∧
      (((call.deadline : Int) = unixSeconds now + 60 ∧
          ∃ first last, call.path = [first, last] ∧ first ≠ last) ↔
        ((60 : Int) ≤ 9223372036 ∧ (lastingSwap 60).DeadlineFits now) ∧ ¬ terms.Wraps) := by
  obtain ⟨output, isOutput⟩ := exists_of_isOk
    (show (lastingRun 60).2.2.isOk = true by decide +kernel)
  have run := alone_runAlone meterDeps (fun _ => quotingEnv) 0 meterWorld
    (buildSwap meterDeps ownerContext (lastingSwap 60))
  rw [← lastingRun, isOutput] at run
  exact ⟨output, isOutput, swap_deadline_and_path_iff (by decide) run⟩

/-- A swap whose duration wraps is built, with another deadline than the one asked for. -/
theorem wrapped_swap_is_built : ∃ output, (lastingRun 18446744074).2.2 = .ok output ∧
    ∃ (now : Time) (tx : DynamicFeeTx) (call : RouterCall),
      ClockRead (lastingRun 18446744074).1 now ∧
      output.payload.unsignedTx = .ok tx ∧ readRouterCall tx.data = some call ∧
      (call.deadline : Int) ≠ unixSeconds now + 18446744074 := by
  obtain ⟨output, isOutput⟩ := exists_of_isOk
    (show (lastingRun 18446744074).2.2.isOk = true by decide +kernel)
  have run := alone_runAlone meterDeps (fun _ => quotingEnv) 0 meterWorld
    (buildSwap meterDeps ownerContext (lastingSwap 18446744074))
  rw [← lastingRun, isOutput] at run
  obtain ⟨_, now, tx, call, _, isNow, isTx, read, isDeadline, _⟩ := buildSwap_deadline run
  refine ⟨output, isOutput, now, tx, call, isNow, isTx, read, fun asked => ?_⟩
  rw [isDeadline] at asked
  have range : (lastingSwap 18446744074).deadlineSec < 2 ^ 63 := by decide
  have unwrapped := ((deadlineWord_swapDeadline_iff now range).mp asked).1
  exact absurd unwrapped (by decide)

end SvpMcp
