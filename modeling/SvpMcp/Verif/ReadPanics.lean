import SvpMcp.Verif.Approvals
import SvpMcp.Verif.Panics

/-!
# Decimals that crash a read

The tools show amounts with the decimals a contract reports, through a constructor that panics
beyond eighteen, and value them in bounded arithmetic. Here are the swaps and the oracle's price.
-/

namespace SvpMcp

open Handler

/-- A number a tool shows: an amount in human units, or the value of an amount at a price. -/
inductive Shown where
  | amount (n decimals : Int)
  | value (n decimals answer feedDecimals : Int)

namespace Shown

/-- The panic of showing a number. -/
def Panics (reason : String) : Shown → Prop
  | amount n decimals => humanOut n decimals = .error (.panic reason)
  | value n decimals answer feedDecimals =>
    usdFromFeed n decimals answer feedDecimals = .error (.panic reason)

/-- The decimals a constructor accepts. -/
def AtMost18 (decimals : Int) : Prop := 0 ≤ decimals ∧ decimals ≤ 18

/-- The numbers that can be shown. -/
def Safe : Shown → Prop
  | amount n decimals => n.natAbs < 2 ^ 256 ∧ AtMost18 decimals
  | value n decimals answer feedDecimals =>
    AtMost18 decimals ∧ AtMost18 feedDecimals ∧
      (LegacyDec.chopRound (n * 10 ^ (18 - decimals.toNat) *
        (answer * 10 ^ (18 - feedDecimals.toNat)))).natAbs < LegacyDec.limit

end Shown

/-- The constructor of a decimal accepts up to eighteen decimals. -/
theorem ofIntWithPrec_cases (n decimals : Int) :
    (Shown.AtMost18 decimals ∧
      LegacyDec.ofIntWithPrec n decimals = .ok ⟨n * 10 ^ (18 - decimals.toNat)⟩) ∨
    (¬ Shown.AtMost18 decimals ∧
      ∃ reason, LegacyDec.ofIntWithPrec n decimals = .error reason) := by
  unfold Shown.AtMost18 LegacyDec.ofIntWithPrec LegacyDec.precision
  by_cases negative : decimals < 0
  · rw [if_pos negative]
    exact Or.inr ⟨by omega, _, rfl⟩
  · by_cases long : ((18 : Nat) : Int) < decimals
    · rw [if_neg negative, if_pos long]
      exact Or.inr ⟨by omega, _, rfl⟩
    · rw [if_neg negative, if_neg long]
      exact Or.inl ⟨by omega, rfl⟩

/-- The amounts that cannot be shown. -/
theorem humanOut_panics_iff (n decimals : Int) :
    (∃ reason, humanOut n decimals = .error (.panic reason)) ↔
      ¬ (Shown.amount n decimals).Safe := by
  unfold humanOut humanAmount LegacyDec.fitsInt Shown.Safe
  by_cases small : n.natAbs < 2 ^ 256
  · rw [if_pos (decide_eq_true small)]
    rcases ofIntWithPrec_cases n decimals with ⟨atMost, isDec⟩ | ⟨beyond, reason, refused⟩
    · rw [isDec]
      refine iff_of_false ?_ (not_not.mpr ⟨small, atMost⟩)
      rintro ⟨reason, isError⟩
      cases isError
    · rw [refused]
      exact iff_of_true ⟨reason, rfl⟩ fun safe => beyond safe.2
  · rw [if_neg (fun fits => small (of_decide_eq_true fits))]
    exact iff_of_true ⟨_, rfl⟩ fun safe => small safe.1

/-- The units out of bounds. -/
theorem ofUnits_panics_iff (n : Int) :
    (∃ reason, decimal (LegacyDec.ofUnits n) = .error (.panic reason)) ↔
      ¬ n.natAbs < LegacyDec.limit := by
  unfold LegacyDec.ofUnits LegacyDec.fits
  by_cases bounded : n.natAbs < LegacyDec.limit
  · rw [if_pos (decide_eq_true bounded)]
    refine iff_of_false ?_ (not_not.mpr bounded)
    rintro ⟨reason, isError⟩
    cases isError
  · rw [if_neg (fun fits => bounded (of_decide_eq_true fits))]
    exact iff_of_true ⟨_, rfl⟩ bounded

/-- The values that cannot be shown. -/
theorem usdFromFeed_panics_iff (n decimals answer feedDecimals : Int) :
    (∃ reason, usdFromFeed n decimals answer feedDecimals = .error (.panic reason)) ↔
      ¬ (Shown.value n decimals answer feedDecimals).Safe := by
  rw [usdFromFeed, Shown.Safe]
  rcases ofIntWithPrec_cases n decimals with ⟨atMost, isAmount⟩ | ⟨beyond, reason, refused⟩
  · rw [isAmount]
    rcases ofIntWithPrec_cases answer feedDecimals with
      ⟨priced, isPrice⟩ | ⟨beyond, reason, refused⟩
    · have product : ∀ a b : Int, (do
          let amt ← (Except.ok ⟨a⟩ : Except String LegacyDec).mapError Fault.panic
          let price ← (Except.ok ⟨b⟩ : Except String LegacyDec).mapError Fault.panic
          decimal (amt.mul price)) =
            decimal (LegacyDec.ofUnits (LegacyDec.chopRound (a * b))) := by
        intro a b
        rfl
      rw [isPrice, product, and_iff_right atMost, and_iff_right priced, ofUnits_panics_iff]
    · rw [refused]
      exact iff_of_true ⟨reason, rfl⟩ fun safe => beyond safe.2.1
  · rw [refused]
    exact iff_of_true ⟨reason, rfl⟩ fun safe => beyond safe.1

/-- A number panics exactly when it is not safe. -/
theorem Shown.panics_iff (s : Shown) : (∃ reason, s.Panics reason) ↔ ¬ s.Safe := by
  cases s with
  | amount n decimals => exact humanOut_panics_iff n decimals
  | value n decimals answer feedDecimals =>
    exact usdFromFeed_panics_iff n decimals answer feedDecimals

/-- Every panic of a result is one of these. -/
def PanicsOnly {α : Type} (elsewhere : String → Prop) (result : Except Fault α) : Prop :=
  ∀ reason, result = .error (.panic reason) → elsewhere reason

/-- A tool panics in showing a number it gets to, or elsewhere, and never in both. -/
structure PanicsAt {α : Type} (shows : Shown → Prop) (elsewhere : String → Prop)
    (result : Except Fault α) : Prop where
  /-- A number that cannot be shown ends the tool. -/
  ends : ∀ s reason, shows s → s.Panics reason → result = .error (.panic reason)
  /-- There is no third place. -/
  found : ∀ reason, result = .error (.panic reason) →
    (∃ s, shows s ∧ s.Panics reason) ∨ elsewhere reason
  /-- A tool that panics in showing a number panics nowhere else. -/
  apart : ∀ s reason, shows s → s.Panics reason → ¬ elsewhere reason

/-- All panics come from elsewhere exactly when what a tool gets to show is safe. -/
theorem PanicsAt.only_iff {α : Type} {reached : Shown → Prop} {elsewhere : String → Prop}
    {result : Except Fault α} (located : PanicsAt reached elsewhere result) :
    PanicsOnly elsewhere result ↔ ∀ s, reached s → s.Safe := by
  constructor
  · intro only s isReached
    by_contra notSafe
    obtain ⟨reason, panics⟩ := s.panics_iff.mpr notSafe
    have fails := located.ends s reason isReached panics
    exact located.apart s reason isReached panics (only reason fails)
  · intro safe reason fails
    rcases located.found reason fails with ⟨s, isReached, panics⟩ | other
    · exact absurd (safe s isReached) (s.panics_iff.mp ⟨reason, panics⟩)
    · exact other

section
variable (deps : Deps) (w : World) (env : Env) (ctx : Context)

/-- A swap tool is let in, and the pair has a plan. -/
structure SwapStart (tool tokenIn tokenOut : String) (tp : TenantPolicy) (router : Address)
    (inToken outToken : SwapToken) (plan : SwapPlan) : Prop where
  admitted : resultIn deps w env (authorize ctx tool) = .ok tp
  isIn : parseSwapToken tokenIn = .ok inToken
  isOut : parseSwapToken tokenOut = .ok outToken
  isPlan : ∃ wsvp, resultIn deps w env (requireSwap deps) = .ok (router, wsvp) ∧
    resolveSwapPlan inToken outToken wsvp = .ok plan

/-- The conversion of the amount given panics. -/
def AmountPanics (tokenIn amountIn reason : String) : Prop :=
  ∃ token decimals, parseSwapToken tokenIn = .ok token ∧
    resultIn deps w env (tokenDecimals token) = .ok decimals ∧
    humanToBaseUnits amountIn decimals = .error (.panic reason)

/-- What `QuoteSwap` shows: the quoted output with the decimals of the token taken. -/
inductive QuoteShows (tokenIn tokenOut amountIn : String) : Shown → Prop
  | expectedOut {tp : TenantPolicy} {router : Address} {inToken outToken : SwapToken}
      {plan : SwapPlan} {decIn base out decOut : Int}
      (start : SwapStart deps w env ctx "quote_swap" tokenIn tokenOut tp router inToken outToken
        plan)
      (decimalsIn : resultIn deps w env (tokenDecimals inToken) = .ok decIn)
      (isBase : humanToBaseUnits amountIn decIn = .ok base)
      (quoted : resultIn deps w env (quoteExpectedOut router base plan.path) = .ok out)
      (decimalsOut : resultIn deps w env (tokenDecimals outToken) = .ok decOut) :
      QuoteShows tokenIn tokenOut amountIn (.amount out decOut)

/-- `BuildSwap` gets to the amounts it shows: the quoted output, the least output and the decimals
of the token taken. -/
inductive SwapReached (input : BuildSwapInput) : Int → Int → Int → Prop
  | intro {tp : TenantPolicy} {router sender : Address} {inToken outToken : SwapToken}
      {plan : SwapPlan} {decIn base out least decOut : Int}
      (start : SwapStart deps w env ctx "build_swap" input.tokenIn input.tokenOut tp router inToken
        outToken plan)
      (isSender : ownerEthAddress deps.codec tp.owner = .ok sender)
      (decimalsIn : resultIn deps w env (tokenDecimals inToken) = .ok decIn)
      (isBase : humanToBaseUnits input.amountIn decIn = .ok base)
      (allowed : resultIn deps w env
        (checkAllowance router sender base input.amountIn inToken) = .ok ())
      (quoted : resultIn deps w env (quoteExpectedOut router base plan.path) = .ok out)
      (isLeast : applySlippage out
        (if input.slippageBps = 0 then defaultSlippageBps else input.slippageBps) = .ok least)
      (positive : 0 < least) (packed : 0 ≤ swapDeadline env.now input.deadlineSec)
      (decimalsOut : resultIn deps w env (tokenDecimals outToken) = .ok decOut) :
      SwapReached input out least decOut

/-- What `BuildSwap` shows: the least output, and behind it the quoted one. -/
inductive SwapShows (input : BuildSwapInput) : Shown → Prop
  | minOut {out least decOut : Int} (reached : SwapReached deps w env ctx input out least decOut) :
      SwapShows input (.amount least decOut)
  | expectedOut {out least decOut : Int} {text : String}
      (reached : SwapReached deps w env ctx input out least decOut)
      (first : humanOut least decOut = .ok text) : SwapShows input (.amount out decOut)

variable {deps w env ctx}

/-- The conversion of an amount is where it panics. -/
@[simp]
theorem baseAmount_panics_iff {argument human reason : String} {decimals : Int} :
    resultIn deps w env (baseAmount argument human decimals) = .error (.panic reason) ↔
      humanToBaseUnits human decimals = .error (.panic reason) := by
  rw [baseAmount, resultIn_ofCall, wrapFault]
  cases humanToBaseUnits human decimals with
  | ok amount => exact iff_of_false (by intro fails; cases fails) (by intro fails; cases fails)
  | error fault =>
    cases fault with
    | error e => exact iff_of_false (by intro fails; cases fails) (by intro fails; cases fails)
    | panic found => exact Iff.rfl

/-- An amount that is converted does not panic. -/
theorem not_amountPanics {tokenIn amountIn reason : String} {token : SwapToken}
    {decimals base : Int} (isIn : parseSwapToken tokenIn = .ok token)
    (decimalsIn : resultIn deps w env (tokenDecimals token) = .ok decimals)
    (isBase : humanToBaseUnits amountIn decimals = .ok base) :
    ¬ AmountPanics deps w env tokenIn amountIn reason := by
  rintro ⟨token', decimals', isIn', decimalsIn', panics⟩
  cases isIn.symm.trans isIn'
  cases decimalsIn.symm.trans decimalsIn'
  rw [isBase] at panics
  cases panics

section
variable {tokenIn tokenOut amountIn : String}

/-- The quoted output ends `QuoteSwap`. -/
theorem quoteSwap_ends (s : Shown) (reason : String)
    (isShown : QuoteShows deps w env ctx tokenIn tokenOut amountIn s) (panics : s.Panics reason) :
    resultIn deps w env (quoteSwap deps ctx tokenIn tokenOut amountIn) =
      .error (.panic reason) := by
  cases isShown with
  | expectedOut start decimalsIn isBase quoted decimalsOut =>
    obtain ⟨admitted, isIn, isOut, wsvp, enabled, isPlan⟩ := start
    simp [quoteSwap, -resultIn_authorize]
    exact ⟨⟨_, admitted⟩, _, _, enabled, _, isIn, _, isOut, _, isPlan, _, decimalsIn,
      .inr ⟨_, isBase, _, quoted, _, decimalsOut, panics⟩⟩

/-- It panics there or in the amount given. -/
theorem quoteSwap_found (reason : String)
    (panics : resultIn deps w env (quoteSwap deps ctx tokenIn tokenOut amountIn) =
      .error (.panic reason)) :
    (∃ s, QuoteShows deps w env ctx tokenIn tokenOut amountIn s ∧ s.Panics reason) ∨
      AmountPanics deps w env tokenIn amountIn reason := by
  simp [quoteSwap, -resultIn_authorize] at panics
  obtain ⟨⟨_, admitted⟩, _, wsvp, enabled, inToken, isIn, _, isOut, _, isPlan, decIn, decimalsIn,
    converting | ⟨base, isBase, out, quoted, decOut, decimalsOut, showing⟩⟩ := panics
  · exact .inr ⟨inToken, decIn, isIn, decimalsIn, converting⟩
  · exact .inl ⟨.amount out decOut, .expectedOut ⟨admitted, isIn, isOut, wsvp, enabled, isPlan⟩
      decimalsIn isBase quoted decimalsOut, showing⟩

/-- Where `QuoteSwap` panics. -/
theorem quoteSwap_panics :
    PanicsAt (QuoteShows deps w env ctx tokenIn tokenOut amountIn)
      (AmountPanics deps w env tokenIn amountIn)
      (resultIn deps w env (quoteSwap deps ctx tokenIn tokenOut amountIn)) where
  ends := quoteSwap_ends
  found := quoteSwap_found
  apart s reason isShown _ := by
    cases isShown with
    | expectedOut start decimalsIn isBase _ _ =>
      exact not_amountPanics start.isIn decimalsIn isBase

end

section
variable {input : BuildSwapInput} {out least decOut : Int}

/-- The least output is shown first, and its panic ends the tool. -/
theorem buildSwap_fails {reason : String}
    (reached : SwapReached deps w env ctx input out least decOut)
    (panics : humanOut least decOut = .error (.panic reason)) :
    resultIn deps w env (buildSwap deps ctx input) = .error (.panic reason) := by
  cases reached with
  | intro start isSender decimalsIn isBase allowed quoted isLeast positive packed decimalsOut =>
    obtain ⟨admitted, isIn, isOut, wsvp, enabled, isPlan⟩ := start
    have isCall : ∀ plan sender, swapCall plan _ least sender _ = .ok _ := fun _ _ =>
      (swapCall_eq_ok (humanToBaseUnits_bounds isBase).1 positive).mpr ⟨packed, rfl⟩
    simp [buildSwap, -resultIn_authorize]
    exact ⟨_, admitted, _, _, enabled, _, isIn, _, isOut, _, isPlan, _, isSender, _, decimalsIn,
      .inr ⟨_, isBase, ⟨_, allowed⟩, _, quoted, _, isLeast, positive, _, _, isCall _ _, _,
        decimalsOut, .inl panics⟩⟩

/-- A quoted output is a `uint256`. -/
theorem quoteExpectedOut_lt {router : Address} {base : Int} {path : List Address}
    (quoted : resultIn deps w env (quoteExpectedOut router base path) = .ok out) :
    out.natAbs < 2 ^ 256 := by
  simp [quoteExpectedOut, unpackAmounts] at quoted
  obtain ⟨_, _, amounts, ⟨isFound, _⟩, rfl⟩ := quoted
  rw [Int.natAbs_natCast]
  cases isLast : amounts.getLast? with
  | none => exact Nat.two_pow_pos 256
  | some last =>
    exact Abi.unpackUints_lt isFound (List.mem_of_getLast? isLast)

/-- Both outputs end `BuildSwap`. -/
theorem buildSwap_ends (s : Shown) (reason : String)
    (isShown : SwapShows deps w env ctx input s) (panics : s.Panics reason) :
    resultIn deps w env (buildSwap deps ctx input) = .error (.panic reason) := by
  cases isShown with
  | minOut reached => exact buildSwap_fails reached panics
  | expectedOut reached first =>
    -- The decimals passed once, and the quoted output is in range.
    rename_i out least decOut text
    have safe : (Shown.amount least decOut).Safe := by
      by_contra notSafe
      obtain ⟨_, fails⟩ := (humanOut_panics_iff least decOut).mpr notSafe
      rw [first] at fails
      cases fails
    have small : out.natAbs < 2 ^ 256 := by
      cases reached with
      | intro _ _ _ _ _ quoted _ _ _ _ => exact quoteExpectedOut_lt quoted
    exact absurd ⟨small, safe.2⟩ ((humanOut_panics_iff out decOut).mp ⟨reason, panics⟩)

/-- It panics there or in the amount given. -/
theorem buildSwap_found (reason : String)
    (panics : resultIn deps w env (buildSwap deps ctx input) = .error (.panic reason)) :
    (∃ s, SwapShows deps w env ctx input s ∧ s.Panics reason) ∨
      AmountPanics deps w env input.tokenIn input.amountIn reason := by
  simp [buildSwap, -resultIn_authorize] at panics
  obtain ⟨tp, admitted, _, wsvp, enabled, inToken, isIn, _, isOut, _, isPlan, _, isSender, decIn,
    decimalsIn, converting | ⟨_, isBase, ⟨_, allowed⟩, out, quoted, least, isLeast, positive, _, _,
      isCall, decOut, decimalsOut, showing⟩⟩ := panics
  · exact .inr ⟨inToken, decIn, isIn, decimalsIn, converting⟩
  · have packed := ((swapCall_eq_ok (humanToBaseUnits_bounds isBase).1 positive).mp isCall).1
    have reached : SwapReached deps w env ctx input out least decOut :=
      .intro ⟨admitted, isIn, isOut, wsvp, enabled, isPlan⟩ isSender decimalsIn isBase allowed
        quoted isLeast positive packed decimalsOut
    rcases showing with showing | ⟨text, isText, _, showing⟩
    · exact .inl ⟨.amount least decOut, .minOut reached, showing⟩
    · exact .inl ⟨.amount out decOut, .expectedOut reached isText, showing⟩

/-- Where `BuildSwap` panics. -/
theorem buildSwap_panics :
    PanicsAt (SwapShows deps w env ctx input)
      (AmountPanics deps w env input.tokenIn input.amountIn)
      (resultIn deps w env (buildSwap deps ctx input)) where
  ends := buildSwap_ends
  found := buildSwap_found
  apart s reason isShown _ := by
    obtain ⟨out, least, decOut, reached⟩ :
        ∃ out least decOut, SwapReached deps w env ctx input out least decOut := by
      cases isShown with
      | minOut reached => exact ⟨_, _, _, reached⟩
      | expectedOut reached first => exact ⟨_, _, _, reached⟩
    cases reached with
    | intro start _ decimalsIn isBase _ _ _ _ _ _ =>
      exact not_amountPanics start.isIn decimalsIn isBase

end

end

section
variable (deps : Deps) (w : World) (env : Env) (ctx : Context)

/-- What `GetOraclePrice` shows: the feed's answer with the feed's decimals. -/
inductive PriceShows (oracle : Option Address) : Shown → Prop
  | price {tp : TenantPolicy} {feed : Address} {description : String} {dec : Nat}
      {rd : OracleRoundData}
      (admitted : resultIn deps w env (authorize ctx "get_oracle_price") = .ok tp)
      (enabled : resultIn deps w env (requireOracle deps oracle) = .ok feed)
      (described : resultIn deps w env (feedDescription feed) = .ok description)
      (decimals : resultIn deps w env (feedDecimals feed) = .ok dec)
      (answered : resultIn deps w env (feedRoundData feed) = .ok rd) :
      PriceShows oracle (.amount rd.answer dec)

variable {deps w env ctx} {oracle : Option Address}

/-- Where `GetOraclePrice` panics: in showing the answer. -/
theorem getOraclePrice_panics_iff {reason : String} :
    resultIn deps w env (getOraclePrice deps oracle ctx) = .error (.panic reason) ↔
      ∃ s, PriceShows deps w env ctx oracle s ∧ s.Panics reason := by
  have calm : ∀ feed, resultIn deps w env (feedDescription feed) ≠ .error (.panic reason) ∧
      resultIn deps w env (feedDecimals feed) ≠ .error (.panic reason) ∧
      resultIn deps w env (feedRoundData feed) ≠ .error (.panic reason) := by
    simp [feedDescription, feedDecimals, feedRoundData]
  simp [getOraclePrice, calm, -resultIn_authorize]
  constructor
  · rintro ⟨⟨_, admitted⟩, _, enabled, ⟨_, described⟩, _, decimals, _, answered, showing⟩
    exact ⟨_, .price admitted enabled described decimals answered, showing⟩
  · rintro ⟨_, ⟨admitted, enabled, described, decimals, answered⟩, panics⟩
    exact ⟨⟨_, admitted⟩, _, enabled, ⟨_, described⟩, _, decimals, _, answered, panics⟩

/-- Nothing but the answer can make `GetOraclePrice` panic. -/
theorem getOraclePrice_panics :
    PanicsAt (PriceShows deps w env ctx oracle) (fun _ => False)
      (resultIn deps w env (getOraclePrice deps oracle ctx)) where
  ends s _ isShown panics := getOraclePrice_panics_iff.mpr ⟨s, isShown, panics⟩
  found _ panics := .inl (getOraclePrice_panics_iff.mp panics)
  apart _ _ _ _ := id

end

end SvpMcp
