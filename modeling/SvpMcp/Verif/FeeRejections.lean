import Mathlib.Data.List.Infix
import SvpMcp.Model.Broadcast

/-!
# Which fee rejections are recognised

The log line of a rejected fee is printed from two lists of coins, and `insufficientFeeRE` reads
both back, unless the first is empty: its group takes at least one character.
-/

namespace SvpMcp

open Regexp

/-- A coin as the chain prints it. -/
structure PrintedCoin where
  /-- The digits of the amount. -/
  amount : List Char
  denom : List Char
  isAmount : amount ≠ []
  digits : ∀ c ∈ amount, c.isDigit = true
  plain : ∀ c ∈ denom, isNotSpace c = true

/-- The text of a list of coins; the empty list is the empty text. -/
def printCoins (coins : List PrintedCoin) : String :=
  String.ofList ([','].intercalate (coins.map fun coin => coin.amount ++ coin.denom))

/-- The log line of `MempoolFeeDecorator` for a fee and the fee it requires. -/
def feeLog (got required : String) : String :=
  "insufficient fees; got: " ++ got ++ " required: " ++ required ++ ": insufficient fee"

/-- A digit is no space. -/
theorem isNotSpace_digit {c : Char} (digit : c.isDigit = true) : isNotSpace c = true := by
  by_cases inside : isSpace c = true
  · simp only [isSpace, Bool.or_eq_true, decide_eq_true_eq] at inside
    rcases inside with (((rfl | rfl) | rfl) | rfl) | rfl <;> exact absurd digit (by decide)
  · simp [isNotSpace, inside]

/-- Coins are printed without spaces. -/
theorem printCoins_plain (coins : List PrintedCoin) :
    ∀ c ∈ (printCoins coins).toList, isNotSpace c = true := by
  intro c member
  rw [printCoins, String.toList_ofList] at member
  induction coins with
  | nil => exact absurd member List.not_mem_nil
  | cons coin coins ih =>
    have inCoin : c ∈ coin.amount ++ coin.denom → isNotSpace c = true := by
      intro inside
      rcases List.mem_append.mp inside with inAmount | inDenom
      · exact isNotSpace_digit (coin.digits c inAmount)
      · exact coin.plain c inDenom
    cases coins with
    | nil => exact inCoin (by simpa [List.intercalate] using member)
    | cons next coins =>
      have parts : c ∈ coin.amount ++ coin.denom ∨ c = ',' ∨
          c ∈ [','].intercalate ((next :: coins).map fun coin => coin.amount ++ coin.denom) := by
        simpa [List.intercalate, or_assoc] using member
      rcases parts with inside | isComma | later
      · exact inCoin inside
      · rw [isComma]
        rfl
      · exact ih later

/-- They start with a digit. -/
theorem printCoins_starts {coins : List PrintedCoin} (nonempty : coins ≠ []) :
    ∃ d rest, (printCoins coins).toList = d :: rest ∧ d.isDigit = true := by
  cases coins with
  | nil => exact absurd rfl nonempty
  | cons coin coins =>
    cases isAmount : coin.amount with
    | nil => exact absurd isAmount coin.isAmount
    | cons d digits =>
      have isDigit := coin.digits d (isAmount ▸ List.mem_cons_self)
      cases coins with
      | nil =>
        refine ⟨d, digits ++ coin.denom, ?_, isDigit⟩
        simp [printCoins, List.intercalate, isAmount]
      | cons next coins =>
        refine ⟨d, digits ++ coin.denom ++ ',' ::
          [','].intercalate ((next :: coins).map fun coin => coin.amount ++ coin.denom), ?_,
          isDigit⟩
        simp [printCoins, List.intercalate, isAmount]

/-- The end of the expression: the sentinel's text, or the end of the line. -/
def feeEnd : Regexp :=
  .seq
    (.alt
      (.sequence [.many isSpace, .literal ":", .many isSpace, .literal "insufficient fee"])
      .textEnd)
    .empty

/-- The expression from `required:` on. -/
def feeRequired : Regexp :=
  .seq (.literal "required:") (.seq (.many isSpace)
    (.seq (.group (.seq (.char isNotSpace) (.manyLazy isNotSpace))) feeEnd))

/-- The expression from the first group on. -/
def feeGot : Regexp :=
  .seq (.group (.seq (.char isNotSpace) (.many isNotSpace)))
    (.seq (.char isSpace) (.seq (.many isSpace) feeRequired))

/-- The pattern, part by part. -/
theorem insufficientFeeRE_eq : insufficientFeeRE =
    .seq (.literal "insufficient fee") (.seq (.alt (.literal "s") .empty)
      (.seq (.literal ";") (.seq (.many isSpace) (.seq (.literal "got:")
        (.seq (.many isSpace) feeGot))))) := rfl

/-- The word `required` is no space. -/
theorem feeRequired_refuses : Refuses isSpace feeRequired :=
  refuses_literal (show "required:".toList = 'r' :: "equired:".toList by decide) rfl

/-- Nor does a group start with one. -/
theorem group_refuses {run second : Regexp} :
    Refuses isSpace (.seq (.group (.seq (.char isNotSpace) run)) second) := by
  intro c text isBlank
  apply matchesAt_seq_none
  simp only [matchesAt, isNotSpace, isBlank]
  rfl

/-- Nor does the fee given. -/
theorem feeGot_refuses : Refuses isSpace feeGot := group_refuses

/-- The sentinel's text does not start inside a word before it: up to its blank it has no colon. -/
theorem sentinel_absent {word : List Char} (plain : ∀ c ∈ word, isNotSpace c = true) :
    ¬ "insufficient fee".toList <+: word ++ ": insufficient fee".toList := by
  intro isFront
  obtain ⟨rest, whole⟩ := isFront
  have left : ("insufficient fee".toList ++ rest).takeWhile isNotSpace =
      "insufficient".toList := by
    rw [show "insufficient fee".toList = "insufficient".toList ++ " fee".toList by decide,
      List.append_assoc, List.takeWhile_append_of_pos (List.all_eq_true.mp (by decide))]
    rfl
  have right : (word ++ ": insufficient fee".toList).takeWhile isNotSpace = word ++ [':'] := by
    rw [List.takeWhile_append_of_pos plain]
    rfl
  have same : "insufficient".toList = word ++ [':'] := by rw [← left, ← right, whole]
  have last := congrArg List.getLast? same
  rw [List.getLast?_append] at last
  exact absurd (show some 't' = some ':' from last) (by decide)

/-- The classes exclude each other. -/
theorem isSpace_of_plain {c : Char} (plain : isNotSpace c = true) : isSpace c = false := by
  simpa [isNotSpace] using plain

/-- A word before the sentinel does not start with a blank, and neither does the sentinel. -/
theorem word_starts {word : List Char} (plain : ∀ c ∈ word, isNotSpace c = true) :
    ∀ c ∈ (word ++ ": insufficient fee".toList).head?, isSpace c = false := by
  intro c isHead
  cases word with
  | nil => rw [← Option.some.inj isHead]; rfl
  | cons d word =>
    rw [← Option.some.inj isHead]
    exact isSpace_of_plain (plain d List.mem_cons_self)

/-- The end of the expression does not match inside a word before the sentinel. -/
theorem feeEnd_inside {word : List Char} (plain : ∀ c ∈ word, isNotSpace c = true)
    (nonempty : word ≠ []) :
    matchesAt feeEnd (word ++ ": insufficient fee".toList) = [] := by
  have starts := word_starts plain
  cases word with
  | nil => exact absurd rfl nonempty
  | cons c word =>
    have inTail : ∀ d ∈ word, isNotSpace d = true := fun d member =>
      plain d (List.mem_cons_of_mem _ member)
    have sentinel : matchesAt
        (.sequence [.many isSpace, .literal ":", .many isSpace, .literal "insufficient fee"])
        (c :: word ++ ": insufficient fee".toList) = [] := by
      refine (matchesAt_skip_none starts (refuses_literal rfl rfl)).trans ?_
      by_cases isColon : c = ':'
      · rw [isColon]
        refine (matchesAt_seq_single (matchesAt_literal ":")).trans ?_
        refine (matchesAt_skip_none (word_starts inTail) (refuses_literal rfl rfl)).trans ?_
        exact matchesAt_seq_none (matchesAt_literal_absent (sentinel_absent inTail))
      · apply matchesAt_seq_none
        apply matchesAt_literal_absent
        intro isFront
        exact isColon (List.cons_prefix_cons.mp isFront).1.symm
    have atEnd : matchesAt .textEnd (c :: word ++ ": insufficient fee".toList) = [] := rfl
    apply matchesAt_seq_none
    rw [matchesAt, sentinel, atEnd]
    rfl

/-- From `required:` on, the group is the whole word before the sentinel. -/
theorem feeRequired_word {word : List Char} (plain : ∀ c ∈ word, isNotSpace c = true)
    (nonempty : word ≠ []) :
    ∃ more, matchesAt feeRequired
      ("required: ".toList ++ (word ++ ": insufficient fee".toList)) = ([word], []) :: more := by
  have inside : ∀ t, t ≠ [] → t <:+ word →
      matchesAt feeEnd (t ++ ": insufficient fee".toList) = [] :=
    fun t isNonempty isSuffix =>
      feeEnd_inside (fun c member => plain c (isSuffix.subset member)) isNonempty
  obtain ⟨more, isMore⟩ := matchesAt_word_lazy nonempty plain inside
  have atSentinel : matchesAt feeEnd ": insufficient fee".toList = [([], [])] := by decide
  have blank : ∀ c ∈ [' '], isSpace c = true := List.all_eq_true.mp (by decide)
  refine ⟨more, ?_⟩
  rw [show "required: ".toList = "required:".toList ++ [' '] by decide, List.append_assoc]
  refine (matchesAt_seq_single (matchesAt_literal "required:")).trans ?_
  refine (matchesAt_skip blank (word_starts plain) group_refuses).trans ?_
  rw [isMore, atSentinel]
  rfl

/-- The first group is a word up to a blank. -/
theorem feeGot_word {word rest : List Char} (plain : ∀ c ∈ word, isNotSpace c = true)
    (nonempty : word ≠ []) (starts : ∀ c ∈ rest.head?, isSpace c = false) :
    matchesAt feeGot (word ++ ' ' :: rest) =
      (matchesAt feeRequired rest).map fun n => (word :: n.1, n.2) := by
  have stops : ∀ c ∈ (' ' :: rest).head?, isNotSpace c = false := by
    intro c isHead
    rw [← Option.some.inj isHead]
    rfl
  have blank : matchesAt (.char isSpace) (' ' :: rest) = [([], rest)] := rfl
  refine (matchesAt_word nonempty plain stops ?_).trans ?_
  · intro c text isPlain
    apply matchesAt_seq_none
    simp only [matchesAt, isSpace_of_plain isPlain]
    rfl
  · rw [matchesAt_seq_single blank, matchesAt_skip_none starts feeRequired_refuses]

/-- The expression in front of its first group. -/
theorem insufficientFeeRE_got {blanks rest : List Char} (areBlank : ∀ c ∈ blanks, isSpace c = true)
    (starts : ∀ c ∈ rest.head?, isSpace c = false) :
    matchesAt insufficientFeeRE ("insufficient fees; got:".toList ++ (blanks ++ rest)) =
      matchesAt feeGot rest := by
  have fixed : "insufficient fees; got:".toList = "insufficient fee".toList ++ ("s".toList ++
      (";".toList ++ ([' '] ++ "got:".toList))) := by decide
  have semicolonAbsent : ¬ ";".toList <+: "s".toList ++ (";".toList ++ ([' '] ++
      ("got:".toList ++ (blanks ++ rest)))) := by
    intro isFront
    exact absurd (List.cons_prefix_cons.mp isFront).1 (by decide)
  have gotStarts : ∀ c ∈ ("got:".toList ++ (blanks ++ rest)).head?, isSpace c = false := by
    intro c isHead
    rw [← Option.some.inj isHead]
    rfl
  have gotRefuses : Refuses isSpace (.seq (.literal "got:") (.seq (.many isSpace) feeGot)) :=
    refuses_literal (show "got:".toList = 'g' :: "ot:".toList by decide) rfl
  rw [fixed, insufficientFeeRE_eq]
  simp only [List.append_assoc]
  rw [matchesAt_seq_single (matchesAt_literal "insufficient fee"), matchesAt_seq_optional,
    matchesAt_seq_none (matchesAt_literal_absent semicolonAbsent), List.append_nil,
    matchesAt_seq_single (matchesAt_literal "s"), matchesAt_seq_single (matchesAt_literal ";"),
    matchesAt_skip (List.all_eq_true.mp (by decide)) gotStarts gotRefuses,
    matchesAt_seq_single (matchesAt_literal "got:"), matchesAt_skip areBlank starts feeGot_refuses]

section Line

variable {got required : List Char}

/-- A fee and the fee it requires are read back. -/
theorem findSubmatch_fees (gotPlain : ∀ c ∈ got, isNotSpace c = true) (isGot : got ≠ [])
    (plain : ∀ c ∈ required, isNotSpace c = true) (isRequired : required ≠ []) :
    findSubmatch insufficientFeeRE ("insufficient fees; got:".toList ++ ([' '] ++ (got ++
      ' ' :: ("required: ".toList ++ (required ++ ": insufficient fee".toList))))) =
      some [got, required] := by
  obtain ⟨more, isMore⟩ := feeRequired_word plain isRequired
  have gotStarts : ∀ c ∈ (got ++ ' ' :: ("required: ".toList ++
      (required ++ ": insufficient fee".toList))).head?, isSpace c = false := by
    intro c isHead
    cases got with
    | nil => exact absurd rfl isGot
    | cons d got =>
      rw [← Option.some.inj isHead]
      exact isSpace_of_plain (gotPlain d List.mem_cons_self)
  have requiredStarts : ∀ c ∈ ("required: ".toList ++
      (required ++ ": insufficient fee".toList)).head?, isSpace c = false := by
    intro c isHead
    rw [← Option.some.inj isHead]
    rfl
  have blank : ∀ c ∈ [' '], isSpace c = true := List.all_eq_true.mp (by decide)
  have found := insufficientFeeRE_got blank gotStarts
  rw [feeGot_word gotPlain isGot requiredStarts, isMore, List.map_cons] at found
  exact findSubmatch_head found

/-- The expression starts nowhere behind the first character of the line. -/
theorem findSubmatch_behind_first (plain : ∀ c ∈ required, isNotSpace c = true) :
    findSubmatch insufficientFeeRE ("nsufficient fees; got:  required: ".toList ++
      (required ++ ": insufficient fee".toList)) = none := by
  have fixedPart : ∀ t ∈ "nsufficient fees; got:  required: ".toList.tails, t ≠ [] →
      ¬ "insufficient fee".toList <+: t ∧ ¬ t <+: "insufficient fee".toList := by
    decide +kernel
  have inFixed : ∀ t, t ≠ [] → t <:+ "nsufficient fees; got:  required: ".toList →
      ¬ "insufficient fee".toList <+: t ++ (required ++ ": insufficient fee".toList) := by
    intro t nonempty isSuffix isFront
    obtain ⟨longer, shorter⟩ := fixedPart t (List.mem_tails t _ |>.mpr isSuffix) nonempty
    rcases List.prefix_or_prefix_of_prefix isFront (List.prefix_append t _) with inside | around
    · exact longer inside
    · exact shorter around
  have inRequired : ∀ t, t ≠ [] → t <:+ required →
      ¬ "insufficient fee".toList <+: t ++ ": insufficient fee".toList :=
    fun t _ isSuffix => sentinel_absent fun c member => plain c (isSuffix.subset member)
  have atEnd : findSubmatch insufficientFeeRE ": insufficient fee".toList = none := by
    decide +kernel
  rw [insufficientFeeRE_eq] at atEnd ⊢
  rw [findSubmatch_behind inFixed, findSubmatch_behind inRequired, atEnd]

/-- Without a fee the first group takes `required:`, and the fee does not follow a second one. -/
theorem findSubmatch_no_fee (plain : ∀ c ∈ required, isNotSpace c = true)
    (starts : ∃ d rest, required = d :: rest ∧ d.isDigit = true) :
    findSubmatch insufficientFeeRE ("insufficient fees; got:".toList ++ ([' ', ' '] ++
      ("required:".toList ++ ' ' :: (required ++ ": insufficient fee".toList)))) = none := by
  have wordPlain : ∀ c ∈ "required:".toList, isNotSpace c = true :=
    List.all_eq_true.mp (by decide)
  have blanks : ∀ c ∈ [' ', ' '], isSpace c = true := List.all_eq_true.mp (by decide)
  have wordStarts : ∀ c ∈ ("required:".toList ++ ' ' :: (required ++
      ": insufficient fee".toList)).head?, isSpace c = false := by
    intro c isHead
    rw [← Option.some.inj isHead]
    rfl
  have missing : matchesAt feeRequired (required ++ ": insufficient fee".toList) = [] := by
    obtain ⟨d, rest, isRequired, isDigit⟩ := starts
    refine matchesAt_seq_none (matchesAt_literal_absent fun isFront => ?_)
    rw [isRequired] at isFront
    have same : 'r' = d := (List.cons_prefix_cons.mp isFront).1
    rw [← same] at isDigit
    exact absurd isDigit (by decide)
  have noMatch := insufficientFeeRE_got blanks wordStarts
  rw [feeGot_word wordPlain (by decide) (word_starts plain), missing, List.map_nil] at noMatch
  have line : "insufficient fees; got:".toList ++ ([' ', ' '] ++ ("required:".toList ++
      ' ' :: (required ++ ": insufficient fee".toList))) =
      'i' :: ("nsufficient fees; got:  required: ".toList ++
        (required ++ ": insufficient fee".toList)) := by
    have fixed : "insufficient fees; got:".toList ++ ([' ', ' '] ++ ("required:".toList ++ [' '])) =
        'i' :: "nsufficient fees; got:  required: ".toList := by decide
    change _ = 'i' :: "nsufficient fees; got:  required: ".toList ++ _
    rw [← fixed]
    simp only [List.append_assoc, List.cons_append, List.nil_append]
  rw [line] at noMatch ⊢
  rw [findSubmatch_next noMatch, findSubmatch_behind_first plain]

end Line

/-- The characters of the log line. -/
theorem feeLog_toList (got required : String) : (feeLog got required).toList =
    "insufficient fees; got:".toList ++ ([' '] ++ (got.toList ++
      ' ' :: ("required: ".toList ++ (required.toList ++ ": insufficient fee".toList)))) := by
  have first : "insufficient fees; got: ".toList = "insufficient fees; got:".toList ++ [' '] := by
    decide
  have second : " required: ".toList = ' ' :: "required: ".toList := by decide
  unfold feeLog
  simp only [String.toList_append, first, second, List.append_assoc, List.cons_append,
    List.nil_append]

/-- The characters of the log line of a transaction without a fee. -/
theorem feeLog_no_fee_toList (required : String) : (feeLog "" required).toList =
    "insufficient fees; got:".toList ++ ([' ', ' '] ++ ("required:".toList ++
      ' ' :: (required.toList ++ ": insufficient fee".toList))) := by
  have word : "required: ".toList = "required:".toList ++ [' '] := by decide
  rw [feeLog_toList, String.toList_empty, word]
  simp only [List.append_assoc, List.cons_append, List.nil_append]

/-- No coins, no text. -/
theorem printCoins_eq_empty {coins : List PrintedCoin} :
    printCoins coins = "" ↔ coins = [] := by
  constructor
  · intro isEmpty
    by_contra nonempty
    obtain ⟨d, rest, isText, _⟩ := printCoins_starts nonempty
    rw [isEmpty] at isText
    exact absurd isText (List.cons_ne_nil d rest).symm
  · intro isNil
    rw [isNil]
    rfl

section Rejected

variable {got required : List PrintedCoin} {result : BroadcastResult}

/-- Both fees are read off the log. -/
theorem parseBroadcastError_fees (isGot : printCoins got ≠ "")
    (isRequired : printCoins required ≠ "") (rejected : result.code ≠ 0)
    (isLog : result.rawLog = feeLog (printCoins got) (printCoins required)) :
    parseBroadcastError result =
      some (.insufficientFee (printCoins required) (printCoins got)) := by
  have chars {text : String} (nonempty : text ≠ "") : text.toList ≠ [] := fun isNil =>
    nonempty (String.toList_inj.mp (isNil.trans String.toList_empty.symm))
  unfold parseBroadcastError
  rw [if_neg rejected, isLog, feeLog_toList, findSubmatch_fees (printCoins_plain got) (chars isGot)
    (printCoins_plain required) (chars isRequired)]
  simp only [String.ofList_toList]

/-- Without a fee nothing is read. -/
theorem parseBroadcastError_no_fee (isRequired : printCoins required ≠ "")
    (rejected : result.code ≠ 0) (isLog : result.rawLog = feeLog "" (printCoins required)) :
    parseBroadcastError result = none := by
  have coins : required ≠ [] := fun isNil => isRequired (printCoins_eq_empty.mpr isNil)
  unfold parseBroadcastError
  rw [if_neg rejected, isLog, feeLog_no_fee_toList,
    findSubmatch_no_fee (printCoins_plain required) (printCoins_starts coins)]

end Rejected

/-- A transaction is told the fee it carried and the fee it needs, and one that was accepted is
told of no error, exactly where it carried a fee. -/
theorem fee_rejections_recognised_iff (got required : List PrintedCoin)
    (isRequired : printCoins required ≠ "") :
    ((∀ result : BroadcastResult, result.code ≠ 0 →
        result.rawLog = feeLog (printCoins got) (printCoins required) →
        parseBroadcastError result =
          some (.insufficientFee (printCoins required) (printCoins got))) ∧
      ∀ result : BroadcastResult, result.code = 0 → parseBroadcastError result = none) ↔
    printCoins got ≠ "" := by
  constructor
  · intro recognised isEmpty
    let result : BroadcastResult := ⟨"", 13, feeLog (printCoins got) (printCoins required)⟩
    have rejected : result.code ≠ 0 := show (13 : UInt32) ≠ 0 by decide
    have told := recognised.1 result rejected rfl
    have silent := parseBroadcastError_no_fee isRequired rejected
      (show result.rawLog = feeLog "" (printCoins required) by rw [← isEmpty])
    rw [silent] at told
    exact absurd told (Option.some_ne_none _).symm
  · intro isGot
    exact ⟨fun result rejected isLog => parseBroadcastError_fees isGot isRequired rejected isLog,
      fun result accepted => if_pos accepted⟩

/-- A coin from its two texts. -/
def printedCoin (amount denom : String) (isAmount : amount.toList ≠ [])
    (digits : ∀ c ∈ amount.toList, c.isDigit = true)
    (plain : ∀ c ∈ denom.toList, isNotSpace c = true) : PrintedCoin :=
  ⟨amount.toList, denom.toList, isAmount, digits, plain⟩

/-- A fee of two coins, the second of a denom with colons. -/
theorem fee_rejections_recognised_iff_two :
    parseBroadcastError ⟨"", 13,
      "insufficient fees; got: 1stake,2ibc:a required: 1000stake: insufficient fee"⟩ =
      some (.insufficientFee "1000stake" "1stake,2ibc:a") := by
  have recognised := (fee_rejections_recognised_iff
    [printedCoin "1" "stake" (by decide) (List.all_eq_true.mp (by decide))
      (List.all_eq_true.mp (by decide)),
     printedCoin "2" "ibc:a" (by decide) (List.all_eq_true.mp (by decide))
      (List.all_eq_true.mp (by decide))]
    [printedCoin "1000" "stake" (by decide) (List.all_eq_true.mp (by decide))
      (List.all_eq_true.mp (by decide))] (by decide)).mpr (by decide)
  exact recognised.1 _ (by decide) (by decide)

/-- A transaction without a fee is told nothing. -/
theorem no_fee_unrecognised :
    parseBroadcastError ⟨"", 13, feeLog (printCoins []) "1000stake"⟩ = none := by
  decide +kernel

end SvpMcp
