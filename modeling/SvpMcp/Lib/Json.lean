import Mathlib.Data.List.TakeWhile
import SvpMcp.Lib.Decimal

/-!
# JSON documents and their text

The document tree, the indented text `json.MarshalIndent` writes for it and the reader of
`json.Unmarshal`. Reading what was written returns the document.
-/

namespace SvpMcp

variable {text after : List Char}

namespace JsonText

/-- The white space JSON allows between tokens. -/
def isSpace (c : Char) : Bool := c = ' ' || c = '\t' || c = '\n' || c = '\r'

/-- Drop leading white space. -/
def skipSpace (text : List Char) : List Char := text.dropWhile isSpace

/-- Only white space is skipped. -/
theorem skipSpace_append (blank text : List Char) (blanks : blank.all isSpace = true) :
    skipSpace (blank ++ text) = skipSpace text := by
  induction blank with
  | nil => rfl
  | cons c rest ih =>
    simp only [List.all_cons, Bool.and_eq_true] at blanks
    rw [List.cons_append, skipSpace, List.dropWhile_cons_of_pos blanks.1]
    exact ih blanks.2

/-- A text that starts with another character is left alone. -/
@[simp] theorem skipSpace_cons (c : Char) (text : List Char) (visible : isSpace c = false) :
    skipSpace (c :: text) = c :: text := by
  simp [skipSpace, visible]

/-- The value of a hexadecimal digit. -/
def hexValue (c : Char) : Option Nat :=
  if '0' ≤ c ∧ c ≤ '9' then some (c.toNat - 48)
  else if 'a' ≤ c ∧ c ≤ 'f' then some (c.toNat - 87)
  else if 'A' ≤ c ∧ c ≤ 'F' then some (c.toNat - 55)
  else none

/-- The value of four hexadecimal digits. -/
def hex4 (a b c d : Char) : Option Nat := do
  let a ← hexValue a
  let b ← hexValue b
  let c ← hexValue c
  let d ← hexValue d
  return ((a * 16 + b) * 16 + c) * 16 + d

/-- Write a code unit as four lower-case hexadecimal digits. -/
def printHex4 (n : Nat) : List Char :=
  [Nat.digitChar (n / 4096 % 16), Nat.digitChar (n / 256 % 16), Nat.digitChar (n / 16 % 16),
    Nat.digitChar (n % 16)]

/-- A digit printed is read back. -/
theorem hexValue_digitChar : ∀ n, n < 16 → hexValue (Nat.digitChar n) = some n := by
  decide

/-- Four digits are read back. -/
theorem hex4_printHex4 (n : Nat) (fits : n < 65536) :
    hex4 (Nat.digitChar (n / 4096 % 16)) (Nat.digitChar (n / 256 % 16))
      (Nat.digitChar (n / 16 % 16)) (Nat.digitChar (n % 16)) = some n := by
  simp only [hex4, hexValue_digitChar _ (Nat.mod_lt _ (by decide : 0 < 16)), Option.bind_eq_bind,
    Option.bind_some, Option.pure_def, Option.some.injEq]
  omega

/-- One element of a string literal: a character, or the code unit of a `\u` escape. -/
inductive Piece where
  | plain (c : Char)
  | unit (code : Nat)

/-- The character a one-letter escape stands for. -/
def shortEscape (c : Char) : Option Char :=
  match c with
  | '"' => some '"'
  | '\\' => some '\\'
  | '/' => some '/'
  | 'b' => some '\x08'
  | 'f' => some '\x0c'
  | 'n' => some '\n'
  | 'r' => some '\r'
  | 't' => some '\t'
  | _ => none

/-- Split the rest of a string literal into pieces, up to the closing quote. -/
def lexString : List Char → Option (List Piece × List Char)
  | [] => none
  | '"' :: rest => some ([], rest)
  | '\\' :: 'u' :: a :: b :: c :: d :: rest => do
    let code ← hex4 a b c d
    let (pieces, after) ← lexString rest
    return (.unit code :: pieces, after)
  | '\\' :: c :: rest => do
    let char ← shortEscape c
    let (pieces, after) ← lexString rest
    return (.plain char :: pieces, after)
  | c :: rest =>
    if c.toNat < 32 then none
    else do
      let (pieces, after) ← lexString rest
      return (.plain c :: pieces, after)

/-- The replacement character for a code unit that is half of a surrogate pair. -/
def replacement : Char := '\ufffd'

/-- The character of one code unit. -/
def unitChar (code : Nat) : Char :=
  if 0xd800 ≤ code ∧ code < 0xe000 then replacement else Char.ofNat code

/-- Join the pieces of a literal, combining surrogate pairs. -/
def joinPieces : List Piece → List Char
  | [] => []
  | .plain c :: rest => c :: joinPieces rest
  | .unit high :: .unit low :: rest =>
    if (0xd800 ≤ high ∧ high < 0xdc00) ∧ 0xdc00 ≤ low ∧ low < 0xe000 then
      Char.ofNat (0x10000 + (high - 0xd800) * 1024 + (low - 0xdc00)) :: joinPieces rest
    else unitChar high :: joinPieces (.unit low :: rest)
  | .unit code :: rest => unitChar code :: joinPieces rest

/-- Read the rest of a string literal. -/
def readString (text : List Char) : Option (String × List Char) :=
  (lexString text).map fun found => (String.ofList (joinPieces found.1), found.2)

/-- A character the writer spells with a `\u` escape. -/
def needsUnit (c : Char) : Bool :=
  c.toNat < 32 || c = '<' || c = '>' || c = '&' || c.toNat = 0x2028 || c.toNat = 0x2029

/-- The spelling of one character inside a literal. -/
def printChar (c : Char) : List Char :=
  if c = '"' then ['\\', '"']
  else if c = '\\' then ['\\', '\\']
  else if c = '\x08' then ['\\', 'b']
  else if c = '\x0c' then ['\\', 'f']
  else if c = '\n' then ['\\', 'n']
  else if c = '\r' then ['\\', 'r']
  else if c = '\t' then ['\\', 't']
  else if needsUnit c then '\\' :: 'u' :: printHex4 c.toNat
  else [c]

/-- The literal of a string, quotes included. -/
def printString (text : String) : List Char :=
  '"' :: text.toList.flatMap printChar ++ ['"']

/-- The piece the reader finds for one written character. -/
def pieceOf (c : Char) : Piece :=
  if c = '"' ∨ c = '\\' ∨ c = '\x08' ∨ c = '\x0c' ∨ c = '\n' ∨ c = '\r' ∨ c = '\t' then .plain c
  else if needsUnit c then .unit c.toNat
  else .plain c

/-- What is escaped fits in one unit. -/
theorem needsUnit_fits (c : Char) (escaped : needsUnit c = true) : c.toNat < 65536 := by
  simp only [needsUnit, Bool.or_eq_true, decide_eq_true_eq] at escaped
  rcases escaped with ((((h | rfl) | rfl) | rfl) | h) | h
  · omega
  · decide
  · decide
  · decide
  · omega
  · omega

/-- The reader finds the piece of each written character. -/
theorem lexString_printChar (c : Char) (rest : List Char) :
    lexString (printChar c ++ rest) =
      (lexString rest).map fun found => (pieceOf c :: found.1, found.2) := by
  by_cases short : c = '"' ∨ c = '\\' ∨ c = '\x08' ∨ c = '\x0c' ∨ c = '\n' ∨ c = '\r' ∨ c = '\t'
  · rcases short with rfl | rfl | rfl | rfl | rfl | rfl | rfl <;>
      (cases tail : lexString rest <;> simp [printChar, lexString, shortEscape, pieceOf, tail])
  · simp only [pieceOf, if_neg short]
    push Not at short
    obtain ⟨h1, h2, h3, h4, h5, h6, h7⟩ := short
    simp only [printChar, h1, h2, h3, h4, h5, h6, h7, if_false]
    by_cases escaped : needsUnit c = true
    · simp only [escaped, if_true, printHex4, List.cons_append, List.nil_append, lexString,
        hex4_printHex4 _ (needsUnit_fits c escaped)]
      cases tail : lexString rest <;> simp
    · simp only [escaped, Bool.false_eq_true, if_false, List.cons_append, List.nil_append]
      have visible : ¬c.toNat < 32 := by
        intro control
        exact escaped (by simp [needsUnit, control])
      rw [lexString.eq_def]
      split
      · simp_all
      · simp_all
      · simp_all
      · simp_all
      · rename_i head tail _ _ _ equal
        obtain ⟨rfl, rfl⟩ := List.cons.inj equal
        rw [if_neg visible]
        cases lexString rest <;> simp

/-- A printed string is read piece by piece. -/
theorem lexString_printed (text rest : List Char) :
    lexString (text.flatMap printChar ++ '"' :: rest) = some (text.map pieceOf, rest) := by
  induction text with
  | nil => simp [lexString]
  | cons c text ih =>
    rw [List.flatMap_cons, List.append_assoc, lexString_printChar, ih]
    rfl

/-- A Unicode scalar value is not half of a surrogate pair. -/
theorem toNat_not_surrogate (c : Char) : ¬(0xd800 ≤ c.toNat ∧ c.toNat < 0xe000) := by
  have valid := c.valid
  simp only [UInt32.isValidChar, Nat.isValidChar] at valid
  change ¬(0xd800 ≤ c.val.toNat ∧ c.val.toNat < 0xe000)
  omega

/-- Joining the pieces of the written characters returns the characters. -/
theorem joinPieces_map_pieceOf (text : List Char) : joinPieces (text.map pieceOf) = text := by
  induction text with
  | nil => rfl
  | cons c text ih =>
    have single : unitChar c.toNat = c := by
      rw [unitChar, if_neg (toNat_not_surrogate c), Char.ofNat_toNat]
    have headCase : pieceOf c = .plain c ∨ pieceOf c = .unit c.toNat := by
      unfold pieceOf
      split
      · exact .inl rfl
      · split
        · exact .inr rfl
        · exact .inl rfl
    rcases headCase with plain | unit
    · rw [List.map_cons, plain, joinPieces, ih]
    · rw [List.map_cons, unit]
      have notHigh : ¬(0xd800 ≤ c.toNat ∧ c.toNat < 0xdc00) := by
        have scalar := toNat_not_surrogate c
        omega
      cases after : text.map pieceOf with
      | nil =>
        rw [after] at ih
        rw [joinPieces, single, ih]
        intro low rest equal
        cases equal
      | cons piece rest =>
        rw [after] at ih
        cases piece with
        | plain d => rw [joinPieces, single, ih]; intro low rest equal; cases equal
        | unit low => rw [joinPieces, if_neg (fun pair => notHigh pair.1), single, ih]

/-- Reading a written literal returns the string. -/
@[simp] theorem readString_printed (text : String) (rest : List Char) :
    readString (text.toList.flatMap printChar ++ '"' :: rest) = some (text, rest) := by
  rw [readString, lexString_printed, Option.map_some, joinPieces_map_pieceOf,
    String.ofList_toList]

/-- Skip the integer part of a number: no leading zero before another digit. -/
def skipInteger : List Char → Option (List Char)
  | [] => none
  | c :: rest =>
    if c = '0' then some rest
    else if c.isDigit then some (rest.dropWhile Char.isDigit)
    else none

/-- Skip an optional fraction. -/
def skipFraction : List Char → Option (List Char)
  | '.' :: c :: rest => if c.isDigit then some (rest.dropWhile Char.isDigit) else none
  | ['.'] => none
  | rest => some rest

/-- Skip at least one digit. -/
def skipDigits : List Char → Option (List Char)
  | [] => none
  | c :: rest => if c.isDigit then some (rest.dropWhile Char.isDigit) else none

/-- Skip an optional exponent. -/
def skipExponent : List Char → Option (List Char)
  | [] => some []
  | e :: rest =>
    if e = 'e' ∨ e = 'E' then
      match rest with
      | '+' :: rest => skipDigits rest
      | '-' :: rest => skipDigits rest
      | rest => skipDigits rest
    else some (e :: rest)

/-- The text is a JSON number. -/
def isNumber (text : List Char) : Bool :=
  let unsigned := match text with
    | '-' :: rest => rest
    | rest => rest
  ((skipInteger unsigned).bind fun rest => (skipFraction rest).bind skipExponent) = some []

/-- A character that can occur in a number. -/
def isNumberChar (c : Char) : Bool :=
  c.isDigit || c = '-' || c = '+' || c = '.' || c = 'e' || c = 'E'

/-- Digits occur in numbers. -/
theorem isNumberChar_of_isDigit (c : Char) (digit : c.isDigit = true) :
    isNumberChar c = true := by
  simp [isNumberChar, digit]

/-- `after` is what remains of `text` behind a run of number characters. -/
def NumberRun (text after : List Char) : Prop :=
  ∃ run, text = run ++ after ∧ run.all isNumberChar = true

/-- A run can start earlier. -/
theorem numberRun_cons {c : Char} (char : isNumberChar c = true) (rest : NumberRun text after) :
    NumberRun (c :: text) after := by
  obtain ⟨run, rfl, chars⟩ := rest
  exact ⟨c :: run, rfl, by simp [char, chars]⟩

/-- Runs join. -/
theorem numberRun_trans {text middle after : List Char} (first : NumberRun text middle)
    (second : NumberRun middle after) : NumberRun text after := by
  obtain ⟨run, rfl, chars⟩ := first
  obtain ⟨run', rfl, chars'⟩ := second
  exact ⟨run ++ run', by rw [List.append_assoc], by simp [chars, chars']⟩

/-- Digits are a run. -/
theorem numberRun_dropDigits (text : List Char) :
    NumberRun text (text.dropWhile Char.isDigit) := by
  refine ⟨text.takeWhile Char.isDigit, (List.takeWhile_append_dropWhile).symm, ?_⟩
  rw [List.all_eq_true]
  intro c member
  exact isNumberChar_of_isDigit c (List.all_eq_true.mp List.all_takeWhile c member)

/-- An integer is a run. -/
theorem numberRun_skipInteger (skipped : skipInteger text = some after) :
    NumberRun text after := by
  cases text with
  | nil => simp [skipInteger] at skipped
  | cons c rest =>
    simp only [skipInteger] at skipped
    split at skipped
    · rename_i zero
      cases skipped
      exact numberRun_cons (by rw [zero]; decide) ⟨[], rfl, rfl⟩
    · split at skipped
      · rename_i digit
        cases skipped
        exact numberRun_cons (isNumberChar_of_isDigit c digit) (numberRun_dropDigits rest)
      · cases skipped

/-- So are digits that are required. -/
theorem numberRun_skipDigits (skipped : skipDigits text = some after) :
    NumberRun text after := by
  cases text with
  | nil => simp [skipDigits] at skipped
  | cons c rest =>
    simp only [skipDigits] at skipped
    split at skipped
    · rename_i digit
      cases skipped
      exact numberRun_cons (isNumberChar_of_isDigit c digit) (numberRun_dropDigits rest)
    · cases skipped

/-- So is a fraction. -/
theorem numberRun_skipFraction (skipped : skipFraction text = some after) :
    NumberRun text after := by
  unfold skipFraction at skipped
  split at skipped
  · rename_i c rest
    split at skipped
    · rename_i digit
      cases skipped
      exact numberRun_cons (by decide)
        (numberRun_cons (isNumberChar_of_isDigit c digit) (numberRun_dropDigits rest))
    · cases skipped
  · cases skipped
  · cases skipped
    exact ⟨[], rfl, rfl⟩

/-- So is an exponent. -/
theorem numberRun_skipExponent (skipped : skipExponent text = some after) :
    NumberRun text after := by
  cases text with
  | nil =>
    cases skipped
    exact ⟨[], rfl, rfl⟩
  | cons e rest =>
    simp only [skipExponent] at skipped
    split at skipped
    · rename_i letter
      have char : isNumberChar e = true := by
        rcases letter with rfl | rfl <;> decide
      split at skipped
      · exact numberRun_cons char (numberRun_cons (by decide) (numberRun_skipDigits skipped))
      · exact numberRun_cons char (numberRun_cons (by decide) (numberRun_skipDigits skipped))
      · exact numberRun_cons char (numberRun_skipDigits skipped)
    · cases skipped
      exact ⟨[], rfl, rfl⟩

/-- A number consists of number characters only. -/
theorem isNumber_chars {text : List Char} (number : isNumber text = true) :
    text.all isNumberChar = true := by
  have unsigned : ∀ body, ((skipInteger body).bind fun rest =>
      (skipFraction rest).bind skipExponent) = some [] → body.all isNumberChar = true := by
    intro body accepted
    obtain ⟨afterInteger, integer, accepted⟩ := Option.bind_eq_some_iff.mp accepted
    obtain ⟨afterFraction, fraction, exponent⟩ := Option.bind_eq_some_iff.mp accepted
    obtain ⟨run, rfl, chars⟩ := numberRun_trans (numberRun_skipInteger integer)
      (numberRun_trans (numberRun_skipFraction fraction) (numberRun_skipExponent exponent))
    simpa using chars
  simp only [isNumber, decide_eq_true_eq] at number
  split at number
  · rename_i rest
    rw [List.all_cons, unsigned _ number]
    decide
  · exact unsigned _ number

/-- A number starts with a sign or a digit. -/
theorem isNumber_head {text : List Char} (number : isNumber text = true) :
    ∃ c rest, text = c :: rest ∧ (c = '-' ∨ c.isDigit = true) := by
  cases text with
  | nil => simp [isNumber, skipInteger] at number
  | cons c rest =>
    refine ⟨c, rest, rfl, ?_⟩
    by_cases minus : c = '-'
    · exact .inl minus
    · right
      simp only [isNumber, decide_eq_true_eq] at number
      split at number
      · rename_i equal
        exact absurd (List.cons.inj equal).1 minus
      · by_contra other
        have zero : c ≠ '0' := by
          rintro rfl
          exact other (by decide)
        simp [skipInteger, zero, other] at number

end JsonText

/-- The literal of a JSON number. -/
structure NumberLiteral where
  text : List Char
  isNumber : JsonText.isNumber text = true
deriving DecidableEq

namespace JsonText

/-- The digits of a natural number are a JSON integer part with nothing behind it. -/
theorem skipInteger_digits (n : Nat) : skipInteger (Decimal.digits n) = some [] := by
  have digit := Decimal.digits_all_isDigit n
  cases text : Decimal.digits n with
  | nil => exact absurd text (Decimal.digits_ne_nil n)
  | cons c rest =>
    rw [text, List.all_cons, Bool.and_eq_true] at digit
    rw [skipInteger]
    by_cases zero : c = '0'
    · rcases Decimal.digits_head n c rest text with nonzero | empty
      · exact absurd zero nonzero
      · rw [if_pos zero, empty]
    · have allDigits : rest.dropWhile Char.isDigit = [] := by
        rw [List.dropWhile_eq_nil_iff]
        exact List.all_eq_true.mp digit.2
      rw [if_neg zero, if_pos digit.1, allDigits]

/-- A printed integer is a JSON number. -/
theorem isNumber_print (n : Int) : isNumber (Decimal.print n) = true := by
  have digits := skipInteger_digits n.natAbs
  simp only [isNumber, decide_eq_true_eq]
  split
  · rename_i rest minus
    have body : rest = Decimal.digits n.natAbs := by
      unfold Decimal.print at minus
      split at minus
      · exact (List.cons.inj minus).2.symm
      · have digit := Decimal.digits_all_isDigit n.natAbs
        rw [minus] at digit
        exact absurd digit (by simp)
    rw [body, digits]
    rfl
  · rename_i unsigned
    have nonnegative : ¬n < 0 := by
      intro negative
      exact unsigned _ (by rw [Decimal.print, if_pos negative])
    rw [Decimal.print, if_neg nonnegative, digits]
    rfl

end JsonText

/-- A JSON document. -/
inductive Json where
  | null
  | bool (value : Bool)
  | num (literal : NumberLiteral)
  | str (text : String)
  | arr (items : List Json)
  | obj (members : List (String × Json))

namespace Json

open JsonText

/-- The number document of an integer. -/
def int (n : Int) : Json := .num ⟨Decimal.print n, isNumber_print n⟩

/-- A line break followed by the indentation of one level. -/
def newline (depth : Nat) : List Char := '\n' :: List.replicate (2 * depth) ' '

/-- A line break is space. -/
theorem newline_isSpace (depth : Nat) : (newline depth).all isSpace = true := by
  simp [newline, isSpace]

mutual

/-- `json.MarshalIndent` with two blanks per level — the text of a document that starts at
the given depth. -/
def printAt (depth : Nat) : Json → List Char
  | .null => ['n', 'u', 'l', 'l']
  | .bool true => ['t', 'r', 'u', 'e']
  | .bool false => ['f', 'a', 'l', 's', 'e']
  | .num literal => literal.text
  | .str text => printString text
  | .arr [] => ['[', ']']
  | .arr (item :: items) =>
    '[' :: newline (depth + 1) ++ printAt (depth + 1) item ++ printItems (depth + 1) items ++
      newline depth ++ [']']
  | .obj [] => ['\x7b', '\x7d']
  | .obj ((key, value) :: members) =>
    '\x7b' :: newline (depth + 1) ++ printString key ++ [':', ' '] ++ printAt (depth + 1) value ++
      printMembers (depth + 1) members ++ newline depth ++ ['\x7d']

/-- The items after the first one. -/
def printItems (depth : Nat) : List Json → List Char
  | [] => []
  | item :: items => ',' :: newline depth ++ printAt depth item ++ printItems depth items

/-- The members after the first one. -/
def printMembers (depth : Nat) : List (String × Json) → List Char
  | [] => []
  | (key, value) :: members =>
    ',' :: newline depth ++ printString key ++ [':', ' '] ++ printAt depth value ++
      printMembers depth members

end

/-- The text of a document. -/
def print (document : Json) : List Char := printAt 0 document

mutual

/-- Read one value from the front of a text. -/
def readValue : Nat → List Char → Option (Json × List Char)
  | 0, _ => none
  | fuel + 1, text =>
    match skipSpace text with
    | 'n' :: 'u' :: 'l' :: 'l' :: rest => some (.null, rest)
    | 't' :: 'r' :: 'u' :: 'e' :: rest => some (.bool true, rest)
    | 'f' :: 'a' :: 'l' :: 's' :: 'e' :: rest => some (.bool false, rest)
    | '"' :: rest => (readString rest).map fun found => (.str found.1, found.2)
    | '[' :: rest =>
      match skipSpace rest with
      | ']' :: after => some (.arr [], after)
      | _ => (readItems fuel rest).map fun found => (.arr found.1, found.2)
    | '\x7b' :: rest =>
      match skipSpace rest with
      | '\x7d' :: after => some (.obj [], after)
      | _ => (readMembers fuel rest).map fun found => (.obj found.1, found.2)
    | start =>
      let literal := start.takeWhile isNumberChar
      if valid : isNumber literal = true then
        some (.num ⟨literal, valid⟩, start.dropWhile isNumberChar)
      else none

/-- Read the items of an array up to its closing bracket. -/
def readItems : Nat → List Char → Option (List Json × List Char)
  | 0, _ => none
  | fuel + 1, text => do
    let (item, rest) ← readValue fuel text
    match skipSpace rest with
    | ',' :: rest =>
      let (items, rest) ← readItems fuel rest
      return (item :: items, rest)
    | ']' :: rest => return ([item], rest)
    | _ => none

/-- Read the members of an object up to its closing brace. -/
def readMembers : Nat → List Char → Option (List (String × Json) × List Char)
  | 0, _ => none
  | fuel + 1, text =>
    match skipSpace text with
    | '"' :: rest => do
      let (key, rest) ← readString rest
      match skipSpace rest with
      | ':' :: rest =>
        let (value, rest) ← readValue fuel rest
        match skipSpace rest with
        | ',' :: rest =>
          let (members, rest) ← readMembers fuel rest
          return ((key, value) :: members, rest)
        | '\x7d' :: rest => return ([(key, value)], rest)
        | _ => none
      | _ => none
    | _ => none

end

/-- `json.Unmarshal` of a whole text: one value with nothing but white space around it. -/
def read (text : List Char) : Option Json :=
  match readValue (text.length + 1) text with
  | some (document, rest) => if skipSpace rest = [] then some document else none
  | none => none

/-- The text behind a value does not continue a number. -/
def EndsNumber (rest : List Char) : Prop := ∀ c ∈ rest.head?, isNumberChar c = false

/-- A line break ends a number. -/
theorem endsNumber_newline (depth : Nat) (rest : List Char) :
    EndsNumber (newline depth ++ rest) := by
  intro c head
  cases head
  decide

/-- So does what follows an item. -/
theorem endsNumber_items (depth outer : Nat) (items : List Json) (rest : List Char) :
    EndsNumber (printItems depth items ++ (newline outer ++ rest)) := by
  cases items with
  | nil =>
    rw [printItems, List.nil_append]
    exact endsNumber_newline outer rest
  | cons item items =>
    intro c head
    simp only [printItems, List.cons_append, List.head?_cons, Option.mem_some_iff] at head
    subst head
    decide

/-- So does what follows a member. -/
theorem endsNumber_members (depth outer : Nat) (members : List (String × Json))
    (rest : List Char) : EndsNumber (printMembers depth members ++ (newline outer ++ rest)) := by
  cases members with
  | nil =>
    rw [printMembers, List.nil_append]
    exact endsNumber_newline outer rest
  | cons member members =>
    intro c head
    simp only [printMembers, List.cons_append, List.head?_cons, Option.mem_some_iff] at head
    subst head
    decide

/-- A run of number characters ends where the rest does not continue it. -/
theorem takeWhile_number (text rest : List Char) (chars : text.all isNumberChar = true)
    (ends : EndsNumber rest) :
    (text ++ rest).takeWhile isNumberChar = text ∧
      (text ++ rest).dropWhile isNumberChar = rest := by
  induction text with
  | nil =>
    cases rest with
    | nil => exact ⟨rfl, rfl⟩
    | cons c rest => simp [ends c rfl]
  | cons c text ih =>
    simp only [List.all_cons, Bool.and_eq_true] at chars
    simp [chars.1, ih chars.2]

/-- Reading a number literal. -/
theorem readValue_number (fuel : Nat) (literal : NumberLiteral) (rest : List Char)
    (ends : EndsNumber rest) :
    readValue (fuel + 1) (literal.text ++ rest) = some (.num literal, rest) := by
  obtain ⟨text, valid⟩ := literal
  obtain ⟨taken, dropped⟩ := takeWhile_number text rest (isNumber_chars valid) ends
  obtain ⟨c, tail, rfl, head⟩ := isNumber_head valid
  have starts : c ≠ 'n' ∧ c ≠ 't' ∧ c ≠ 'f' ∧ c ≠ '"' ∧ c ≠ '[' ∧ c ≠ '\x7b' ∧
      isSpace c = false := by
    rcases head with rfl | digit
    · decide
    · have other : ∀ d : Char, d.isDigit = false → c ≠ d := by
        intro d noDigit same
        rw [← same, digit] at noDigit
        cases noDigit
      refine ⟨other _ rfl, other _ rfl, other _ rfl, other _ rfl, other _ rfl, other _ rfl, ?_⟩
      · by_contra space
        simp only [isSpace, Bool.not_eq_false, Bool.or_eq_true, decide_eq_true_eq] at space
        rcases space with ((rfl | rfl) | rfl) | rfl <;> exact absurd digit (by decide)
  obtain ⟨h1, h2, h3, h4, h5, h6, visible⟩ := starts
  rw [readValue, List.cons_append, skipSpace_cons _ _ visible]
  split <;> simp_all

/-- White space before a value is skipped. -/
theorem readValue_newline (fuel depth : Nat) (text : List Char) :
    readValue fuel (newline depth ++ text) = readValue fuel text := by
  cases fuel with
  | zero => rw [readValue, readValue]
  | succ fuel => rw [readValue, readValue, skipSpace_append _ _ (newline_isSpace depth)]

/-- The blank behind a member's colon is skipped. -/
theorem readValue_blank (fuel : Nat) (text : List Char) :
    readValue fuel (' ' :: text) = readValue fuel text := by
  cases fuel with
  | zero => rw [readValue, readValue]
  | succ fuel => rw [readValue, readValue, ← List.singleton_append, skipSpace_append _ _ rfl]

/-- A written value starts with a visible character that closes no array. -/
theorem printAt_head (depth : Nat) (document : Json) :
    ∃ c rest, printAt depth document = c :: rest ∧ isSpace c = false ∧ c ≠ ']' := by
  cases document with
  | null => exact ⟨_, _, rfl, rfl, by decide⟩
  | bool value => cases value <;> exact ⟨_, _, rfl, rfl, by decide⟩
  | str text => exact ⟨_, _, rfl, rfl, by decide⟩
  | num literal =>
    obtain ⟨c, rest, equal, head⟩ := isNumber_head literal.isNumber
    refine ⟨c, rest, by rw [printAt, equal], ?_, ?_⟩
    · rcases head with rfl | digit
      · rfl
      · by_contra space
        simp only [isSpace, Bool.not_eq_false, Bool.or_eq_true, decide_eq_true_eq] at space
        rcases space with ((rfl | rfl) | rfl) | rfl <;> exact absurd digit (by decide)
    · rintro rfl
      rcases head with minus | digit
      · exact absurd minus (by decide)
      · exact absurd digit (by decide)
  | arr items =>
    cases items with
    | nil => exact ⟨_, _, by rw [printAt], rfl, by decide⟩
    | cons item items => exact ⟨_, _, by rw [printAt]; rfl, rfl, by decide⟩
  | obj members =>
    cases members with
    | nil => exact ⟨_, _, by rw [printAt], rfl, by decide⟩
    | cons member members => exact ⟨_, _, by rw [printAt]; rfl, rfl, by decide⟩

mutual

/-- Reading a written value returns it, given fuel for its length. -/
theorem readValue_printAt : ∀ (document : Json) (depth fuel : Nat) (rest : List Char),
    (printAt depth document).length < fuel → EndsNumber rest →
    readValue fuel (printAt depth document ++ rest) = some (document, rest)
  | _, _, 0, _, enough, _ => absurd enough (Nat.not_lt_zero _)
  | .null, depth, fuel + 1, rest, _, _ => by
    simp [printAt, readValue, isSpace]
  | .bool true, depth, fuel + 1, rest, _, _ => by
    simp [printAt, readValue, isSpace]
  | .bool false, depth, fuel + 1, rest, _, _ => by
    simp [printAt, readValue, isSpace]
  | .num literal, depth, fuel + 1, rest, _, ends => by
    rw [printAt]
    exact readValue_number fuel literal rest ends
  | .str text, depth, fuel + 1, rest, _, _ => by
    simp [printAt, printString, readValue, isSpace]
  | .arr [], depth, fuel + 1, rest, _, _ => by
    simp [printAt, readValue, isSpace]
  | .arr (item :: items), depth, fuel + 1, rest, enough, ends => by
    simp only [printAt, List.length_append, List.length_cons, List.length_nil] at enough
    have inner := readItems_printed item items (depth + 1) depth fuel rest (by omega)
    obtain ⟨c, tail, head, visible, notClose⟩ := printAt_head (depth + 1) item
    simp only [printAt, List.cons_append, List.append_assoc, List.nil_append]
    rw [readValue, skipSpace_cons _ _ rfl]
    simp only
    rw [skipSpace_append _ _ (newline_isSpace _), head, List.cons_append,
      skipSpace_cons _ _ visible]
    split
    · rename_i equal
      exact absurd (List.cons.inj equal).1 notClose
    · rw [← List.cons_append, ← head, inner]
      rfl
  | .obj [], depth, fuel + 1, rest, _, _ => by
    simp [printAt, readValue, isSpace]
  | .obj ((key, value) :: members), depth, fuel + 1, rest, enough, ends => by
    simp only [printAt, List.length_append, List.length_cons, List.length_nil] at enough
    have inner := readMembers_printed key value members (depth + 1) depth fuel rest (by omega)
    simp only [printAt, List.cons_append, List.append_assoc, List.nil_append]
    rw [readValue, skipSpace_cons _ _ rfl]
    simp only
    rw [skipSpace_append _ _ (newline_isSpace _)]
    simp only [printString, List.cons_append] at inner ⊢
    rw [skipSpace_cons _ _ rfl, inner]
    rfl
termination_by structural _ _ fuel => fuel

/-- Reading the written items of an array returns them. -/
theorem readItems_printed : ∀ (item : Json) (items : List Json) (depth outer fuel : Nat)
    (rest : List Char),
    (printAt depth item).length + (printItems depth items).length + 1 < fuel →
    readItems fuel (newline depth ++ (printAt depth item ++ (printItems depth items ++
      (newline outer ++ ']' :: rest)))) = some (item :: items, rest)
  | _, _, _, _, 0, _, enough => absurd enough (Nat.not_lt_zero _)
  | item, [], depth, outer, fuel + 1, rest, enough => by
    simp only [printItems, List.length_nil] at enough
    have first := readValue_printAt item depth fuel (newline outer ++ ']' :: rest) (by omega)
      (endsNumber_newline outer _)
    rw [readItems, readValue_newline, printItems, List.nil_append, first]
    simp only [Option.bind_eq_bind, Option.bind_some]
    rw [skipSpace_append _ _ (newline_isSpace _), skipSpace_cons _ _ rfl]
    rfl
  | item, next :: items, depth, outer, fuel + 1, rest, enough => by
    have first := readValue_printAt item depth fuel
      (printItems depth (next :: items) ++ (newline outer ++ ']' :: rest)) (by omega)
      (endsNumber_items depth outer (next :: items) _)
    simp only [printItems, List.length_append, List.length_cons] at enough
    have others := readItems_printed next items depth outer fuel rest (by omega)
    rw [readItems, readValue_newline, first]
    simp only [Option.bind_eq_bind, Option.bind_some, printItems, List.cons_append,
      List.append_assoc]
    rw [skipSpace_cons _ _ rfl]
    simp only
    rw [others]
    rfl
termination_by structural _ _ _ _ fuel => fuel

/-- Reading the written members of an object returns them. -/
theorem readMembers_printed : ∀ (key : String) (value : Json) (members : List (String × Json))
    (depth outer fuel : Nat) (rest : List Char),
    (printAt depth value).length + (printMembers depth members).length + 1 < fuel →
    readMembers fuel (newline depth ++ (printString key ++ (':' :: ' ' ::
      (printAt depth value ++ (printMembers depth members ++
        (newline outer ++ '\x7d' :: rest)))))) = some ((key, value) :: members, rest)
  | _, _, _, _, _, 0, _, enough => absurd enough (Nat.not_lt_zero _)
  | key, value, [], depth, outer, fuel + 1, rest, enough => by
    simp only [printMembers, List.length_nil] at enough
    have first := readValue_printAt value depth fuel (newline outer ++ '\x7d' :: rest) (by omega)
      (endsNumber_newline outer _)
    rw [readMembers, skipSpace_append _ _ (newline_isSpace _), printString]
    simp only [List.cons_append, List.append_assoc, List.nil_append]
    rw [skipSpace_cons _ _ rfl]
    simp only [readString_printed, Option.bind_eq_bind, Option.bind_some]
    rw [skipSpace_cons _ _ rfl]
    simp only [readValue_blank, printMembers, List.nil_append, first, Option.bind_some]
    rw [skipSpace_append _ _ (newline_isSpace _), skipSpace_cons _ _ rfl]
    rfl
  | key, value, (next, nextValue) :: members, depth, outer, fuel + 1, rest, enough => by
    have first := readValue_printAt value depth fuel
      (printMembers depth ((next, nextValue) :: members) ++ (newline outer ++ '\x7d' :: rest))
      (by omega) (endsNumber_members depth outer _ _)
    simp only [printMembers, List.length_append, List.length_cons, List.length_nil] at enough
    have others := readMembers_printed next nextValue members depth outer fuel rest (by omega)
    rw [readMembers, skipSpace_append _ _ (newline_isSpace _), printString]
    simp only [List.cons_append, List.append_assoc, List.nil_append]
    rw [skipSpace_cons _ _ rfl]
    simp only [readString_printed, Option.bind_eq_bind, Option.bind_some]
    rw [skipSpace_cons _ _ rfl]
    simp only [readValue_blank, first, Option.bind_some]
    simp only [printMembers, List.cons_append, List.append_assoc, List.nil_append]
    rw [skipSpace_cons _ _ rfl]
    simp only
    rw [others]
    rfl
termination_by structural _ _ _ _ _ fuel => fuel

end

/-- Reading the text of a document returns the document. -/
@[simp] theorem read_print (document : Json) : read (print document) = some document := by
  have value := readValue_printAt document 0 ((print document).length + 1) []
    (Nat.lt_succ_self _) (by intro c head; cases head)
  rw [List.append_nil] at value
  rw [read]
  change (match readValue ((print document).length + 1) (printAt 0 document) with
    | some (document, rest) => if skipSpace rest = [] then some document else none
    | none => none) = some document
  rw [value]
  rfl

end Json

end SvpMcp
