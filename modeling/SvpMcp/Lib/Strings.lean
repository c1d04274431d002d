import Mathlib.Data.List.DropRight
import SvpMcp.Lib.LetterCase
import SvpMcp.Lib.Result

/-!
# Text operations and formatted errors

The operations of Go's `strings` package that the server uses, on lists of
characters, and the value of an error built by `fmt.Errorf`.
-/

namespace SvpMcp

variable {separator : Char} {text : List Char}

/-- The error `fmt.Errorf` builds: its format and the operands of the verbs. -/
structure Errorf where
  format : String
  /-- The operands, each as the text `%s` prints. -/
  operands : List String
deriving DecidableEq, Repr

namespace Strings

/-- `unicode.IsSpace`. -/
def isSpace (c : Char) : Bool :=
  c = '\t' || c = '\n' || c = '\x0b' || c = '\x0c' || c = '\r' || c = ' ' ||
    c = '\u0085' || c = '\u00a0' || c = '\u1680' || ('\u2000' ≤ c && c ≤ '\u200a') ||
    c = '\u2028' || c = '\u2029' || c = '\u202f' || c = '\u205f' || c = '\u3000'

/-- `strings.TrimSpace` — drop white space at both ends. -/
def trimSpace (text : List Char) : List Char :=
  (text.dropWhile isSpace).rdropWhile isSpace

/-- `strings.TrimRight` with a one-character cut set. -/
def trimRight (text : List Char) (cutset : Char) : List Char :=
  text.rdropWhile (· = cutset)

/-- `strings.ToLower`. -/
def toLower (text : String) : String :=
  String.ofList (text.toList.map LetterCase.lower)

/-- `strings.ToUpper`. -/
def toUpper (text : String) : String :=
  String.ofList (text.toList.map LetterCase.upper)

/-- `strings.EqualFold`. -/
def equalFold (left right : String) : Bool :=
  left.toList.map LetterCase.fold = right.toList.map LetterCase.fold

/-- `strings.Join`. -/
def join (separator : String) : List String → String
  | [] => ""
  | [text] => text
  | text :: rest => text ++ separator ++ join separator rest

/-- `strings.Cut` — the text before and after the first separator, and whether there is one. -/
def cut (separator : Char) : List Char → List Char × List Char × Bool
  | [] => ([], [], false)
  | c :: rest =>
    if c = separator then ([], rest, true)
    else
      let (before, after, found) := cut separator rest
      (c :: before, after, found)

/-- `strings.SplitN` for a number of parts that is not negative: the last part is not split. -/
def splitN (separator : Char) : Nat → List Char → List (List Char)
  | 0, _ => []
  | 1, text => [text]
  | n + 2, text =>
    match cut separator text with
    | (before, after, true) => before :: splitN separator (n + 1) after
    | (_, _, false) => [text]

/-- The characters of a UTF-8 text from a position on, at most so many of them. -/
def decodeFrom (data : ByteArray) : Nat → Nat → List Char
  | 0, _ => []
  | count + 1, start =>
    if start < data.size then
      match data.utf8DecodeChar? start with
      | some c => c :: decodeFrom data count (start + c.utf8Size)
      -- A byte that begins no character is the replacement character.
      | none => '\ufffd' :: decodeFrom data count (start + 1)
    else []

/-- The characters of a string's bytes. -/
def decode (bytes : List UInt8) : List Char :=
  decodeFrom ⟨bytes.toArray⟩ bytes.length 0

/-- `len` of a string: its length in UTF-8 bytes. -/
def byteLength : List Char → Nat
  | [] => 0
  | c :: rest => c.utf8Size + byteLength rest

/-- A text without white space is not trimmed. -/
theorem trimSpace_of_solid (solid : ∀ c ∈ text, isSpace c = false) :
    trimSpace text = text := by
  have front : text.dropWhile isSpace = text := by
    cases text with
    | nil => rfl
    | cons c rest => rw [List.dropWhile_cons_of_neg (by simp [solid c List.mem_cons_self])]
  rw [trimSpace, front, List.rdropWhile_eq_self_iff]
  intro nonempty blank
  rw [solid _ (List.getLast_mem nonempty)] at blank
  cases blank

/-- A separator that does not occur cuts nothing. -/
theorem cut_absent (absent : separator ∉ text) :
    cut separator text = (text, [], false) := by
  induction text with
  | nil => rfl
  | cons c rest ih =>
    rw [List.mem_cons, not_or] at absent
    rw [cut, if_neg (Ne.symm absent.1), ih absent.2]

/-- The first separator cuts. -/
theorem cut_present {before : List Char} (absent : separator ∉ before) (after : List Char) :
    cut separator (before ++ separator :: after) = (before, after, true) := by
  induction before with
  | nil => rw [List.nil_append, cut, if_pos rfl]
  | cons c rest ih =>
    rw [List.mem_cons, not_or] at absent
    rw [List.cons_append, cut, if_neg (Ne.symm absent.1), ih absent.2]

/-- A part before a separator is split off. -/
theorem splitN_present {before : List Char} (absent : separator ∉ before) (n : Nat)
    (after : List Char) : splitN separator (n + 2) (before ++ separator :: after) =
      before :: splitN separator (n + 1) after := by
  rw [splitN, cut_present absent]

/-- A text that is joined with a separator is known from its end: what stands behind the last
separator and what stands before it. -/
theorem join_last_inj {front front' back back' : List Char} (absent : separator ∉ back)
    (absent' : separator ∉ back')
    (same : front ++ separator :: back = front' ++ separator :: back') :
    front = front' ∧ back = back' := by
  have reversed : back.reverse ++ separator :: front.reverse =
      back'.reverse ++ separator :: front'.reverse := by
    simpa using congrArg List.reverse same
  have cuts := congrArg (cut separator) reversed
  rw [cut_present (by simpa using absent), cut_present (by simpa using absent')] at cuts
  have fronts : front.reverse = front'.reverse := (Prod.mk.inj (Prod.mk.inj cuts).2).1
  have backs : back.reverse = back'.reverse := (Prod.mk.inj cuts).1
  exact ⟨List.reverse_inj.mp fronts, List.reverse_inj.mp backs⟩

/-- A character that is not cut stops the trimming. -/
theorem trimRight_stop {c cutset : Char} (kept : c ≠ cutset) (before after : List Char) :
    trimRight (before ++ c :: after) cutset = before ++ c :: trimRight after cutset := by
  unfold trimRight
  induction after using List.reverseRecOn with
  | nil => rw [List.rdropWhile_concat_neg _ _ _ (by simpa using kept), List.rdropWhile_nil]
  | append_singleton rest last ih =>
    rw [← List.cons_append, ← List.append_assoc]
    by_cases isCut : last = cutset
    · rw [List.rdropWhile_concat_pos _ _ _ (by simpa using isCut), ih,
        List.rdropWhile_concat_pos _ _ _ (by simpa using isCut)]
    · rw [List.rdropWhile_concat_neg _ _ _ (by simpa using isCut),
        List.rdropWhile_concat_neg _ _ _ (by simpa using isCut)]
      simp

/-- Characters of the cut set at the end are trimmed. -/
theorem trimRight_replicate (text : List Char) (cutset : Char) (k : Nat) :
    trimRight (text ++ List.replicate k cutset) cutset = trimRight text cutset := by
  induction k with
  | zero => rw [List.replicate_zero, List.append_nil]
  | succ k ih =>
    rw [List.replicate_succ', ← List.append_assoc, trimRight,
      List.rdropWhile_concat_pos _ _ _ (by simp)]
    exact ih

/-- Only characters of the cut set are trimmed. -/
theorem eq_trimRight_append (text : List Char) (cutset : Char) :
    ∃ k, text = trimRight text cutset ++ List.replicate k cutset := by
  have parts : text.rdropWhile (· = cutset) ++ text.rtakeWhile (· = cutset) = text :=
    List.rdropWhile_append_rtakeWhile
  have same : text.rtakeWhile (· = cutset) =
      List.replicate (text.rtakeWhile (· = cutset)).length cutset := by
    rw [List.eq_replicate_iff]
    exact ⟨rfl, fun c member => by simpa using List.mem_rtakeWhile_imp member⟩
  exact ⟨(text.rtakeWhile (· = cutset)).length, by rw [trimRight, ← same, parts]⟩

/-- A digit takes one byte. -/
theorem byteLength_of_digits (digits : text.all Char.isDigit = true) :
    byteLength text = text.length := by
  induction text with
  | nil => rfl
  | cons c rest ih =>
    rw [List.all_cons, Bool.and_eq_true] at digits
    have range := Char.isDigit_iff_toNat.mp digits.1
    have nine : '9'.toNat = 57 := rfl
    have oneByte : c.utf8Size = 1 := by
      rw [Char.utf8Size_eq_one_iff, UInt32.le_iff_toNat_le]
      change c.toNat ≤ 127
      omega
    rw [byteLength, ih digits.2, oneByte, List.length_cons, Nat.add_comm]

end Strings

end SvpMcp
