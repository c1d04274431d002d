import Mathlib.Algebra.Order.Ring.Int

/-!
# Decimal numerals

Printing and reading of integers in base ten, as `math/big` and `strconv` do it: an optional
sign and at least one digit.
-/

namespace SvpMcp.Decimal

/-- The digits of a natural number, most significant first. -/
def digits (n : Nat) : List Char :=
  Nat.toDigits 10 n

/-- Read a non-empty run of digits. -/
def readDigits (text : List Char) : Option Nat :=
  if text ≠ [] ∧ text.all Char.isDigit then some (Nat.ofDigitChars 10 text 0) else none

/-- Every printed digit is a digit. -/
theorem digits_all_isDigit (n : Nat) : (digits n).all Char.isDigit = true := by
  rw [List.all_eq_true]
  intro c member
  exact Nat.isDigit_of_mem_toDigits (by decide) (by decide) member

/-- Every number has a digit. -/
theorem digits_ne_nil (n : Nat) : digits n ≠ [] :=
  Nat.toDigits_ne_nil

/-- Reading the digits of a number returns the number. -/
@[simp] theorem readDigits_digits (n : Nat) : readDigits (digits n) = some n := by
  have accepted : digits n ≠ [] ∧ (digits n).all Char.isDigit = true :=
    ⟨digits_ne_nil n, digits_all_isDigit n⟩
  rw [readDigits, if_pos accepted, digits, Nat.ofDigitChars_ten_toDigits]

/-- `strconv.ParseUint` at base 10 and 64 bits — digits only, within the range. -/
def readUint64 (text : List Char) : Option UInt64 :=
  match readDigits text with
  | some n => if n < 2 ^ 64 then some (UInt64.ofNat n) else none
  | none => none

/-- Reading the digits of a 64-bit number returns it. -/
@[simp] theorem readUint64_digits (n : UInt64) : readUint64 (digits n.toNat) = some n := by
  rw [readUint64, readDigits_digits]
  simp only [if_pos n.toNat_lt, UInt64.ofNat_toNat]

/-- Only zero is printed with a leading zero. -/
theorem digits_head (n : Nat) (c : Char) (rest : List Char) (head : digits n = c :: rest) :
    c ≠ '0' ∨ rest = [] := by
  induction n using Nat.strongRecOn generalizing c rest with
  | ind n ih =>
    by_cases small : n < 10
    · right
      rw [digits, Nat.toDigits_of_lt_base small] at head
      exact (List.cons.inj head).2.symm
    · left
      rw [digits, Nat.toDigits_of_base_le (by decide) (by omega)] at head
      cases prefixDigits : Nat.toDigits 10 (n / 10) with
      | nil => exact absurd prefixDigits Nat.toDigits_ne_nil
      | cons d tail =>
        rw [prefixDigits, List.cons_append] at head
        obtain ⟨rfl, -⟩ := List.cons.inj head
        rcases ih (n / 10) (by omega) d tail prefixDigits with nonzero | single
        · exact nonzero
        · -- A one-digit quotient is between 1 and 9.
          rintro rfl
          have value := Nat.ofDigitChars_ten_toDigits (n := n / 10)
          rw [prefixDigits, single] at value
          have zero : n / 10 = 0 := value.symm.trans (by decide)
          omega

/-- `big.Int.String` — the sign and the digits of an integer. -/
def print (n : Int) : List Char :=
  if n < 0 then '-' :: digits n.natAbs else digits n.natAbs

/-- `big.Int.SetString` at base 10 — an optional sign and at least one digit. -/
def read (text : List Char) : Option Int :=
  match text with
  | '-' :: rest => (readDigits rest).map fun n : Nat => -(n : Int)
  | '+' :: rest => (readDigits rest).map fun n : Nat => (n : Int)
  | rest => (readDigits rest).map fun n : Nat => (n : Int)

/-- A text that starts with a digit carries no sign. -/
theorem read_unsigned (text : List Char) (unsigned : ∀ c ∈ text.head?, c.isDigit) :
    read text = (readDigits text).map fun n : Nat => (n : Int) := by
  unfold read
  split
  · exact absurd (unsigned '-' rfl) (by decide)
  · exact absurd (unsigned '+' rfl) (by decide)
  · rfl

/-- The printed digits start with a digit. -/
theorem digits_head_isDigit (n : Nat) : ∀ c ∈ (digits n).head?, c.isDigit := by
  intro c head
  exact List.all_eq_true.mp (digits_all_isDigit n) c (List.mem_of_mem_head? head)

/-- Reading a printed integer returns it. -/
@[simp] theorem read_print (n : Int) : read (print n) = some n := by
  by_cases negative : n < 0
  · rw [print, if_pos negative]
    change (readDigits (digits n.natAbs)).map (fun m : Nat => -(m : Int)) = some n
    rw [readDigits_digits, Option.map_some]
    congr 1
    omega
  · rw [print, if_neg negative, read_unsigned _ (digits_head_isDigit _), readDigits_digits,
      Option.map_some]
    congr 1
    omega

/-- A text prints one number. -/
theorem print_inj {m n : Int} (same : print m = print n) : m = n := by
  have read := congrArg read same
  rw [read_print, read_print] at read
  exact Option.some.inj read

/-- A printed integer has digits and perhaps a minus sign. -/
theorem mem_print {n : Int} {c : Char} (member : c ∈ print n) : c = '-' ∨ c.isDigit = true := by
  have digit : c ∈ digits n.natAbs → c.isDigit = true := fun inDigits =>
    List.all_eq_true.mp (digits_all_isDigit n.natAbs) c inDigits
  unfold print at member
  split at member
  · rcases List.mem_cons.mp member with isMinus | inDigits
    · exact .inl isMinus
    · exact .inr (digit inDigits)
  · exact .inr (digit member)

/-- `strconv.ParseInt` at base 10 and 64 bits. -/
def readInt64 (text : List Char) : Option Int :=
  match read text with
  | some n => if -2 ^ 63 ≤ n ∧ n < 2 ^ 63 then some n else none
  | none => none

/-- An `int64` is read back. -/
theorem readInt64_print {n : Int} (low : -2 ^ 63 ≤ n) (high : n < 2 ^ 63) :
    readInt64 (print n) = some n := by
  rw [readInt64, read_print]
  exact if_pos ⟨low, high⟩

/-- The sign in front of a numeral. -/
inductive Sign where
  | none
  | plus
  | minus
deriving DecidableEq, Repr

/-- The text of a sign. -/
def Sign.text : Sign → List Char
  | .none => []
  | .plus => ['+']
  | .minus => ['-']

/-- The factor a sign stands for. -/
def Sign.factor : Sign → Int
  | .none => 1
  | .plus => 1
  | .minus => -1

/-- What is read as an integer: a sign and at least one digit. -/
theorem read_eq_some {text : List Char} {n : Int} : read text = some n ↔
    ∃ (sign : Sign) (digits : List Char) (m : Nat), text = sign.text ++ digits ∧
      readDigits digits = some m ∧ n = sign.factor * m := by
  constructor
  · intro isRead
    unfold read at isRead
    split at isRead
    · rename_i rest
      obtain ⟨m, digits, isNumber⟩ := Option.map_eq_some_iff.mp isRead
      exact ⟨.minus, rest, m, rfl, digits, by rw [← isNumber]; exact Int.neg_eq_neg_one_mul _⟩
    · rename_i rest
      obtain ⟨m, digits, isNumber⟩ := Option.map_eq_some_iff.mp isRead
      exact ⟨.plus, rest, m, rfl, digits, by rw [← isNumber]; exact (Int.one_mul _).symm⟩
    · obtain ⟨m, digits, isNumber⟩ := Option.map_eq_some_iff.mp isRead
      exact ⟨.none, text, m, rfl, digits, by rw [← isNumber]; exact (Int.one_mul _).symm⟩
  · rintro ⟨sign, digits, m, rfl, isDigits, rfl⟩
    cases sign with
    | none =>
      have unsigned : ∀ c ∈ digits.head?, c.isDigit := by
        unfold readDigits at isDigits
        split at isDigits
        · rename_i accepted
          intro c head
          exact List.all_eq_true.mp accepted.2 c (List.mem_of_mem_head? head)
        · cases isDigits
      rw [Sign.text, List.nil_append, read_unsigned digits unsigned, isDigits, Option.map_some,
        Sign.factor, Int.one_mul]
    | plus =>
      change (readDigits digits).map (fun m : Nat => (m : Int)) = some (1 * (m : Int))
      rw [isDigits, Option.map_some, Int.one_mul]
    | minus =>
      change (readDigits digits).map (fun m : Nat => -(m : Int)) = some (-1 * (m : Int))
      rw [isDigits, Option.map_some, ← Int.neg_eq_neg_one_mul]

/-- The integer a text denotes. -/
def Denotes (text : List Char) (n : Int) : Prop :=
  ∃ (sign : Sign) (digits : List Char) (m : Nat), text = sign.text ++ digits ∧
    readDigits digits = some m ∧ n = sign.factor * m

/-- A text denotes what is read. -/
theorem denotes_iff {text : List Char} {n : Int} : Denotes text n ↔ read text = some n :=
  read_eq_some.symm

/-- The digits of a number padded with zeros to at least `width` places. -/
def padded (width n : Nat) : List Char :=
  List.replicate (width - (digits n).length) '0' ++ digits n

/-- Padding does not change the value read. -/
theorem ofDigitChars_padded (width n : Nat) : Nat.ofDigitChars 10 (padded width n) 0 = n := by
  rw [padded, Nat.ofDigitChars_append, Nat.ofDigitChars_replicate_zero, Nat.mul_zero, digits,
    Nat.ofDigitChars_ten_toDigits]

/-- Padding loses nothing. -/
theorem padded_inj {width m n : Nat} (same : padded width m = padded width n) : m = n := by
  have values := congrArg (fun text => Nat.ofDigitChars 10 text 0) same
  simpa [ofDigitChars_padded] using values

/-- Padding adds digits only. -/
theorem padded_all_isDigit (width n : Nat) : (padded width n).all Char.isDigit = true := by
  rw [padded, List.all_append, digits_all_isDigit, Bool.and_true, List.all_eq_true]
  intro c member
  rw [List.eq_of_mem_replicate member]
  decide

/-- A number below `10 ^ width` is padded to exactly `width` places. -/
theorem length_padded (width n : Nat) (positive : 0 < width) (fits : n < 10 ^ width) :
    (padded width n).length = width := by
  have short : (digits n).length ≤ width :=
    (Nat.length_toDigits_le_iff (by decide) positive).mpr fits
  rw [padded, List.length_append, List.length_replicate]
  omega

/-- A digit is at most nine above zero. -/
theorem isDigit_bounds {c : Char} (digit : c.isDigit = true) :
    48 ≤ c.toNat ∧ c.toNat - '0'.toNat ≤ 9 := by
  have range := Char.isDigit_iff_toNat.mp digit
  have zero : '0'.toNat = 48 := rfl
  have nine : '9'.toNat = 57 := rfl
  omega

/-- Zeros behind the digits scale the value. -/
theorem ofDigitChars_zeros (text : List Char) (k : Nat) :
    Nat.ofDigitChars 10 (text ++ List.replicate k '0') 0 = Nat.ofDigitChars 10 text 0 * 10 ^ k := by
  rw [Nat.ofDigitChars_append, Nat.ofDigitChars_replicate_zero, Nat.mul_comm]

/-- The value of the first digit and of the rest. -/
theorem ofDigitChars_head (c : Char) (rest : List Char) :
    Nat.ofDigitChars 10 (c :: rest) 0 =
      10 ^ rest.length * (c.toNat - '0'.toNat) + Nat.ofDigitChars 10 rest 0 := by
  rw [Nat.ofDigitChars_cons, Nat.ofDigitChars_eq_ofDigitChars_zero, Nat.mul_zero, Nat.zero_add]

/-- Digits spell a number below the power of ten of their count. -/
theorem ofDigitChars_lt {text : List Char} (digits : text.all Char.isDigit = true) :
    Nat.ofDigitChars 10 text 0 < 10 ^ text.length := by
  induction text with
  | nil => decide
  | cons c rest ih =>
    rw [List.all_cons, Bool.and_eq_true] at digits
    have tail := ih digits.2
    have head : 10 ^ rest.length * (c.toNat - '0'.toNat) ≤ 10 ^ rest.length * 9 :=
      Nat.mul_le_mul_left _ (isDigit_bounds digits.1).2
    rw [ofDigitChars_head, List.length_cons, Nat.pow_succ]
    omega

/-- As many digits of the same value are the same digits. -/
theorem ofDigitChars_inj {left right : List Char} (leftDigits : left.all Char.isDigit = true)
    (rightDigits : right.all Char.isDigit = true) (lengths : left.length = right.length)
    (values : Nat.ofDigitChars 10 left 0 = Nat.ofDigitChars 10 right 0) : left = right := by
  induction left generalizing right with
  | nil => exact (List.eq_nil_of_length_eq_zero lengths.symm).symm
  | cons c rest ih =>
    cases right with
    | nil => cases lengths
    | cons d tail =>
      rw [List.all_cons, Bool.and_eq_true] at leftDigits rightDigits
      have sameLength : rest.length = tail.length := Nat.succ.inj lengths
      have restBelow := ofDigitChars_lt leftDigits.2
      have tailBelow := ofDigitChars_lt rightDigits.2
      have first := isDigit_bounds leftDigits.1
      have second := isDigit_bounds rightDigits.1
      have zero : '0'.toNat = 48 := rfl
      rw [ofDigitChars_head, ofDigitChars_head, sameLength] at values
      rw [sameLength] at restBelow
      -- The first digit is the quotient by the power of ten, the rest is the remainder.
      have quotients := congrArg (· / 10 ^ tail.length) values
      have remainders := congrArg (· % 10 ^ tail.length) values
      have positive : 0 < 10 ^ tail.length := Nat.pow_pos (by decide)
      simp only [Nat.mul_add_div positive, Nat.div_eq_of_lt restBelow,
        Nat.div_eq_of_lt tailBelow] at quotients
      simp only [Nat.mul_add_mod, Nat.mod_eq_of_lt restBelow,
        Nat.mod_eq_of_lt tailBelow] at remainders
      have sameChar : c = d := Char.toNat_inj.mp (by omega)
      rw [sameChar, ih leftDigits.2 rightDigits.2 sameLength remainders]

/-- Zeros behind a padded number pad its multiple. -/
theorem padded_zeros {width n : Nat} (positive : 0 < width) (fits : n < 10 ^ width) (k : Nat) :
    padded (width + k) (n * 10 ^ k) = padded width n ++ List.replicate k '0' := by
  have below : n * 10 ^ k < 10 ^ (width + k) := by
    rw [Nat.pow_add]
    exact Nat.mul_lt_mul_of_pos_right fits (Nat.pow_pos (by decide))
  apply ofDigitChars_inj
  · exact padded_all_isDigit _ _
  · rw [List.all_append, padded_all_isDigit, Bool.true_and, List.all_eq_true]
    intro c member
    rw [List.eq_of_mem_replicate member]
    decide
  · rw [List.length_append, List.length_replicate, length_padded _ _ positive fits,
      length_padded _ _ (Nat.add_pos_left positive k) below]
  · rw [ofDigitChars_zeros, ofDigitChars_padded, ofDigitChars_padded]

end SvpMcp.Decimal
