import Mathlib.Algebra.Order.Field.Rat
import Mathlib.Tactic.FieldSimp
import SvpMcp.Lib.Decimal
import SvpMcp.Lib.Strings

/-!
# Decimal numerals with a point

The texts of digits with at most one point and the number each denotes; the fixed-point
parsers are specified by the numerals they accept.
-/

namespace SvpMcp

/-- A decimal numeral without sign. -/
structure Numeral where
  /-- The digits before the point. -/
  whole : List Char
  /-- The digits behind the point, if there is one. -/
  fraction : Option (List Char)
  wholeDigits : whole.all Char.isDigit = true
  fractionDigits : (fraction.getD []).all Char.isDigit = true

namespace Numeral

/-- The text of a numeral. -/
def text (n : Numeral) : List Char :=
  match n.fraction with
  | none => n.whole
  | some fraction => n.whole ++ '.' :: fraction

/-- All digits, without the point. -/
def digits (n : Numeral) : List Char := n.whole ++ n.fraction.getD []

/-- The number of digits behind the point. -/
def places (n : Numeral) : Nat := (n.fraction.getD []).length

/-- The number all digits spell. -/
def number (n : Numeral) : Nat := Nat.ofDigitChars 10 n.digits 0

/-- The rational number a numeral denotes. -/
def value (n : Numeral) : ℚ := n.number / 10 ^ n.places

/-- A numeral denotes its number in the unit of the last of some places. -/
theorem value_eq {n : Numeral} {places number : Nat} (atMost : n.places ≤ places)
    (isNumber : n.number * 10 ^ (places - n.places) = number) :
    n.value * 10 ^ places = number := by
  have split : (10 : ℚ) ^ places = 10 ^ n.places * 10 ^ (places - n.places) := by
    rw [← pow_add, Nat.add_sub_cancel' atMost]
  rw [value, ← isNumber, split]
  push_cast
  field_simp

/-- The digits are digits. -/
theorem digits_all_isDigit (n : Numeral) : n.digits.all Char.isDigit = true := by
  rw [digits, List.all_append, n.wholeDigits, n.fractionDigits, Bool.and_true]

variable {digits : List Char} {sign : Decimal.Sign}

/-- A sign and digits hold no point. -/
theorem point_absent (sign : Decimal.Sign) (areDigits : digits.all Char.isDigit = true) :
    '.' ∉ sign.text ++ digits := by
  rw [List.mem_append, not_or]
  constructor
  · cases sign <;> decide
  · intro member
    exact absurd (List.all_eq_true.mp areDigits '.' member) (by decide)

/-- A signed numeral is cut at its point. -/
theorem cut_text (sign : Decimal.Sign) (n : Numeral) :
    Strings.cut '.' (sign.text ++ n.text) =
      (sign.text ++ n.whole, n.fraction.getD [], n.fraction.isSome) := by
  have absent := point_absent sign n.wholeDigits
  unfold text
  cases n.fraction with
  | none => exact Strings.cut_absent absent
  | some fraction =>
    rw [← List.append_assoc]
    exact Strings.cut_present absent fraction

/-- A text that is cut into a sign, digits and digits is a signed numeral. -/
theorem exists_of_cut {text whole fraction : List Char} {hasPoint : Bool}
    (parts : Strings.cut '.' text = (whole, fraction, hasPoint))
    (isWhole : whole = sign.text ++ digits) (wholeDigits : digits.all Char.isDigit = true)
    (fractionDigits : fraction.all Char.isDigit = true) :
    ∃ n : Numeral, text = sign.text ++ n.text ∧ n.whole = digits ∧ n.fraction.getD [] = fraction ∧
      n.fraction.isSome = hasPoint := by
  by_cases present : '.' ∈ text
  · obtain ⟨before, after, isText, absent⟩ := List.eq_append_cons_of_mem present
    rw [isText, Strings.cut_present absent] at parts
    cases parts
    refine ⟨⟨digits, some fraction, wholeDigits, fractionDigits⟩, ?_, rfl, rfl, rfl⟩
    rw [isText, isWhole, List.append_assoc]
    rfl
  · rw [Strings.cut_absent present] at parts
    cases parts
    exact ⟨⟨digits, none, wholeDigits, rfl⟩, isWhole, rfl, rfl, rfl⟩

/-- A sign is not a digit, so a text has one sign and one run of digits behind it. -/
theorem sign_inj {sign' : Decimal.Sign} {digits' : List Char}
    (areDigits : digits.all Char.isDigit = true) (areDigits' : digits'.all Char.isDigit = true)
    (same : sign.text ++ digits = sign'.text ++ digits') : sign = sign' ∧ digits = digits' := by
  have notSign : ∀ {c : Char} {run rest : List Char}, c.isDigit = false →
      run.all Char.isDigit = true → run ≠ c :: rest := by
    rintro c run rest notDigit allDigits rfl
    rw [List.all_cons, notDigit, Bool.false_and] at allDigits
    cases allDigits
  cases sign with
  | none =>
    cases sign' with
    | none => exact ⟨rfl, same⟩
    | plus => exact absurd same (notSign (by decide) areDigits)
    | minus => exact absurd same (notSign (by decide) areDigits)
  | plus =>
    cases sign' with
    | none => exact absurd same.symm (notSign (by decide) areDigits')
    | plus => exact ⟨rfl, (List.cons.inj same).2⟩
    | minus => exact absurd (List.cons.inj same).1 (by decide)
  | minus =>
    cases sign' with
    | none => exact absurd same.symm (notSign (by decide) areDigits')
    | plus => exact absurd (List.cons.inj same).1 (by decide)
    | minus => exact ⟨rfl, (List.cons.inj same).2⟩

/-- A numeral does not start with a minus sign. -/
theorem minus_of_head {n : Numeral} {rest : List Char}
    (starts : sign.text ++ n.text = '-' :: rest) :
    sign = .minus := by
  have parts := n.cut_text sign
  rw [starts, Strings.cut, if_neg (by decide)] at parts
  have isWhole : sign.text ++ n.whole = '-' :: (Strings.cut '.' rest).1 :=
    (congrArg Prod.fst parts).symm
  cases sign with
  | none =>
    have digits := n.wholeDigits
    rw [show n.whole = '-' :: _ from isWhole] at digits
    cases digits
  | plus => exact absurd (List.cons.inj isWhole).1 (by decide)
  | minus => rfl

/-- A text is a signed numeral in one way only. -/
theorem text_inj {sign' : Decimal.Sign} {n n' : Numeral}
    (same : sign.text ++ n.text = sign'.text ++ n'.text) : sign = sign' ∧ n = n' := by
  have parts := cut_text sign n
  rw [same, cut_text sign' n'] at parts
  have wholes := congrArg Prod.fst parts
  have fractions := congrArg (·.2.1) parts
  have points := congrArg (·.2.2) parts
  have sameWhole := sign_inj n'.wholeDigits n.wholeDigits wholes
  have sameFraction : n.fraction = n'.fraction := by
    cases found : n.fraction with
    | none =>
      cases found' : n'.fraction with
      | none => rfl
      | some _ => simp [found, found'] at points
    | some fraction =>
      cases found' : n'.fraction with
      | none => simp [found, found'] at points
      | some _ => simp [found, found'] at fractions; rw [fractions]
  refine ⟨sameWhole.1.symm, ?_⟩
  cases n
  cases n'
  cases sameWhole.2
  cases sameFraction
  rfl

/-- A digit is not white space. -/
theorem isSpace_of_isDigit {c : Char} (digit : c.isDigit = true) : Strings.isSpace c = false := by
  have solid : ∀ code, code < 58 → 48 ≤ code → Strings.isSpace (Char.ofNat code) = false := by
    decide
  have range := Char.isDigit_iff_toNat.mp digit
  have nine : '9'.toNat = 57 := rfl
  have known := solid c.toNat (by omega) range.1
  rw [Char.ofNat_toNat] at known
  exact known

/-- A signed numeral holds no white space. -/
theorem text_solid (sign : Decimal.Sign) (n : Numeral) :
    ∀ c ∈ sign.text ++ n.text, Strings.isSpace c = false := by
  have solidDigits : ∀ digits : List Char, digits.all Char.isDigit = true →
      ∀ c ∈ digits, Strings.isSpace c = false := by
    intro digits areDigits c member
    exact isSpace_of_isDigit (List.all_eq_true.mp areDigits c member)
  intro c member
  rcases List.mem_append.mp member with isSign | inNumeral
  · cases sign with
    | none => cases isSign
    | plus =>
      rw [List.mem_singleton.mp isSign]
      decide
    | minus =>
      rw [List.mem_singleton.mp isSign]
      decide
  · have digits := n.fractionDigits
    unfold text at inNumeral
    cases found : n.fraction with
    | none =>
      rw [found] at inNumeral
      exact solidDigits _ n.wholeDigits c inNumeral
    | some fraction =>
      rw [found] at inNumeral digits
      rcases List.mem_append.mp inNumeral with before | behind
      · exact solidDigits _ n.wholeDigits c before
      · rcases List.mem_cons.mp behind with point | after
        · rw [point]
          decide
        · exact solidDigits _ digits c after

/-- The digits and the zeros behind them are never nothing. -/
theorem filled_ne_nil (n : Numeral) {width : Nat} (positive : 0 < width)
    (places : n.places ≤ width) :
    n.digits ++ List.replicate (width - n.places) '0' ≠ [] := by
  intro empty
  have count := congrArg List.length empty
  rw [List.length_append, digits, List.length_append, List.length_replicate,
    List.length_nil] at count
  change n.whole.length + n.places + (width - n.places) = 0 at count
  omega

/-- A sign in front of a text that does not start empty belongs to its first part. -/
theorem split_sign {whole rest : List Char} (nonempty : whole ≠ [])
    (joined : whole ++ rest = sign.text ++ digits) :
    ∃ run, whole = sign.text ++ run ∧ digits = run ++ rest := by
  cases sign with
  | none => exact ⟨whole, rfl, joined.symm⟩
  | plus =>
    cases whole with
    | nil => exact absurd rfl nonempty
    | cons c run =>
      have parts := List.cons.inj joined
      exact ⟨run, by rw [parts.1]; rfl, parts.2.symm⟩
  | minus =>
    cases whole with
    | nil => exact absurd rfl nonempty
    | cons c run =>
      have parts := List.cons.inj joined
      exact ⟨run, by rw [parts.1]; rfl, parts.2.symm⟩

/-- The joined and filled-up digits of a signed numeral are read as its scaled number, and
nothing else is read. -/
theorem read_filled {text whole fraction : List Char} {hasPoint : Bool}
    (parts : Strings.cut '.' text = (whole, fraction, hasPoint)) (nonempty : whole ≠ [])
    (k : Nat) (z : Int) :
    Decimal.read (whole ++ fraction ++ List.replicate k '0') = some z ↔
      ∃ (sign : Decimal.Sign) (n : Numeral), text = sign.text ++ n.text ∧
        n.digits ++ List.replicate k '0' ≠ [] ∧ z = sign.factor * (n.number * 10 ^ k : Nat) := by
  rw [Decimal.read_eq_some]
  constructor
  · rintro ⟨sign, digits, m, joined, isNumber, rfl⟩
    unfold Decimal.readDigits at isNumber
    split at isNumber
    · rename_i accepted
      cases isNumber
      -- The sign is the head of the part before the point.
      rw [List.append_assoc] at joined
      obtain ⟨run, isWhole, isRun⟩ := split_sign nonempty joined
      have allDigits := accepted.2
      rw [isRun, ← List.append_assoc, List.all_append, List.all_append, Bool.and_eq_true,
        Bool.and_eq_true] at allDigits
      obtain ⟨n, isText, sameRun, sameFraction, _⟩ :=
        exists_of_cut parts isWhole allDigits.1.1 allDigits.1.2
      have sameDigits : n.digits ++ List.replicate k '0' = digits := by
        rw [isRun, Numeral.digits, sameRun, sameFraction, List.append_assoc]
      refine ⟨sign, n, isText, sameDigits ▸ accepted.1, ?_⟩
      rw [← sameDigits, Decimal.ofDigitChars_zeros]
      rfl
    · cases isNumber
  · rintro ⟨sign, n, rfl, some_digit, rfl⟩
    rw [cut_text] at parts
    cases parts
    refine ⟨sign, n.digits ++ List.replicate k '0', n.number * 10 ^ k, ?_, ?_, rfl⟩
    · rw [Numeral.digits, List.append_assoc, List.append_assoc, List.append_assoc]
    · have accepted : n.digits ++ List.replicate k '0' ≠ [] ∧
          (n.digits ++ List.replicate k '0').all Char.isDigit = true := by
        refine ⟨some_digit, ?_⟩
        rw [List.all_append, n.digits_all_isDigit, Bool.true_and, List.all_eq_true]
        intro c member
        rw [List.eq_of_mem_replicate member]
        decide
      rw [Decimal.readDigits, if_pos accepted, Decimal.ofDigitChars_zeros]
      rfl

/-- The same for a missing part before the point, where a zero is put. -/
theorem read_filled_zero {fraction : List Char} (k : Nat) (z : Int) :
    Decimal.read ('0' :: (fraction ++ List.replicate k '0')) = some z ↔
      fraction.all Char.isDigit = true ∧ z = (Nat.ofDigitChars 10 fraction 0 * 10 ^ k : Nat) := by
  have value : Nat.ofDigitChars 10 ('0' :: (fraction ++ List.replicate k '0')) 0 =
      Nat.ofDigitChars 10 fraction 0 * 10 ^ k := by
    rw [Nat.ofDigitChars_cons, ← Decimal.ofDigitChars_zeros]
    rfl
  rw [Decimal.read_unsigned _ (by simp), Decimal.readDigits]
  by_cases digits : fraction.all Char.isDigit = true
  · have accepted : '0' :: (fraction ++ List.replicate k '0') ≠ [] ∧
        ('0' :: (fraction ++ List.replicate k '0')).all Char.isDigit = true := by
      refine ⟨by simp, ?_⟩
      rw [List.all_cons, List.all_append, digits, Bool.true_and, List.all_replicate]
      cases k <;> rfl
    rw [if_pos accepted, value, Option.map_some, Option.some.injEq]
    exact ⟨fun same => ⟨digits, same.symm⟩, fun same => same.2.symm⟩
  · have refused : ¬ ('0' :: (fraction ++ List.replicate k '0') ≠ [] ∧
        ('0' :: (fraction ++ List.replicate k '0')).all Char.isDigit = true) := by
      rintro ⟨_, all⟩
      rw [List.all_cons, List.all_append, Bool.and_eq_true, Bool.and_eq_true] at all
      exact digits all.2.1
    rw [if_neg refused]
    exact iff_of_false (by simp) fun both => digits both.1

variable (places n : Nat)

/-- The digits behind the point that are not trailing zeros. -/
def significant : List Char :=
  Strings.trimRight (Decimal.padded places (n % 10 ^ places)) '0'

/-- So are the significant ones. -/
theorem significant_digits : (significant places n).all Char.isDigit = true := by
  obtain ⟨k, parts⟩ := Strings.eq_trimRight_append (Decimal.padded places (n % 10 ^ places)) '0'
  have digits := Decimal.padded_all_isDigit places (n % 10 ^ places)
  rw [parts, List.all_append, Bool.and_eq_true] at digits
  exact digits.1

/-- The shortest numeral of `n` units in the last of `places` places. -/
def shortest : Numeral where
  whole := Decimal.digits (n / 10 ^ places)
  fraction := if significant places n = [] then none else some (significant places n)
  wholeDigits := Decimal.digits_all_isDigit _
  fractionDigits := by
    split
    · rfl
    · exact significant_digits places n

/-- The fraction of the shortest numeral. -/
theorem shortest_fraction : (shortest places n).fraction.getD [] = significant places n := by
  change (if significant places n = [] then none else some (significant places n)).getD [] = _
  by_cases none : significant places n = []
  · rw [if_pos none, none]
    rfl
  · rw [if_neg none]
    rfl

/-- It ends in no bare point. -/
theorem shortest_trailing : (shortest places n).fraction ≠ some [] := by
  change (if significant places n = [] then none else some (significant places n)) ≠ some []
  split
  · simp
  · rename_i some
    simpa using some

/-- Only a zero has no significant digits. -/
theorem significant_eq_nil {places n : Nat} :
    significant places n = [] ↔ n % 10 ^ places = 0 := by
  constructor
  · intro none
    obtain ⟨k, parts⟩ := Strings.eq_trimRight_append (Decimal.padded places (n % 10 ^ places)) '0'
    change _ = significant places n ++ _ at parts
    rw [← Decimal.ofDigitChars_padded places (n % 10 ^ places), parts, none,
      Decimal.ofDigitChars_zeros, Nat.ofDigitChars_nil, Nat.zero_mul]
  · intro zero
    rw [significant, zero, Strings.trimRight, List.rdropWhile_eq_nil_iff, Decimal.padded]
    intro c member
    rcases List.mem_append.mp member with padding | digit
    · simpa using List.eq_of_mem_replicate padding
    · simpa [Decimal.digits] using digit

/-- Units of a smaller place that are a multiple change nothing. -/
theorem significant_scaled (places n k : Nat) :
    significant (places + k) (n * 10 ^ k) = significant places n := by
  have remainder : n * 10 ^ k % 10 ^ (places + k) = n % 10 ^ places * 10 ^ k := by
    rw [Nat.pow_add, Nat.mul_mod_mul_right]
  by_cases positive : 0 < places
  · rw [significant, remainder,
      Decimal.padded_zeros positive (Nat.mod_lt _ (Nat.pow_pos (by decide))),
      Strings.trimRight_replicate, significant]
  · -- Without places there is nothing behind the point.
    have none : places = 0 := by omega
    have zero : n % 10 ^ places = 0 := by rw [none, Nat.pow_zero, Nat.mod_one]
    rw [significant_eq_nil.mpr zero,
      significant_eq_nil.mpr (by rw [remainder, zero, Nat.zero_mul])]

/-- Zeros behind do not change it. -/
theorem shortest_scaled (places n k : Nat) :
    shortest (places + k) (n * 10 ^ k) = shortest places n := by
  have whole : n * 10 ^ k / 10 ^ (places + k) = n / 10 ^ places := by
    rw [Nat.pow_add, Nat.mul_div_mul_right _ _ (Nat.pow_pos (by decide))]
  unfold shortest
  simp only [whole, significant_scaled]

/-- The shortest numeral has at most the given places, and spells the units. -/
theorem shortest_number :
    (shortest places n).places ≤ places ∧
      (shortest places n).number * 10 ^ (places - (shortest places n).places) = n := by
  have units := Nat.div_add_mod n (10 ^ places)
  have below : n % 10 ^ places < 10 ^ places := Nat.mod_lt _ (Nat.pow_pos (by decide))
  obtain ⟨k, parts⟩ := Strings.eq_trimRight_append (Decimal.padded places (n % 10 ^ places)) '0'
  change _ = significant places n ++ _ at parts
  have isPlaces : (shortest places n).places = (significant places n).length := by
    rw [Numeral.places, shortest_fraction]
  have isDigits : (shortest places n).digits =
      Decimal.digits (n / 10 ^ places) ++ significant places n := by
    rw [Numeral.digits, shortest_fraction]
    rfl
  by_cases positive : 0 < places
  · have count := Decimal.length_padded places _ positive below
    rw [parts, List.length_append, List.length_replicate] at count
    have filled : places - (shortest places n).places = k := by omega
    refine ⟨by omega, ?_⟩
    rw [filled, Numeral.number, isDigits, ← Decimal.ofDigitChars_zeros, List.append_assoc, ← parts,
      Nat.ofDigitChars_append, Nat.ofDigitChars_eq_ofDigitChars_zero, Decimal.ofDigitChars_padded,
      Decimal.length_padded places _ positive below, Decimal.digits, Nat.ofDigitChars_ten_toDigits]
    exact units
  · have none : places = 0 := by omega
    subst none
    have nothing : significant 0 n = [] :=
      significant_eq_nil.mpr (by rw [Nat.pow_zero, Nat.mod_one])
    rw [nothing, List.length_nil] at isPlaces
    refine ⟨Nat.le_of_eq isPlaces, ?_⟩
    rw [Numeral.number, isDigits, nothing, List.append_nil, Nat.zero_sub, Nat.pow_zero,
      Nat.div_one, Nat.mul_one, Decimal.digits, Nat.ofDigitChars_ten_toDigits]

/-- Digits at the end keep a text from being trimmed of points. -/
theorem trimRight_digits (before : List Char) (nonempty : digits ≠ [])
    (areDigits : digits.all Char.isDigit = true) :
    Strings.trimRight (before ++ digits) '.' = before ++ digits := by
  rw [Strings.trimRight, List.rdropWhile_eq_self_iff]
  intro _ isPoint
  rw [List.getLast_append_of_ne_nil _ nonempty] at isPoint
  have digit := List.all_eq_true.mp areDigits _ (List.getLast_mem nonempty)
  rw [of_decide_eq_true isPoint] at digit
  exact absurd digit (by decide)

/-- The padded text of units, trimmed of its zeros and of a point at the end. -/
theorem trimmed_text :
    Strings.trimRight (Strings.trimRight (Decimal.digits (n / 10 ^ places) ++
        '.' :: Decimal.padded places (n % 10 ^ places)) '0') '.' =
      (shortest places n).text := by
  have wholeDigits := Decimal.digits_all_isDigit (n / 10 ^ places)
  have wholeNonempty := Decimal.digits_ne_nil (n / 10 ^ places)
  rw [Strings.trimRight_stop (by decide)]
  change Strings.trimRight (_ ++ '.' :: significant places n) '.' = _
  by_cases none : significant places n = []
  · have text : (shortest places n).text = Decimal.digits (n / 10 ^ places) := by
      simp only [Numeral.text, shortest, if_pos none]
    rw [none, text]
    exact (Strings.trimRight_replicate _ '.' 1).trans
      (trimRight_digits [] wholeNonempty wholeDigits)
  · have text : (shortest places n).text =
        Decimal.digits (n / 10 ^ places) ++ '.' :: significant places n := by
      simp only [Numeral.text, shortest, if_neg none]
    have trimmed := trimRight_digits (Decimal.digits (n / 10 ^ places) ++ ['.']) none
      (significant_digits places n)
    rw [List.append_assoc] at trimmed
    rw [text]
    exact trimmed

end Numeral

end SvpMcp
