import SvpMcp.Lib.LegacyDecOrder
import SvpMcp.Lib.Rounding
import SvpMcp.Model.LendoraViews

/-!
# Dollar amounts

What `formatUSD` shows, read as one number, are the cents of the amount, rounded to the nearest
integer with ties to the even one; there is a text as long as they fit an integer.
-/

namespace SvpMcp

open Rounding

/-- Digits with a comma wherever three digits, or groups of them, stand behind it. -/
def Grouped : List Char → Prop
  | [] => True
  | c :: behind => (if behind.length % 4 = 3 then c = ',' else c.isDigit = true) ∧ Grouped behind

/-- Whole dollars: grouped digits, with neither a comma nor a superfluous zero in front. -/
structure IsWhole (text : List Char) : Prop where
  grouped : Grouped text
  front : text.length % 4 ≠ 0
  leading : ∀ rest, text = '0' :: rest → rest = []

/-- An amount in dollars and cents. -/
def IsDollars (text : List Char) : Prop :=
  ∃ sign whole cents, (sign = [] ∨ sign = ['-']) ∧ IsWhole whole ∧ cents.length = 2 ∧
    cents.all Char.isDigit = true ∧ text = sign ++ '$' :: (whole ++ '.' :: cents)

/-- A text without `$`, `,` and `.`. -/
def bare (text : List Char) : List Char := text.filter fun c => !(['$', ',', '.'].contains c)

section Groups

variable {digits lead behind : List Char}

/-- A short group may lead. -/
theorem grouped_append (isLead : lead.all Char.isDigit = true) (short : lead.length ≤ 3)
    (grouped : Grouped behind) (whole : behind.length % 4 = 0) : Grouped (lead ++ behind) := by
  induction lead with
  | nil => exact grouped
  | cons c rest ih =>
    rw [List.all_cons, Bool.and_eq_true] at isLead
    rw [List.length_cons] at short
    have other : ¬ (rest ++ behind).length % 4 = 3 := by
      rw [List.length_append]
      omega
    show (if (rest ++ behind).length % 4 = 3 then c = ',' else c.isDigit = true) ∧
      Grouped (rest ++ behind)
    rw [if_neg other]
    exact ⟨isLead.1, ih isLead.2 (by omega)⟩

/-- Groups have three digits. -/
theorem grouped_commaGroups (isDigits : digits.all Char.isDigit = true) :
    Grouped (commaGroups digits) ∧ (commaGroups digits).length % 4 = 0 := by
  induction digits using commaGroups.induct with
  | case1 a b c rest ih =>
    have isParts : ([a, b, c] ++ rest).all Char.isDigit = true := isDigits
    rw [List.all_append, Bool.and_eq_true] at isParts
    obtain ⟨grouped, whole⟩ := ih isParts.2
    have three := grouped_append isParts.1 (Nat.le_refl 3) grouped whole
    have length : ([a, b, c] ++ commaGroups rest).length % 4 = 3 := by
      rw [List.length_append]
      change (3 + (commaGroups rest).length) % 4 = 3
      omega
    rw [commaGroups]
    have comma : Grouped (',' :: ([a, b, c] ++ commaGroups rest)) := by
      rw [Grouped, if_pos length]
      exact ⟨rfl, three⟩
    have behind : (([a, b, c] ++ commaGroups rest).length + 1) % 4 = 0 := by omega
    exact ⟨comma, behind⟩
  | case2 digits short =>
    rw [commaGroups]
    · exact ⟨trivial, rfl⟩
    · exact short

/-- What is kept of the groups are their digits. -/
theorem filter_commaGroups {p : Char → Bool} (keeps : ∀ c, c.isDigit = true → p c = true)
    (drops : p ',' = false) (isDigits : digits.all Char.isDigit = true)
    (whole : digits.length % 3 = 0) : (commaGroups digits).filter p = digits := by
  induction digits using commaGroups.induct with
  | case1 a b c rest ih =>
    simp only [List.all_cons, Bool.and_eq_true] at isDigits
    simp only [List.length_cons] at whole
    have tail := ih isDigits.2.2.2 (by omega)
    rw [commaGroups, List.filter_cons_of_neg (by rw [drops]; decide),
      List.filter_cons_of_pos (keeps a isDigits.1), List.filter_cons_of_pos (keeps b isDigits.2.1),
      List.filter_cons_of_pos (keeps c isDigits.2.2.1), tail]
  | case2 digits short =>
    have empty : digits = [] := by
      match digits, short, whole with
      | [], _, _ => rfl
      | [_], _, whole => simp at whole
      | [_, _], _, whole => simp at whole
      | a :: b :: c :: rest, short, _ => exact (short a b c rest rfl).elim
    rw [empty]
    rfl

/-- The digits in front and the groups behind them. -/
theorem groupThousands_split (digits : List Char) :
    ∃ lead rest, digits = lead ++ rest ∧ groupThousands digits = lead ++ commaGroups rest ∧
      lead.length ≤ 3 ∧ rest.length % 3 = 0 ∧ (digits ≠ [] → lead ≠ []) := by
  unfold groupThousands
  by_cases short : digits.length ≤ 3
  · refine ⟨digits, [], (List.append_nil _).symm, ?_, short, rfl, id⟩
    rw [if_pos short]
    exact (List.append_nil _).symm
  · simp only [if_neg short]
    generalize isLead : (if digits.length % 3 = 0 then 3 else digits.length % 3) = lead
    have bounds : 0 < lead ∧ lead ≤ 3 ∧ (digits.length - lead) % 3 = 0 := by
      split at isLead <;> omega
    have length : (digits.take lead).length = lead := by
      rw [List.length_take]
      omega
    refine ⟨digits.take lead, digits.drop lead, (List.take_append_drop _ _).symm, rfl, ?_, ?_, ?_⟩
    · omega
    · rw [List.length_drop]
      exact bounds.2.2
    · intro _ empty
      rw [empty, List.length_nil] at length
      omega

/-- What is kept of a grouped text are its digits. -/
theorem filter_groupThousands {p : Char → Bool} (keeps : ∀ c, c.isDigit = true → p c = true)
    (drops : p ',' = false) (isDigits : digits.all Char.isDigit = true) :
    (groupThousands digits).filter p = digits := by
  obtain ⟨lead, rest, parts, isGrouped, _, whole, _⟩ := groupThousands_split digits
  rw [parts, List.all_append, Bool.and_eq_true] at isDigits
  have leadKept : lead.filter p = lead :=
    List.filter_eq_self.mpr fun c member => keeps c (List.all_eq_true.mp isDigits.1 c member)
  rw [isGrouped, List.filter_append, leadKept,
    filter_commaGroups keeps drops isDigits.2 whole, parts]

/-- The whole part is well formed. -/
theorem groupThousands_isWhole (isDigits : digits.all Char.isDigit = true)
    (nonempty : digits ≠ []) (leading : ∀ rest, digits = '0' :: rest → rest = []) :
    IsWhole (groupThousands digits) := by
  obtain ⟨lead, rest, parts, isGrouped, short, _, started⟩ := groupThousands_split digits
  have isParts := isDigits
  rw [parts, List.all_append, Bool.and_eq_true] at isParts
  obtain ⟨grouped, groups⟩ := grouped_commaGroups isParts.2
  have positive : 0 < lead.length := List.length_pos_iff.mpr (started nonempty)
  rw [isGrouped]
  refine ⟨grouped_append isParts.1 short grouped groups, ?_, ?_⟩
  · rw [List.length_append]
    omega
  · intro behind isZero
    cases lead with
    | nil => exact absurd rfl (started nonempty)
    | cons c tail =>
      have first : c = '0' := (List.cons.inj isZero).1
      have none := leading (tail ++ rest) (by rw [parts, first]; rfl)
      obtain ⟨noTail, noRest⟩ := List.append_eq_nil_iff.mp none
      rw [noTail, noRest] at isZero
      exact (List.cons.inj isZero).2.symm

end Groups

variable (d : LegacyDec) (cents : Nat)

/-- The digits of the whole dollars. -/
def dollarDigits : List Char :=
  (centDigits cents).take ((centDigits cents).length - 2)

/-- The digits behind the point. -/
def pointDigits : List Char :=
  (centDigits cents).drop ((centDigits cents).length - 2)

/-- There are three digits at least. -/
theorem length_centDigits : 3 ≤ (centDigits cents).length := by
  unfold centDigits
  rw [List.length_append, List.length_replicate]
  omega

/-- The digits before the cents have no superfluous zero. -/
theorem dollarDigits_leading (rest : List Char) (isWhole : dollarDigits cents = '0' :: rest) :
    rest = [] := by
  have taken := congrArg List.length isWhole
  rw [dollarDigits, List.length_take, List.length_cons] at taken
  by_cases long : 3 ≤ (Decimal.digits cents).length
  · have same : centDigits cents = Decimal.digits cents := by
      change Decimal.padded 3 cents = _
      rw [Decimal.padded, Nat.sub_eq_zero_of_le long]
      rfl
    rw [dollarDigits, same] at isWhole
    have digits := (List.take_append_drop ((Decimal.digits cents).length - 2)
      (Decimal.digits cents)).symm
    rw [isWhole, List.cons_append] at digits
    rcases Decimal.digits_head cents '0' _ digits with other | single
    · exact absurd rfl other
    · exact (List.append_eq_nil_iff.mp single).1
  · have three : (centDigits cents).length = 3 := by
      unfold centDigits
      rw [List.length_append, List.length_replicate]
      omega
    rw [three] at taken
    exact List.eq_nil_of_length_eq_zero (by omega)

/-- Cents are the nearest. -/
theorem roundHalfEven_nearest (n : Nat) :
    NearestEven ((n : ℚ) / 10 ^ 18) (LegacyDec.roundHalfEven n) := by
  have parts := Nat.div_add_mod n (10 ^ 18)
  have below := Nat.mod_lt n (show 10 ^ 18 > 0 by decide)
  have nearest : NearestEven ((n : ℚ) / (10 ^ 18 : Nat)) (LegacyDec.roundHalfEven n) := by
    unfold LegacyDec.roundHalfEven LegacyDec.precision
    generalize n / 10 ^ 18 = quo at *
    generalize n % 10 ^ 18 = rem at *
    simp only
    split_ifs
    all_goals
      apply nearestEven_div
      all_goals omega
  exact_mod_cast nearest

/-- A decimal that rounds to an integer within 256 bits is within its own bound. -/
theorem fits_of_roundHalfEven {n : Nat} (bounded : LegacyDec.roundHalfEven n < 2 ^ 256) :
    LegacyDec.fits n = true := by
  by_contra beyond
  have atLeast : LegacyDec.limit ≤ n := by simpa [LegacyDec.fits] using beyond
  have larger := LegacyDec.roundHalfEven_mono atLeast
  rw [LegacyDec.limit, LegacyDec.roundHalfEven_mul] at larger
  omega

/-- What `formatUSD` shows behind the dollar sign. -/
def dollarText : List Char :=
  groupThousands (dollarDigits cents) ++ '.' :: pointDigits cents

/-- The sign `formatUSD` shows. -/
def signOf : Decimal.Sign := if d.units < 0 then .minus else .none

/-- Digits are no punctuation. -/
theorem isDigit_kept (c : Char) (isDigit : c.isDigit = true) :
    (!(['$', ',', '.'].contains c)) = true := by
  cases dropped : ['$', ',', '.'].contains c with
  | false => rfl
  | true =>
    have noDigits : ['$', ',', '.'].all (fun c => !c.isDigit) = true := by decide
    have noDigit := List.all_eq_true.mp noDigits c (List.contains_iff_mem.mp dropped)
    rw [isDigit] at noDigit
    cases noDigit

/-- Both parts of the cents' digits are digits. -/
theorem centDigits_parts :
    (dollarDigits cents).all Char.isDigit = true ∧
      (pointDigits cents).all Char.isDigit = true := by
  have isDigits : (centDigits cents).all Char.isDigit = true := Decimal.padded_all_isDigit 3 cents
  rwa [← List.take_append_drop ((centDigits cents).length - 2) (centDigits cents),
    List.all_append, Bool.and_eq_true] at isDigits

/-- The text is well formed. -/
theorem isDollars_dollarText : IsDollars ((signOf d).text ++ '$' :: dollarText cents) := by
  have long := length_centDigits cents
  have sign : (signOf d).text = [] ∨ (signOf d).text = ['-'] := by
    unfold signOf
    split
    · exact .inr rfl
    · exact .inl rfl
  have started : dollarDigits cents ≠ [] := by
    intro empty
    have none := congrArg List.length empty
    rw [dollarDigits, List.length_take, List.length_nil] at none
    omega
  have two : (pointDigits cents).length = 2 := by
    rw [pointDigits, List.length_drop]
    omega
  have whole := groupThousands_isWhole (centDigits_parts cents).1 started
    (dollarDigits_leading cents)
  exact ⟨_, _, _, sign, whole, two, (centDigits_parts cents).2, rfl⟩

/-- Its digits are the cents. -/
theorem bare_dollarText :
    bare ((signOf d).text ++ '$' :: dollarText cents) = (signOf d).text ++ centDigits cents := by
  have sign : bare (signOf d).text = (signOf d).text := by
    unfold signOf
    split <;> decide
  have whole := filter_groupThousands isDigit_kept (by decide) (centDigits_parts cents).1
  have part : bare (pointDigits cents) = _ :=
    List.filter_eq_self.mpr fun c member =>
      isDigit_kept c (List.all_eq_true.mp (centDigits_parts cents).2 c member)
  unfold bare at *
  rw [List.filter_append, sign, List.filter_cons_of_neg (by decide), dollarText,
    List.filter_append, whole, List.filter_cons_of_neg (by decide), part, dollarDigits, pointDigits,
    List.take_append_drop]

/-- The amount read back from its digits. -/
theorem read_centDigits (sign : Decimal.Sign) (cents : Nat) :
    Decimal.read (sign.text ++ centDigits cents) = some (sign.factor * cents) := by
  have nonempty : centDigits cents ≠ [] := by
    intro empty
    have long := length_centDigits cents
    rw [empty] at long
    exact absurd long (by decide)
  have value : Decimal.readDigits (centDigits cents) = some cents := by
    rw [Decimal.readDigits, if_pos ⟨nonempty, Decimal.padded_all_isDigit 3 cents⟩]
    exact congrArg some (Decimal.ofDigitChars_padded 3 cents)
  exact Decimal.read_eq_some.mpr ⟨sign, _, cents, rfl, value, rfl⟩

/-- The rounded magnitude under its sign is the nearest integer to the cents. -/
theorem signed_nearest :
    NearestEven ((d.units : ℚ) / 10 ^ 18 * 100)
      ((signOf d).factor * LegacyDec.roundHalfEven (d.units.natAbs * 100)) := by
  have nearest := roundHalfEven_nearest (d.units.natAbs * 100)
  rw [Nat.cast_mul] at nearest
  unfold signOf
  split
  · have magnitude : (d.units : ℚ) = -(d.units.natAbs : ℚ) := by
      exact_mod_cast (show d.units = -(d.units.natAbs : Int) by omega)
    rw [magnitude]
    convert nearestEven_neg nearest using 1
    · push_cast
      ring
    · exact (Int.neg_eq_neg_one_mul _).symm
  · have magnitude : (d.units : ℚ) = (d.units.natAbs : ℚ) := by
      rw [← Int.cast_natCast, Int.natAbs_of_nonneg (show 0 ≤ d.units by omega)]
    rw [magnitude]
    convert nearest using 1
    · push_cast
      ring
    · exact Int.one_mul _

/-- Rounding a decimal that is not negative, if the result fits. -/
theorem rounded_natCast {n : Nat} (bounded : LegacyDec.roundHalfEven n < 2 ^ 256) :
    rounded ⟨n⟩ = .ok (LegacyDec.roundHalfEven n) := by
  have fits : LegacyDec.fitsInt (LegacyDec.roundHalfEven n) = true := decide_eq_true bounded
  simp only [rounded, LegacyDec.roundInt, LegacyDec.chopRound_natCast, if_pos fits,
    Int.natAbs_natCast]

/-- The text of an amount whose rounded cents fit. -/
theorem formatUSD_of_fits {d : LegacyDec}
    (bounded : LegacyDec.roundHalfEven (d.units.natAbs * 100) < 2 ^ 256) :
    ∃ text, formatUSD d = .ok text ∧ text.toList =
      (signOf d).text ++ '$' :: dollarText (LegacyDec.roundHalfEven (d.units.natAbs * 100)) := by
  have scaled : LegacyDec.mulInt ⟨d.units.natAbs⟩ 100 =
      some ⟨((d.units.natAbs * 100 : Nat) : Int)⟩ := by
    have product : (d.units.natAbs : Int) * 100 = ((d.units.natAbs * 100 : Nat) : Int) := by
      push_cast
      rfl
    rw [LegacyDec.mulInt, product, LegacyDec.ofUnits, if_pos (fits_of_roundHalfEven bounded)]
  unfold formatUSD
  simp only [scaled, decimal, bind, Except.bind, rounded_natCast bounded]
  refine ⟨_, rfl, ?_⟩
  simp only [String.toList_append, String.toList_ofList]
  unfold signOf dollarText dollarDigits pointDigits
  generalize centDigits _ = s
  split <;> rfl

/-- The text of every amount whose rounded cents fit in 256 bits reads as its cents, rounded to the
nearest with ties to even, and grouping keeps the digits. -/
theorem dollar_texts_faithful :
    (∀ d : LegacyDec, ∃ n : Int, NearestEven ((d.units : ℚ) / 10 ^ 18 * 100) n ∧
      (n.natAbs < 2 ^ 256 → ∃ text, formatUSD d = .ok text ∧ IsDollars text.toList ∧
        Decimal.read (bare text.toList) = some n)) ∧
    ∀ digits : List Char, digits.all Char.isDigit = true →
      (groupThousands digits).filter (fun c => c != ',') = digits := by
  refine ⟨fun d => ⟨_, signed_nearest d, fun bounded => ?_⟩, ?_⟩
  · have sign : ((signOf d).factor).natAbs = 1 := by
      unfold signOf
      split <;> rfl
    rw [Int.natAbs_mul, sign, Nat.one_mul, Int.natAbs_natCast] at bounded
    obtain ⟨text, isText, shown⟩ := formatUSD_of_fits bounded
    refine ⟨text, isText, ?_, ?_⟩
    · rw [shown]
      exact isDollars_dollarText d _
    · rw [shown, bare_dollarText]
      exact read_centDigits _ _
  · intro digits isDigits
    apply filter_groupThousands _ rfl isDigits
    intro c isDigit
    rw [bne_iff_ne]
    rintro rfl
    cases isDigit

/-- An amount that ends in half a cent is shown with the even one. -/
theorem dollar_texts_faithful_millions :
    formatUSD ⟨-1234567895 * 10 ^ 15⟩ = .ok "-$1,234,567.90" ∧
      IsDollars "-$1,234,567.90".toList ∧
      NearestEven (((-1234567895 * 10 ^ 15 : Int) : ℚ) / 10 ^ 18 * 100) (-123456790) ∧
      groupThousands "1234567".toList = "1,234,567".toList ∧
      "1,234,567".toList.filter (fun c => c != ',') = "1234567".toList := by
  have shown : formatUSD ⟨-1234567895 * 10 ^ 15⟩ = .ok "-$1,234,567.90" := by decide +kernel
  have grouped : groupThousands "1234567".toList = "1,234,567".toList := by decide +kernel
  obtain ⟨n, nearest, reads⟩ := dollar_texts_faithful.1 ⟨-1234567895 * 10 ^ 15⟩
  have isCents : n = -123456790 := nearestEven_unique nearest ⟨by norm_num, by norm_num⟩
  obtain ⟨text, isText, isDollars, _⟩ := reads (by rw [isCents]; decide)
  cases isText.symm.trans shown
  refine ⟨shown, isDollars, isCents ▸ nearest, grouped, ?_⟩
  rw [← grouped]
  exact dollar_texts_faithful.2 _ (by decide)

end SvpMcp
