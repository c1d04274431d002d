import SvpMcp.Verif.HumanAmounts

/-!
# What a USDC amount is in quantums

`HumanToQuantums` accepts numerals with at most six digits behind the point, and also a plus sign or
a bare point. Where it and `humanToBaseUnits` both accept a text, they agree.
-/

namespace SvpMcp

open LegacyDec (Reading)

variable {n : Numeral} {human : String}

/-- A numeral with at most a plus sign and at most six digits behind the point is accepted when
it is within the range. -/
theorem humanToQuantums_numeral {sign : Decimal.Sign}
    (isText : Strings.trimSpace human.toList = sign.text ++ n.text) (unsigned : sign ≠ .minus)
    (nonempty : sign.text ++ n.text ≠ []) (places : n.places ≤ 6) :
    humanToQuantums human =
      if n.number * 10 ^ (6 - n.places) < 2 ^ 64 then
        .ok (UInt64.ofNat (n.number * 10 ^ (6 - n.places)))
      else .error ⟨"usdc amount overflows uint64: %s", [human]⟩ := by
  have head : (sign.text ++ n.text).head? ≠ some '-' := by
    intro isMinus
    obtain ⟨rest, starts⟩ := List.head?_eq_some_iff.mp isMinus
    exact unsigned (Numeral.minus_of_head starts)
  have parts : ¬ (sign.text ++ n.whole = [] ∧ n.fraction.isSome = false) := by
    rintro ⟨noWhole, noPoint⟩
    have whole : n.text = n.whole := by
      rw [Numeral.text, Option.isSome_eq_false_iff.mp noPoint |> Option.isNone_iff_eq_none.mp]
    exact nonempty (whole ▸ noWhole)
  have size : Strings.byteLength (n.fraction.getD []) = n.places :=
    Strings.byteLength_of_digits n.fractionDigits
  have short : ¬ (n.fraction.isSome = true ∧ n.places > 6) := by
    rintro ⟨_, long⟩
    omega
  have isRead : Decimal.read ((if sign.text ++ n.whole = [] then ['0'] else sign.text ++ n.whole) ++
      (n.fraction.getD [] ++ List.replicate (6 - n.places) '0')) =
        some ((n.number * 10 ^ (6 - n.places) : Nat) : Int) := by
    by_cases noWhole : sign.text ++ n.whole = []
    · have digits : n.digits = n.fraction.getD [] := by
        rw [Numeral.digits, (List.append_eq_nil_iff.mp noWhole).2, List.nil_append]
      rw [if_pos noWhole]
      refine (Numeral.read_filled_zero _ _).mpr ⟨n.fractionDigits, ?_⟩
      rw [Numeral.number, digits]
    · have filled := n.filled_ne_nil (show 0 < 6 by decide) places
      have factor : sign.factor = 1 := by
        cases sign with
        | none => rfl
        | plus => rfl
        | minus => exact absurd rfl unsigned
      rw [if_neg noWhole, ← List.append_assoc]
      refine (Numeral.read_filled (n.cut_text sign) noWhole _ _).mpr ⟨sign, n, rfl, filled, ?_⟩
      rw [factor, Int.one_mul]
  unfold humanToQuantums
  simp only [isText, if_neg nonempty, if_neg head, n.cut_text sign, if_neg parts, size,
    if_neg short, isRead]
  by_cases bounded : n.number * 10 ^ (6 - n.places) < 2 ^ 64
  · rw [if_pos bounded, if_pos (by omega), Int.toNat_natCast]
  · rw [if_neg bounded, if_neg (by omega)]

/-- Whatever is accepted is such a numeral. -/
theorem exists_numeral {q : UInt64} (accepted : humanToQuantums human = .ok q) :
    ∃ (sign : Decimal.Sign) (n : Numeral),
      Strings.trimSpace human.toList = sign.text ++ n.text ∧ sign ≠ .minus ∧
        sign.text ++ n.text ≠ [] ∧ n.places ≤ 6 := by
  unfold humanToQuantums at accepted
  generalize Strings.trimSpace human.toList = text at accepted ⊢
  rcases parts : Strings.cut '.' text with ⟨intPart, fracPart, hasFrac⟩
  simp only [parts] at accepted
  by_cases empty : text = []
  · rw [if_pos empty] at accepted
    cases accepted
  rw [if_neg empty] at accepted
  by_cases negative : text.head? = some '-'
  · rw [if_pos negative] at accepted
    cases accepted
  rw [if_neg negative] at accepted
  by_cases missing : intPart = [] ∧ hasFrac = false
  · rw [if_pos missing] at accepted
    cases accepted
  rw [if_neg missing] at accepted
  by_cases long : hasFrac = true ∧ Strings.byteLength fracPart > 6
  · rw [if_pos long] at accepted
    cases accepted
  rw [if_neg long, ← List.append_assoc] at accepted
  have reading : ∃ (sign : Decimal.Sign) (n : Numeral), text = sign.text ++ n.text := by
    cases isRead : Decimal.read ((if intPart = [] then ['0'] else intPart) ++ fracPart ++
        List.replicate (6 - Strings.byteLength fracPart) '0') with
    | none =>
      rw [isRead] at accepted
      cases accepted
    | some z =>
      by_cases noWhole : intPart = []
      · rw [if_pos noWhole] at isRead
        have digits := ((Numeral.read_filled_zero _ z).mp isRead).1
        obtain ⟨n, isText, _⟩ :=
          Numeral.exists_of_cut parts (show intPart = Decimal.Sign.none.text ++ [] from noWhole)
            rfl digits
        exact ⟨.none, n, isText⟩
      · rw [if_neg noWhole] at isRead
        obtain ⟨sign, n, isText, _⟩ := (Numeral.read_filled parts noWhole _ z).mp isRead
        exact ⟨sign, n, isText⟩
  obtain ⟨sign, n, rfl⟩ := reading
  have size : Strings.byteLength (n.fraction.getD []) = n.places :=
    Strings.byteLength_of_digits n.fractionDigits
  rw [n.cut_text sign] at parts
  cases parts
  refine ⟨sign, n, rfl, ?_, empty, ?_⟩
  · rintro rfl
    exact negative rfl
  · by_contra more
    have point : n.fraction.isSome = true := by
      cases found : n.fraction with
      | none =>
        rw [Numeral.places, found] at more
        exact absurd (Nat.zero_le 6) more
      | some _ => rfl
    exact long ⟨point, by omega⟩

/-- What `HumanToQuantums` accepts. -/
theorem humanToQuantums_eq_ok {q : UInt64} : humanToQuantums human = .ok q ↔
    ∃ (sign : Decimal.Sign) (n : Numeral),
      Strings.trimSpace human.toList = sign.text ++ n.text ∧ sign ≠ .minus ∧
        sign.text ++ n.text ≠ [] ∧ n.places ≤ 6 ∧ n.number * 10 ^ (6 - n.places) = q.toNat := by
  constructor
  · intro accepted
    obtain ⟨sign, n, isText, unsigned, nonempty, places⟩ := exists_numeral accepted
    refine ⟨sign, n, isText, unsigned, nonempty, places, ?_⟩
    rw [humanToQuantums_numeral isText unsigned nonempty places] at accepted
    by_cases bounded : n.number * 10 ^ (6 - n.places) < 2 ^ 64
    · rw [if_pos bounded] at accepted
      rw [← Except.ok.inj accepted, UInt64.toNat_ofNat_of_lt' bounded]
    · rw [if_neg bounded] at accepted
      cases accepted
  · rintro ⟨sign, n, isText, unsigned, nonempty, places, number⟩
    rw [humanToQuantums_numeral isText unsigned nonempty places, number, if_pos q.toNat_lt,
      UInt64.ofNat_toNat]

/-- The amounts of the grammar: digits with at most one point, at least one digit and at most six
digits behind the point. -/
def IsUsdcAmount (text : List Char) (q : UInt64) : Prop :=
  ∃ n : Numeral, text = n.text ∧ n.digits ≠ [] ∧ n.places ≤ 6 ∧ n.value * 10 ^ 6 = q.toNat

/-- A text outside the grammar that is accepted: a point, or a plus sign and an amount. -/
def IsStrayAmount (text : List Char) : Prop :=
  text = ['.'] ∨ ∃ n : Numeral, text = '+' :: n.text ∧ n.places ≤ 6 ∧ n.value * 10 ^ 6 < 2 ^ 64

/-- The digits of a numeral as a number of quantums. -/
theorem value_quantums (places : n.places ≤ 6) {q : Nat} :
    n.value * 10 ^ 6 = q ↔ n.number * 10 ^ (6 - n.places) = q := by
  have value := Numeral.value_eq places rfl
  rw [value]
  exact Nat.cast_inj

/-- The numeral of rendered quantums. -/
def quantumsNumeral (q : UInt64) : Numeral where
  whole := Decimal.digits (q / quantumsPerUSDC).toNat
  fraction := some (Decimal.padded 6 (q % quantumsPerUSDC).toNat)
  wholeDigits := Decimal.digits_all_isDigit _
  fractionDigits := Decimal.padded_all_isDigit _ _

/-- Rendered quantums are read back. -/
theorem humanToQuantums_quantumsToHuman (q : UInt64) :
    humanToQuantums (quantumsToHuman q) = .ok q := by
  have whole : (q / quantumsPerUSDC).toNat = q.toNat / 1000000 := UInt64.toNat_div _ _
  have fraction : (q % quantumsPerUSDC).toNat = q.toNat % 1000000 := UInt64.toNat_mod _ _
  have below : (q % quantumsPerUSDC).toNat < 10 ^ 6 := by omega
  have places : (quantumsNumeral q).places = 6 := Decimal.length_padded 6 _ (by decide) below
  have number : (quantumsNumeral q).number = q.toNat := by
    change Nat.ofDigitChars 10 (Decimal.digits _ ++ Decimal.padded 6 _) 0 = _
    rw [Nat.ofDigitChars_append, Nat.ofDigitChars_eq_ofDigitChars_zero,
      Decimal.length_padded 6 _ (by decide) below, Decimal.ofDigitChars_padded, Decimal.digits,
      Nat.ofDigitChars_ten_toDigits]
    omega
  have isText : (quantumsToHuman q).toList = Decimal.Sign.none.text ++ (quantumsNumeral q).text :=
    String.toList_ofList
  rw [humanToQuantums_eq_ok]
  refine ⟨.none, quantumsNumeral q, ?_, by decide, ?_, by omega, ?_⟩
  · rw [isText, Strings.trimSpace_of_solid (Numeral.text_solid _ _)]
  · exact List.append_ne_nil_of_left_ne_nil (Decimal.digits_ne_nil _) _
  · rw [places, number]
    omega

/-- The point without digits. -/
def pointNumeral : Numeral := ⟨[], some [], rfl, rfl⟩

/-- Only a point has no digits and is not empty. -/
theorem text_of_no_digits (noDigits : n.digits = []) (nonempty : n.text ≠ []) :
    n.text = ['.'] := by
  have parts := List.append_eq_nil_iff.mp noDigits
  unfold Numeral.text at nonempty ⊢
  cases found : n.fraction with
  | none =>
    rw [found] at nonempty
    exact absurd parts.1 nonempty
  | some fraction =>
    have nothing : fraction = [] := by simpa [found] using parts.2
    rw [parts.1, nothing]
    rfl

/-- An empty text has no digits. -/
theorem digits_of_empty (empty : n.text = []) : n.digits = [] := by
  unfold Numeral.text at empty
  unfold Numeral.digits
  cases found : n.fraction with
  | none =>
    rw [found] at empty
    exact List.append_eq_nil_iff.mpr ⟨empty, rfl⟩
  | some fraction =>
    rw [found] at empty
    simp at empty

/-- `HumanToQuantums` accepts exactly the amounts of the grammar, and reads rendered quantums
back, unless the text is one of the stray amounts. -/
theorem usdc_grammar_iff (human : String) :
    ((∀ q, humanToQuantums human = .ok q ↔ IsUsdcAmount (Strings.trimSpace human.toList) q) ∧
        ∀ q, humanToQuantums (quantumsToHuman q) = .ok q) ↔
      ¬ IsStrayAmount (Strings.trimSpace human.toList) := by
  constructor
  · rintro ⟨grammar, _⟩ (point | ⟨n, isText, places, bounded⟩)
    · have accepted : humanToQuantums human = .ok 0 :=
        humanToQuantums_eq_ok.mpr ⟨.none, pointNumeral, point, by decide, by decide, by decide,
          by decide⟩
      obtain ⟨n, isText, digits, _⟩ := (grammar 0).mp accepted
      have same : Decimal.Sign.none.text ++ pointNumeral.text = Decimal.Sign.none.text ++ n.text :=
        point.symm.trans isText
      exact digits (by rw [← (Numeral.text_inj same).2]; rfl)
    · have inRange : n.number * 10 ^ (6 - n.places) < 2 ^ 64 := by
        rw [Numeral.value_eq places rfl] at bounded
        exact_mod_cast bounded
      have accepted : humanToQuantums human =
          .ok (UInt64.ofNat (n.number * 10 ^ (6 - n.places))) := by
        rw [humanToQuantums_eq_ok]
        refine ⟨.plus, n, isText, by decide, by simp [Decimal.Sign.text], places, ?_⟩
        rw [UInt64.toNat_ofNat_of_lt' inRange]
      obtain ⟨n', isText', _⟩ := (grammar _).mp accepted
      have same : Decimal.Sign.plus.text ++ n.text = Decimal.Sign.none.text ++ n'.text :=
        isText.symm.trans isText'
      cases (Numeral.text_inj same).1
  · intro notStray
    refine ⟨?_, humanToQuantums_quantumsToHuman⟩
    intro q
    rw [humanToQuantums_eq_ok]
    constructor
    · rintro ⟨sign, n, isText, unsigned, nonempty, places, number⟩
      have value := (value_quantums places).mpr number
      cases sign with
      | none =>
        refine ⟨n, isText, ?_, places, value⟩
        intro noDigits
        exact notStray (.inl (isText.trans (text_of_no_digits noDigits nonempty)))
      | plus =>
        have bounded : n.value * 10 ^ 6 < 2 ^ 64 := by
          rw [value]
          exact_mod_cast q.toNat_lt
        exact absurd (.inr ⟨n, isText, places, bounded⟩) notStray
      | minus => exact absurd rfl unsigned
    · rintro ⟨n, isText, digits, places, value⟩
      refine ⟨.none, n, isText, by decide, ?_, places, (value_quantums places).mp value⟩
      intro empty
      exact digits (digits_of_empty empty)

/-- A point without digits is accepted, and so is a plus sign. -/
theorem stray_amounts_accepted :
    humanToQuantums "." = .ok 0 ∧ ¬ IsUsdcAmount (Strings.trimSpace ".".toList) 0 ∧
      humanToQuantums "+5" = .ok 5000000 ∧
      ¬ IsUsdcAmount (Strings.trimSpace "+5".toList) 5000000 := by
  refine ⟨by decide +kernel, ?_, by decide +kernel, ?_⟩
  · rintro ⟨n, isText, digits, _⟩
    have same : Decimal.Sign.none.text ++ pointNumeral.text = Decimal.Sign.none.text ++ n.text :=
      isText
    exact digits (by rw [← (Numeral.text_inj same).2]; rfl)
  · rintro ⟨n, isText, _⟩
    have same : Decimal.Sign.plus.text ++ (⟨['5'], none, rfl, rfl⟩ : Numeral).text =
        Decimal.Sign.none.text ++ n.text := isText
    cases (Numeral.text_inj same).1

/-- A reading holds no white space. -/
theorem reading_solid (r : Reading) : ∀ c ∈ r.text, Strings.isSpace c = false := by
  have behind := Numeral.text_solid r.sign r.numeral
  intro c member
  unfold Reading.text at member
  cases negative : r.negative with
  | false =>
    rw [negative] at member
    exact behind c member
  | true =>
    rw [if_pos negative] at member
    rcases List.mem_cons.mp member with minus | rest
    · rw [minus]
      decide
    · exact behind c rest

/-- Where both parsers accept a USDC amount, they return the same number. -/
theorem usdc_parsers_agree (human : String) (q : UInt64) (amount : Int)
    (asQuantums : humanToQuantums human = .ok q)
    (asBaseUnits : humanToBaseUnits human 6 = .ok amount) : amount = q.toNat := by
  obtain ⟨sign, n, isText, unsigned, _, places, number⟩ := humanToQuantums_eq_ok.mp asQuantums
  have accepted : humanToBaseUnits human (6 : Nat) = .ok amount := asBaseUnits
  obtain ⟨r, isReading, _, _, _, _, units⟩ := humanToBaseUnits_ok_iff.mp accepted
  rw [isReading, Strings.trimSpace_of_solid (reading_solid r), Reading.text] at isText
  have notNegative : r.negative = false := by
    cases negative : r.negative with
    | false => rfl
    | true =>
      rw [if_pos negative] at isText
      exact absurd (Numeral.minus_of_head isText.symm) unsigned
  rw [notNegative] at isText
  have same : r.numeral = n := (Numeral.text_inj isText).2
  have exponents : 18 - n.places + 6 = 6 - n.places + 18 := by omega
  have scaled : r.magnitude * 10 ^ 6 = q.toNat * 10 ^ 18 := by
    rw [Reading.magnitude, same, ← number]
    change n.number * 10 ^ (18 - n.places) * 10 ^ 6 = _
    rw [Nat.mul_assoc, ← Nat.pow_add, exponents, Nat.pow_add, ← Nat.mul_assoc]
  rw [scaled] at units
  omega

/-- Both parsers read 1.5 USDC. -/
theorem usdc_parsers_agree_one_and_a_half :
    humanToQuantums "1.5" = .ok 1500000 ∧ humanToBaseUnits "1.5" 6 = .ok 1500000 ∧
      (1500000 : Int) = (1500000 : UInt64).toNat := by
  have asQuantums : humanToQuantums "1.5" = .ok 1500000 := by decide +kernel
  have asBaseUnits : humanToBaseUnits "1.5" 6 = .ok 1500000 := by decide +kernel
  exact ⟨asQuantums, asBaseUnits, usdc_parsers_agree "1.5" 1500000 1500000 asQuantums asBaseUnits⟩

end SvpMcp
