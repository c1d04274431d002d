import SvpMcp.Lib.LegacyDec
import SvpMcp.Lib.Numeral

/-!
# The texts of fixed-point decimals

Which texts `LegacyNewDecFromStr` reads, and as which decimal. A numeral may have two signs,
and a sign may stand for the digits before the point.
-/

namespace SvpMcp.LegacyDec

/-- The way a text is read as a decimal: a minus sign that is stripped, the sign that stays in
front of the digits, and a numeral. -/
structure Reading where
  /-- A minus sign is stripped. -/
  negative : Bool
  /-- The sign that is read with the digits. -/
  sign : Decimal.Sign
  numeral : Numeral
  -- A single minus sign is the stripped one.
  stripped : negative = false → sign ≠ .minus
  leading : sign.text ++ numeral.whole ≠ []
  trailing : numeral.fraction ≠ some []
  places : numeral.places ≤ precision

namespace Reading

/-- The text behind the stripped sign. -/
def rest (r : Reading) : List Char := r.sign.text ++ r.numeral.text

/-- The text that is read. -/
def text (r : Reading) : List Char := if r.negative then '-' :: r.rest else r.rest

/-- The units without sign. -/
def magnitude (r : Reading) : Nat := r.numeral.number * 10 ^ (precision - r.numeral.places)

/-- The units that are read, before a stripped sign is put back. -/
def signed (r : Reading) : Int := r.sign.factor * r.magnitude

/-- The units that are read. -/
def units (r : Reading) : Int := if r.negative then -r.signed else r.signed

/-- The sign leaves the magnitude. -/
theorem signed_natAbs (r : Reading) : r.signed.natAbs = r.magnitude := by
  unfold signed
  cases r.sign <;> simp [Decimal.Sign.factor]

end Reading

/-- The reading of a text whose minus sign has been looked for. -/
def ofRest (negative : Bool) (text : List Char) : Option LegacyDec :=
  if text = [] then none
  else
    let (whole, fraction, hasFraction) := Strings.cut '.' text
    let places := Strings.byteLength fraction
    if hasFraction ∧ (whole = [] ∨ fraction = [] ∨ '.' ∈ fraction) then none
    else if places > precision then none
    else
      match Decimal.read (whole ++ fraction ++ List.replicate (precision - places) '0') with
      | none => none
      | some n => if fits n then some ⟨if negative then -n else n⟩ else none

/-- A minus sign is read first. -/
theorem ofString_minus (rest : List Char) : ofString ('-' :: rest) = ofRest true rest := rfl

/-- Without one the text is read whole. -/
theorem ofString_unsigned {text : List Char} (unsigned : ∀ rest, text ≠ '-' :: rest) :
    ofString text = ofRest false text := by
  unfold ofString
  split
  rename_i parts
  split at parts
  · rename_i rest
    exact absurd rfl (unsigned rest)
  · cases parts
    rfl

/-- A reading is accepted when its units are within the bound. -/
theorem ofRest_reading (r : Reading) :
    ofRest r.negative r.rest = if fits r.magnitude then some ⟨r.units⟩ else none := by
  have nonempty : r.rest ≠ [] := by
    intro empty
    have parts := r.numeral.cut_text r.sign
    change Strings.cut '.' r.rest = _ at parts
    rw [empty] at parts
    exact r.leading (congrArg Prod.fst parts).symm
  have wellFormed : ¬ ((r.numeral.fraction.isSome = true) ∧ (r.sign.text ++ r.numeral.whole = [] ∨
      r.numeral.fraction.getD [] = [] ∨ '.' ∈ r.numeral.fraction.getD [])) := by
    rintro ⟨hasFraction, empty | empty | point⟩
    · exact r.leading empty
    · obtain ⟨fraction, found⟩ := Option.isSome_iff_exists.mp hasFraction
      rw [found, Option.getD_some] at empty
      exact r.trailing (by rw [found, empty])
    · exact Numeral.point_absent .none r.numeral.fractionDigits point
  have places : Strings.byteLength (r.numeral.fraction.getD []) = r.numeral.places :=
    Strings.byteLength_of_digits r.numeral.fractionDigits
  have short : ¬ r.numeral.places > precision := Nat.not_lt.mpr r.places
  have isRead := (Numeral.read_filled (r.numeral.cut_text r.sign) r.leading
    (precision - r.numeral.places) r.signed).mpr
      ⟨r.sign, r.numeral, rfl, r.numeral.filled_ne_nil (by decide) r.places, rfl⟩
  have sameFits : fits r.signed = fits r.magnitude := by
    rw [fits, fits, r.signed_natAbs, Int.natAbs_natCast]
  rw [ofRest, if_neg nonempty, Reading.rest, r.numeral.cut_text r.sign]
  simp only [if_neg wellFormed, places, if_neg short, isRead, sameFits]
  rfl

/-- Whatever is accepted has a reading. -/
theorem exists_reading {negative : Bool} {text : List Char} {d : LegacyDec}
    (isRead : ofRest negative text = some d)
    (stripped : negative = false → ∀ rest, text ≠ '-' :: rest) :
    ∃ r : Reading, r.negative = negative ∧ r.rest = text := by
  unfold ofRest at isRead
  rcases parts : Strings.cut '.' text with ⟨whole, fraction, hasFraction⟩
  rw [parts] at isRead
  by_cases empty : text = []
  · rw [if_pos empty] at isRead
    cases isRead
  rw [if_neg empty] at isRead
  simp only at isRead
  by_cases malformed : hasFraction ∧ (whole = [] ∨ fraction = [] ∨ '.' ∈ fraction)
  · rw [if_pos malformed] at isRead
    cases isRead
  rw [if_neg malformed] at isRead
  by_cases long : Strings.byteLength fraction > precision
  · rw [if_pos long] at isRead
    cases isRead
  rw [if_neg long] at isRead
  have nonempty : whole ≠ [] := by
    intro noWhole
    by_cases present : '.' ∈ text
    · obtain ⟨before, after, isText, absent⟩ := List.eq_append_cons_of_mem present
      rw [isText, Strings.cut_present absent] at parts
      cases parts
      exact malformed ⟨rfl, .inl noWhole⟩
    · rw [Strings.cut_absent present] at parts
      cases parts
      exact empty noWhole
  cases isNumber : Decimal.read (whole ++ fraction ++
      List.replicate (precision - Strings.byteLength fraction) '0') with
  | none =>
    rw [isNumber] at isRead
    cases isRead
  | some z =>
    obtain ⟨sign, n, rfl, _, _⟩ := (Numeral.read_filled parts nonempty _ z).mp isNumber
    rw [n.cut_text sign] at parts
    cases parts
    have places : Strings.byteLength (n.fraction.getD []) = n.places :=
      Strings.byteLength_of_digits n.fractionDigits
    refine ⟨⟨negative, sign, n, ?_, nonempty, ?_, by omega⟩, rfl, rfl⟩
    · rintro notNegative rfl
      exact stripped notNegative _ rfl
    · intro noDigits
      exact malformed ⟨by rw [noDigits]; rfl, .inr (.inl (by rw [noDigits]; rfl))⟩

/-- Without a stripped sign the text does not start with a minus sign. -/
theorem Reading.rest_unsigned (r : Reading) (unsigned : r.negative = false) (rest : List Char) :
    r.rest ≠ '-' :: rest := by
  intro starts
  exact r.stripped unsigned (Numeral.minus_of_head starts)

/-- What `LegacyNewDecFromStr` accepts. -/
theorem ofString_eq_some {text : List Char} {d : LegacyDec} : ofString text = some d ↔
    ∃ r : Reading, text = r.text ∧ fits r.magnitude = true ∧ d.units = r.units := by
  have accepted : ∀ r : Reading, ofString r.text = some d ↔
      fits r.magnitude = true ∧ d.units = r.units := by
    intro r
    have isRest : ofString r.text = ofRest r.negative r.rest := by
      unfold Reading.text
      cases negative : r.negative with
      | true => exact ofString_minus r.rest
      | false => exact ofString_unsigned (r.rest_unsigned negative)
    rw [isRest, ofRest_reading]
    by_cases bounded : fits r.magnitude = true
    · rw [if_pos bounded, Option.some.injEq]
      exact ⟨fun same => ⟨bounded, by rw [← same]⟩, fun same => by cases d; rw [← same.2]⟩
    · rw [if_neg bounded]
      exact iff_of_false (by simp) fun both => bounded both.1
  constructor
  · intro isRead
    have reading : ∃ r : Reading, text = r.text := by
      by_cases signed : ∃ rest, text = '-' :: rest
      · obtain ⟨rest, rfl⟩ := signed
        obtain ⟨r, negative, rfl⟩ :=
          exists_reading (show ofRest true rest = some d from isRead) (by simp)
        exact ⟨r, by rw [Reading.text, if_pos negative]⟩
      · have unsigned : ∀ rest, text ≠ '-' :: rest := fun rest same => signed ⟨rest, same⟩
        rw [ofString_unsigned unsigned] at isRead
        obtain ⟨r, notNegative, rfl⟩ := exists_reading isRead fun _ => unsigned
        exact ⟨r, by rw [Reading.text, notNegative]; rfl⟩
    obtain ⟨r, rfl⟩ := reading
    exact ⟨r, rfl, (accepted r).mp isRead⟩
  · rintro ⟨r, rfl, bounded⟩
    exact (accepted r).mpr bounded

/-- The text of a decimal that is not negative, trimmed of zeros and of a point at the end. -/
theorem trimmed_print {d : LegacyDec} (nonneg : 0 ≤ d.units) :
    Strings.trimRight (Strings.trimRight d.print '0') '.' =
      (Numeral.shortest precision d.units.natAbs).text := by
  have notNegative : ¬ d.units < 0 := Int.not_lt.mpr nonneg
  rw [print, if_neg notNegative, Numeral.trimmed_text]

end SvpMcp.LegacyDec
