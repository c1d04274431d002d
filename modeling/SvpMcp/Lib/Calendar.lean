import SvpMcp.Lib.Decimal

/-!
# UTC days and their dates

An instant is a count of nanoseconds since 1970. The printed date `2006-01-02` is a faithful
name of its UTC day.
-/

namespace SvpMcp.Calendar

/-- An instant in nanoseconds since the Unix epoch. -/
abbrev Time := Int

/-- Nanoseconds in one UTC day. -/
def nanosPerDay : Int := 86400 * 1000000000

/-- The number of the UTC day an instant lies in; day zero is 1970-01-01. -/
def utcDay (t : Time) : Int := t / nanosPerDay

/-- Days follow time. -/
theorem utcDay_mono {s t : Time} (ordered : s ≤ t) : utcDay s ≤ utcDay t :=
  Int.ediv_le_ediv (by decide) ordered

/-- A position in the 400-year cycle that starts on 1 March of a year divisible by 400. -/
structure CyclePosition where
  /-- Number of whole cycles before it. -/
  cycle : Int
  /-- Century of the cycle; the last one has the extra day. -/
  century : Int
  /-- Four-year group of the century. -/
  group : Int
  /-- Year of the group; the last one has the leap day, as its last day. -/
  year : Int
  /-- Day of the year, counted from 1 March. -/
  day : Int

/-- Split a day number into its position in the Gregorian cycle. -/
def cyclePosition (dayNumber : Int) : CyclePosition :=
  let shifted := dayNumber + 719468
  let inCycle := shifted % 146097
  -- The last day of a cycle, of a group and of a leap year stays in the last part.
  let century := inCycle / 36524 - inCycle / 36524 / 4
  let inCentury := inCycle - 36524 * century
  let group := inCentury / 1461
  let inGroup := inCentury % 1461
  let year := inGroup / 365 - inGroup / 365 / 4
  { cycle := shifted / 146097, century, group, year, day := inGroup - 365 * year }

/-- The ranges of the parts of a position. -/
theorem cyclePosition_bounds (dayNumber : Int) :
    let p := cyclePosition dayNumber
    (0 ≤ p.century ∧ p.century ≤ 3) ∧ (0 ≤ p.group ∧ p.group ≤ 24) ∧
      (0 ≤ p.year ∧ p.year ≤ 3) ∧ 0 ≤ p.day ∧ p.day ≤ 365 := by
  simp only [cyclePosition]
  omega

/-- The position determines the day number. -/
theorem cyclePosition_value (dayNumber : Int) :
    let p := cyclePosition dayNumber
    dayNumber = 146097 * p.cycle + 36524 * p.century + 1461 * p.group + 365 * p.year + p.day
      - 719468 := by
  simp only [cyclePosition]
  omega

/-- A proleptic Gregorian date. -/
structure Date where
  /-- Astronomical year number. -/
  year : Int
  /-- Month, 1 to 12. -/
  month : Nat
  /-- Day of the month, 1 to 31. -/
  day : Nat
deriving DecidableEq, Repr

/-- The month of a position, counted from March. -/
def marchMonth (p : CyclePosition) : Int := (5 * p.day + 2) / 153

/-- The date of a UTC day. -/
def dateOfDay (dayNumber : Int) : Date :=
  let p := cyclePosition dayNumber
  let month := marchMonth p
  let marchYear := 400 * p.cycle + 100 * p.century + 4 * p.group + p.year
  { year := if month < 10 then marchYear else marchYear + 1
    month := if month < 10 then (month + 3).toNat else (month - 9).toNat
    day := (p.day - (153 * month + 2) / 5 + 1).toNat }

/-- There are twelve March-based months, and the day of the month is positive. -/
theorem marchMonth_bounds (dayNumber : Int) :
    let p := cyclePosition dayNumber
    (0 ≤ marchMonth p ∧ marchMonth p ≤ 11) ∧
      (153 * marchMonth p + 2) / 5 ≤ p.day ∧ p.day ≤ (153 * marchMonth p + 2) / 5 + 30 := by
  obtain ⟨-, -, -, lower, upper⟩ := cyclePosition_bounds dayNumber
  simp only [marchMonth]
  omega

/-- Months and days have at most two digits. -/
theorem dateOfDay_bounds (dayNumber : Int) :
    (dateOfDay dayNumber).month < 100 ∧ (dateOfDay dayNumber).day < 100 := by
  obtain ⟨months, days⟩ := marchMonth_bounds dayNumber
  simp only [dateOfDay]
  constructor
  · split <;> omega
  · omega

/-- Different days have different dates. -/
theorem dateOfDay_inj {a b : Int} (same : dateOfDay a = dateOfDay b) : a = b := by
  obtain ⟨aCentury, aGroup, aYear, -⟩ := cyclePosition_bounds a
  obtain ⟨bCentury, bGroup, bYear, -⟩ := cyclePosition_bounds b
  obtain ⟨aMonth, aDay⟩ := marchMonth_bounds a
  obtain ⟨bMonth, bDay⟩ := marchMonth_bounds b
  rw [cyclePosition_value a, cyclePosition_value b]
  simp only [dateOfDay, Date.mk.injEq] at same
  obtain ⟨sameYear, sameMonth, sameDay⟩ := same
  generalize cyclePosition a = p at *
  generalize cyclePosition b = q at *
  -- The month fixes the March-based month, hence the day of the year and the March-based year.
  have months : marchMonth p = marchMonth q := by
    split at sameMonth <;> split at sameMonth <;> omega
  rw [months] at sameYear sameDay aDay
  have days : p.day = q.day := by omega
  have years : 400 * p.cycle + 100 * p.century + 4 * p.group + p.year =
      400 * q.cycle + 100 * q.century + 4 * q.group + q.year := by
    split at sameYear <;> omega
  have cycles : p.cycle = q.cycle := by omega
  have centuries : p.century = q.century := by omega
  omega

/-- Print a year with at least four digits. -/
def printYear (year : Int) : List Char :=
  if year < 0 then '-' :: Decimal.padded 4 year.natAbs else Decimal.padded 4 year.natAbs

/-- A year is read off its text. -/
theorem printYear_inj {x y : Int} (same : printYear x = printYear y) : x = y := by
  have noSign : ∀ n rest, Decimal.padded 4 n ≠ '-' :: rest := by
    intro n rest equal
    have digit := Decimal.padded_all_isDigit 4 n
    rw [equal] at digit
    exact absurd digit (by simp)
  unfold printYear at same
  split at same <;> split at same
  · have magnitudes := Decimal.padded_inj (List.cons.inj same).2
    omega
  · exact absurd same.symm (noSign _ _)
  · exact absurd same (noSign _ _)
  · have magnitudes := Decimal.padded_inj same
    omega

/-- A date in the layout `2006-01-02`. -/
def printDate (date : Date) : List Char :=
  printYear date.year ++ ('-' :: Decimal.padded 2 date.month ++ '-' :: Decimal.padded 2 date.day)

/-- Dates with two-digit months and days are determined by their text. -/
theorem printDate_inj {x y : Date} (xBounds : x.month < 100 ∧ x.day < 100)
    (yBounds : y.month < 100 ∧ y.day < 100) (same : printDate x = printDate y) : x = y := by
  have width : ∀ n, n < 100 → (Decimal.padded 2 n).length = 2 := by
    intro n fits
    exact Decimal.length_padded 2 n (by decide) fits
  have tails : ('-' :: Decimal.padded 2 x.month ++ '-' :: Decimal.padded 2 x.day).length =
      ('-' :: Decimal.padded 2 y.month ++ '-' :: Decimal.padded 2 y.day).length := by
    simp [width _ xBounds.1, width _ xBounds.2, width _ yBounds.1, width _ yBounds.2]
  obtain ⟨years, rest⟩ := List.append_inj' same tails
  have months : ('-' :: Decimal.padded 2 x.month).length =
      ('-' :: Decimal.padded 2 y.month).length := by
    simp [width _ xBounds.1, width _ yBounds.1]
  obtain ⟨sameMonth, sameDay⟩ := List.append_inj rest months
  obtain ⟨xYear, xMonth, xDay⟩ := x
  obtain ⟨yYear, yMonth, yDay⟩ := y
  have year : xYear = yYear := printYear_inj years
  have month : xMonth = yMonth := Decimal.padded_inj (List.cons.inj sameMonth).2
  have day : xDay = yDay := Decimal.padded_inj (List.cons.inj sameDay).2
  rw [year, month, day]

/-- `t.UTC().Format("2006-01-02")` — the date of an instant. -/
def formatDay (t : Time) : String :=
  String.ofList (printDate (dateOfDay (utcDay t)))

/-- Two instants have the same date exactly when they lie in the same UTC day. -/
theorem formatDay_eq_iff (s t : Time) : formatDay s = formatDay t ↔ utcDay s = utcDay t := by
  constructor
  · intro same
    have texts : printDate (dateOfDay (utcDay s)) = printDate (dateOfDay (utcDay t)) :=
      String.ofList_injective same
    exact dateOfDay_inj (printDate_inj (dateOfDay_bounds _) (dateOfDay_bounds _) texts)
  · intro same
    rw [formatDay, formatDay, same]

/-- A printed date is never the empty string. -/
theorem formatDay_ne_empty (t : Time) : formatDay t ≠ "" := by
  intro empty
  have text : printDate (dateOfDay (utcDay t)) = [] := String.ofList_injective empty
  simp [printDate] at text

example : formatDay 0 = "1970-01-01" := by decide

example : formatDay (11016 * nanosPerDay) = "2000-02-29" := by decide

end SvpMcp.Calendar
