import NoteVault.Text.Number

/-!
Days of the proleptic Gregorian calendar, from the first day of year -262143 to the last day of
year 262142. A day has a number, counted from 1970-01-01, and days are ordered by it.
-/

namespace NoteVault.Calendar

open Text

/-- Whether a year has a 29 February. -/
def isLeap (year : Int) : Bool :=
  year % 4 == 0 && (year % 100 != 0 || year % 400 == 0)

/-- The number of days of a month. -/
def daysInMonth (year : Int) : Nat → Nat
  | 2 => if isLeap year then 29 else 28
  | 4 | 6 | 9 | 11 => 30
  | _ => 31

/-- The first and last year of the calendar. -/
def firstYear : Int := -262143

@[inherit_doc firstYear]
def lastYear : Int := 262142

/-- A day of the calendar. -/
structure Day where
  year : Int
  month : Nat
  day : Nat
  year_le : firstYear ≤ year ∧ year ≤ lastYear
  month_le : 1 ≤ month ∧ month ≤ 12
  day_le : 1 ≤ day ∧ day ≤ daysInMonth year month
  deriving DecidableEq

namespace Day

/-- The day with a given year, month and day of the month, if there is one. -/
def of? (year : Int) (month day : Nat) : Option Day :=
  if hy : firstYear ≤ year ∧ year ≤ lastYear then
    if hm : 1 ≤ month ∧ month ≤ 12 then
      if hd : 1 ≤ day ∧ day ≤ daysInMonth year month then
        some ⟨year, month, day, hy, hm, hd⟩
      else none
    else none
  else none

/-- The number of days from 1970-01-01 to the first day of a year. -/
def yearStart (year : Int) : Int :=
  365 * (year - 1970) + ((year - 1) / 4 - 492) - ((year - 1) / 100 - 19) + ((year - 1) / 400 - 4)

/-- The number of days of a year before a month. -/
def daysBeforeMonth (year : Int) : Nat → Nat
  | 0 => 0
  | 1 => 0
  | m + 1 => daysBeforeMonth year m + daysInMonth year m

/-- The number of days from 1970-01-01 to a day. -/
def number (d : Day) : Int :=
  yearStart d.year + daysBeforeMonth d.year d.month + (d.day - 1 : Nat)

instance : LE Day := ⟨fun a b => a.number ≤ b.number⟩

instance (a b : Day) : Decidable (a ≤ b) := inferInstanceAs (Decidable (a.number ≤ b.number))

/-- The year that holds the day with a given number: an estimate, put right by one year. -/
def yearOfNumber (n : Int) : Int :=
  let guess := n * 400 / 146097 + 1970
  if n < yearStart guess then guess - 1
  else if yearStart (guess + 1) ≤ n then guess + 1
  else guess

/-- Walks `months` months from month `m` on to the one that holds day `rest` of them, counted
from zero; returns the month and the day of the month. -/
def monthAndDay (year : Int) : Nat → Nat → Nat → Nat × Nat
  | 0, m, rest => (m, rest + 1)
  | months + 1, m, rest =>
    if rest < daysInMonth year m then (m, rest + 1)
    else monthAndDay year months (m + 1) (rest - daysInMonth year m)

/-- The day with a given number, if it lies within the calendar. -/
def ofNumber? (n : Int) : Option Day :=
  let year := yearOfNumber n
  let (month, day) := monthAndDay year 12 1 (n - yearStart year).toNat
  of? year month day

/-- The day before a day, as the calendar has it. -/
def yesterday? (d : Day) : Option Day :=
  if 1 < d.day then of? d.year d.month (d.day - 1)
  else if 1 < d.month then of? d.year (d.month - 1) (daysInMonth d.year (d.month - 1))
  else of? (d.year - 1) 12 31

/-- The day of the week, counted from Monday as zero. -/
def weekday (d : Day) : Nat := ((d.number + 3) % 7).toNat

/-- Months counted through the years. -/
def monthOrdinal (d : Day) : Int := d.year * 12 + (d.month - 1 : Nat)

end Day

/-- A year in at least four digits; a year that needs more has a plus sign, one before year 0 a
minus sign. -/
def yearText (year : Int) : List Char :=
  if year < 0 then '-' :: padded 4 year.natAbs
  else if year ≤ 9999 then padded 4 year.natAbs
  else '+' :: padded 4 year.natAbs

/-- A day as year, month and day of the month, with hyphens between them. -/
def Day.text (d : Day) : String :=
  String.ofList (yearText d.year ++ '-' :: padded 2 d.month ++ '-' :: padded 2 d.day)

end NoteVault.Calendar
