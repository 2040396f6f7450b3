import NoteVault.Calendar.Day
import NoteVault.Text.Cut

/-!
Ranges of days and the little language that writes them: a unit (a year, a month, a day, or `d`
for today), or two units with `..` between them, either of which may be missing.
-/

namespace NoteVault.Calendar

open Text

/-- The days from `start` to `finish`, both included. -/
structure DayRange where
  start : Day
  finish : Day
  deriving DecidableEq

namespace DayRange

/-- Whether a day lies in a range. -/
def contains (range : DayRange) (day : Day) : Bool :=
  decide (range.start ≤ day) && decide (day ≤ range.finish)

/-- A range as text. -/
def label (range : DayRange) : String := range.start.text ++ " to " ++ range.finish.text

/-- The first and the last day of a year. -/
def ofYear? (year : Nat) : Option DayRange := do
  return ⟨← Day.of? year 1 1, ← Day.of? year 12 31⟩

/-- The first day of the month behind a month; behind December comes January. -/
def nextMonth? (year month : Nat) : Option Day :=
  if month = 12 then Day.of? (year + 1) 1 1 else Day.of? year (month + 1) 1

/-- The first day of a month, and the day before the next month. -/
def ofMonth? (year month : Nat) : Option DayRange := do
  return ⟨← Day.of? year month 1, ← (← nextMonth? year month).yesterday?⟩

/-- A single day. -/
def ofDay? (year month day : Nat) : Option DayRange := do
  let d ← Day.of? year month day
  return ⟨d, d⟩

/-- The days of a unit: today, a year of four digits, a month or a day of two more digits
each. -/
def ofUnit? (unit : List Char) (today : Day) : Option DayRange :=
  if unit = ['d'] ∨ unit = ['@', 'd'] then some ⟨today, today⟩
  else
    match pieces '-' unit with
    | [y] => if y.length = 4 then do ofYear? (← natural? y) else none
    | [y, m] =>
      if y.length = 4 ∧ m.length = 2 then do ofMonth? (← natural? y) (← natural? m) else none
    | [y, m, d] =>
      if y.length = 4 ∧ m.length = 2 ∧ d.length = 2 then do
        ofDay? (← natural? y) (← natural? m) (← natural? d)
      else none
    | _ => none

/-- The day at which ranges without a beginning start. -/
def epoch : Day := ⟨1970, 1, 1, by decide, by decide, by decide⟩

/-- The parts of a text between the occurrences of `..`, found from left to right. -/
def sides : List Char → List (List Char)
  | [] => [[]]
  | '.' :: '.' :: cs => [] :: sides cs
  | c :: cs =>
    match sides cs with
    | [] => [[c]]
    | p :: ps => (c :: p) :: ps

/-- The first day of the left side of a range. -/
def startOf? (side : List Char) (today : Day) : Option Day :=
  match trim side with
  | [] => some epoch
  | unit => (ofUnit? unit today).map DayRange.start

/-- The last day of the right side of a range. -/
def finishOf? (side : List Char) (today : Day) : Option Day :=
  match trim side with
  | [] => some today
  | unit => (ofUnit? unit today).map DayRange.finish

/-- The range that a text writes; `none` for text that writes none. -/
def parse? (text : String) (today : Day) : Option DayRange :=
  match sides (trim text.toList) with
  | [unit] => ofUnit? unit today
  | [left, right] => do return ⟨← startOf? left today, ← finishOf? right today⟩
  | _ => none

end DayRange

end NoteVault.Calendar
