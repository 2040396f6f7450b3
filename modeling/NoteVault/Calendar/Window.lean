import NoteVault.Calendar.Day
import NoteVault.Text.Cut

/-!
Windows of days that end with today, and the words that ask for them.
-/

namespace NoteVault.Calendar

open Text

/-- A window of days, relative to today. -/
inductive Window where
  /-- Today. -/
  | today
  /-- Today and the `n` days before it. -/
  | daysBack (n : Nat)
  /-- The month of today. -/
  | thisMonth
  /-- The month of today and the `n` months before it. -/
  | monthsBack (n : Nat)
  /-- The year of today. -/
  | thisYear
  deriving DecidableEq, Repr

/-- Whether a day lies in a window. -/
def Window.contains (window : Window) (day today : Day) : Bool :=
  match window with
  | .today => day == today
  | .daysBack n => today.number - n ≤ day.number && day.number ≤ today.number
  | .thisMonth => day.monthOrdinal == today.monthOrdinal
  | .monthsBack n =>
    today.monthOrdinal - n ≤ day.monthOrdinal && day.monthOrdinal ≤ today.monthOrdinal
  | .thisYear => day.year == today.year

/-- The window that reaches back a number of units: up to seven days or up to twelve months. -/
def Window.back? (unit : String) (n : Nat) : Option Window :=
  match unit with
  | "d" | "day" => if 1 ≤ n ∧ n ≤ 7 then some (.daysBack n) else none
  | "m" | "month" => if 1 ≤ n ∧ n ≤ 12 then some (.monthsBack n) else none
  | _ => none

/-- The window that a lower-case word names. -/
def Window.named? (word : String) : Option Window :=
  match word with
  | "d" | "day" | "today" => some .today
  | "yesterday" => some (.daysBack 1)
  | "w" | "week" => some (.daysBack 7)
  | "m" | "month" => some .thisMonth
  | "y" | "year" => some .thisYear
  | _ =>
    match cutFirst '-' word.toList with
    | none => none
    | some (unit, count) =>
      match unsigned? largest32 count with
      | none => none
      | some n => Window.back? (String.ofList unit) n

end NoteVault.Calendar
