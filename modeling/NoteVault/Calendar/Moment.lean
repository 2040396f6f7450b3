import NoteVault.Calendar.Day

/-!
Moments: a day and a time of day, read from milliseconds since the start of 1970.
-/

namespace NoteVault.Calendar

/-- A second of a day. -/
structure Moment where
  day : Day
  hour : Nat
  minute : Nat
  second : Nat
  deriving DecidableEq

/-- The number of milliseconds in a day. -/
def millisPerDay : Int := 86400000

/-- The day that holds a moment given in milliseconds, if the calendar reaches it. -/
def dayOfMillis? (ms : Int) : Option Day := Day.ofNumber? (ms / millisPerDay)

/-- The second that holds a moment given in milliseconds, if the calendar reaches it. -/
def Moment.ofMillis? (ms : Int) : Option Moment :=
  (dayOfMillis? ms).map fun day =>
    let seconds := (ms % millisPerDay / 1000).toNat
    ⟨day, seconds / 3600, seconds / 60 % 60, seconds % 60⟩

end NoteVault.Calendar
