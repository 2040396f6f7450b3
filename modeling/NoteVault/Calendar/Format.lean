import NoteVault.Calendar.Moment
import NoteVault.Text.Cut

/-!
Date formats. A format is written with words such as `YYYY` or `mm`, and translated once into a
pattern of directives introduced by `%`; a moment is written by the items of the pattern.
-/

namespace NoteVault.Calendar

open Text

/-- What a directive of a pattern writes. -/
inductive Field where
  | year
  | yearOfCentury
  | monthName
  | monthAbbreviation
  | month
  | monthUnpadded
  | weekdayName
  | weekdayAbbreviation
  | day
  | dayUnpadded
  | hour
  | hourUnpadded
  | halfDayHour
  | halfDayHourUnpadded
  | minute
  | second
  | halfDayUpper
  | halfDayLower
  deriving DecidableEq, Repr

/-- An item of a pattern: a character that stands for itself, or a field. -/
inductive Item where
  | literal (c : Char)
  | field (f : Field)
  deriving DecidableEq, Repr

/-- The directive that stands for a field in a pattern. -/
def Field.directive : Field → String
  | .year => "%Y"
  | .yearOfCentury => "%y"
  | .monthName => "%B"
  | .monthAbbreviation => "%b"
  | .month => "%m"
  | .monthUnpadded => "%-m"
  | .weekdayName => "%A"
  | .weekdayAbbreviation => "%a"
  | .day => "%d"
  | .dayUnpadded => "%-d"
  | .hour => "%H"
  | .hourUnpadded => "%-H"
  | .halfDayHour => "%I"
  | .halfDayHourUnpadded => "%-I"
  | .minute => "%M"
  | .second => "%S"
  | .halfDayUpper => "%p"
  | .halfDayLower => "%P"

/-- The words of date formats, in the order in which they are tried. -/
def formatWords : List (String × Field) :=
  [("YYYY", .year), ("MMMM", .monthName), ("dddd", .weekdayName), ("MMM", .monthAbbreviation),
    ("ddd", .weekdayAbbreviation), ("YY", .yearOfCentury), ("MM", .month), ("DD", .day),
    ("HH", .hour), ("hh", .halfDayHour), ("mm", .minute), ("ss", .second),
    ("M", .monthUnpadded), ("D", .dayUnpadded), ("H", .hourUnpadded),
    ("h", .halfDayHourUnpadded), ("A", .halfDayUpper), ("a", .halfDayLower)]

/-- The first of a list of words that a text begins with, its field, and the number of
characters after its first one. -/
def leadingWord? : List (String × Field) → List Char → Option (Field × Nat)
  | [], _ => none
  | (word, field) :: rest, cs =>
    if word.toList.isPrefixOf cs then some (field, word.length - 1) else leadingWord? rest cs

/-- A character of literal text as it stands in a pattern; a percent sign is doubled. -/
def literalText (c : Char) : List Char := if c = '%' then ['%', '%'] else [c]

/-- Literal text as it stands in a pattern. -/
def literalTexts (cs : List Char) : List Char := cs.flatMap literalText

/-- Translates a format; the first `skip` characters have been used already. Text in brackets
is literal, as far as the first closing bracket. -/
def translateFrom : Nat → List Char → List Char
  | _, [] => []
  | skip + 1, _ :: cs => translateFrom skip cs
  | 0, c :: cs =>
    match if c = '[' then cutFirst ']' cs else none with
    | some (inner, _) => literalTexts inner ++ translateFrom (inner.length + 1) cs
    | none =>
      match leadingWord? formatWords (c :: cs) with
      | some (field, more) => field.directive.toList ++ translateFrom more cs
      | none => literalText c ++ translateFrom 0 cs

/-- The pattern of a date format. -/
def translate (format : String) : String := String.ofList (translateFrom 0 format.toList)

/-- The field of a directive, without its percent sign, that writes no padding. -/
def unpaddedField? : Char → Option Field
  | 'm' => some .monthUnpadded
  | 'd' => some .dayUnpadded
  | 'H' => some .hourUnpadded
  | 'I' => some .halfDayHourUnpadded
  | _ => none

/-- The field of a directive of one letter. -/
def letterField? : Char → Option Field
  | 'Y' => some .year
  | 'y' => some .yearOfCentury
  | 'B' => some .monthName
  | 'b' => some .monthAbbreviation
  | 'm' => some .month
  | 'A' => some .weekdayName
  | 'a' => some .weekdayAbbreviation
  | 'd' => some .day
  | 'H' => some .hour
  | 'I' => some .halfDayHour
  | 'M' => some .minute
  | 'S' => some .second
  | 'p' => some .halfDayUpper
  | 'P' => some .halfDayLower
  | _ => none

/-- The items of a pattern; `none` when it has a directive that is not known. -/
def items? : List Char → Option (List Item)
  | [] => some []
  | '%' :: '%' :: cs => (items? cs).map (.literal '%' :: ·)
  | '%' :: '-' :: c :: cs =>
    match unpaddedField? c with
    | some f => (items? cs).map (.field f :: ·)
    | none => none
  | '%' :: c :: cs =>
    match letterField? c with
    | some f => (items? cs).map (.field f :: ·)
    | none => none
  | c :: cs => if c = '%' then none else (items? cs).map (.literal c :: ·)

/-- The names of the months. -/
def monthNames : List String :=
  ["January", "February", "March", "April", "May", "June", "July", "August", "September",
    "October", "November", "December"]

/-- The names of the days of the week, from Monday on. -/
def weekdayNames : List String :=
  ["Monday", "Tuesday", "Wednesday", "Thursday", "Friday", "Saturday", "Sunday"]

/-- An hour on the twelve-hour clock. -/
def twelveHour (hour : Nat) : Nat := if hour % 12 = 0 then 12 else hour % 12

/-- The text of a field of a moment. -/
def Field.text (field : Field) (m : Moment) : List Char :=
  let monthName := (monthNames.getD (m.day.month - 1) "").toList
  let weekdayName := (weekdayNames.getD m.day.weekday "").toList
  match field with
  | .year => yearText m.day.year
  | .yearOfCentury => padded 2 (m.day.year % 100).toNat
  | .monthName => monthName
  | .monthAbbreviation => monthName.take 3
  | .month => padded 2 m.day.month
  | .monthUnpadded => decimal m.day.month
  | .weekdayName => weekdayName
  | .weekdayAbbreviation => weekdayName.take 3
  | .day => padded 2 m.day.day
  | .dayUnpadded => decimal m.day.day
  | .hour => padded 2 m.hour
  | .hourUnpadded => decimal m.hour
  | .halfDayHour => padded 2 (twelveHour m.hour)
  | .halfDayHourUnpadded => decimal (twelveHour m.hour)
  | .minute => padded 2 m.minute
  | .second => padded 2 m.second
  | .halfDayUpper => if m.hour < 12 then ['A', 'M'] else ['P', 'M']
  | .halfDayLower => if m.hour < 12 then ['a', 'm'] else ['p', 'm']

/-- The text of an item for a moment. -/
def Item.text (item : Item) (m : Moment) : List Char :=
  match item with
  | .literal c => [c]
  | .field f => f.text m

/-- A date format, kept as its pattern. -/
structure DateFormat where
  pattern : String
  deriving DecidableEq, Repr

namespace DateFormat

/-- The date format written by a text. -/
def ofText (format : String) : DateFormat := ⟨translate format⟩

/-- Writes a moment given in milliseconds; `none` when the calendar does not reach it. -/
def write? (format : DateFormat) (ms : Int) : Option String := do
  let moment ← Moment.ofMillis? ms
  let items ← items? format.pattern.toList
  return String.ofList (items.flatMap (·.text moment))

end DateFormat

/-- The date format used when none is given. -/
def defaultDateFormat : String := "YYYY-MM-DD HH:mm"

end NoteVault.Calendar
