import NoteVault.Calendar.Day
import NoteVault.Decimal.FloatText
import NoteVault.Text.Cut
import NoteVault.Toml.Table

/-!
Strings, numbers and dates of settings. A reader starts at the first character of what it reads
and returns the rest of the text behind it.
-/

namespace NoteVault.Toml

open Text

/-- Drops blanks and tabs. -/
def skipBlanks (cs : List Char) : List Char := cs.dropWhile fun c => c == ' ' || c == '\t'

/-- Whether a character may stand in a comment or, but for quotes and backslashes, in a string. -/
def isPlain (c : Char) : Bool := c == '\t' || (32 ≤ c.toNat && c.toNat != 127)

/-- Takes a line break: a line feed, alone or behind a carriage return. -/
def newline? : List Char → Option (List Char)
  | '\n' :: cs => some cs
  | '\r' :: '\n' :: cs => some cs
  | _ => none

/-- Reads a character given by a number of hexadecimal digits. -/
def readCode? (digits : Nat) (cs : List Char) : Option (Char × List Char) :=
  if cs.length < digits then none
  else do
    let code ← hexDigitsValue? 0 (cs.take digits)
    return (← charOfCode? code, cs.drop digits)

/-- Reads an escape behind its backslash. -/
def readEscape? : List Char → Option (Char × List Char)
  | 'b' :: cs => some ('\x08', cs)
  | 't' :: cs => some ('\t', cs)
  | 'n' :: cs => some ('\n', cs)
  | 'f' :: cs => some ('\x0c', cs)
  | 'r' :: cs => some ('\r', cs)
  | '"' :: cs => some ('"', cs)
  | '\\' :: cs => some ('\\', cs)
  | 'u' :: cs => readCode? 4 cs
  | 'U' :: cs => readCode? 8 cs
  | _ => none

/-- Drops blanks and line breaks; `fuel` bounds their number. -/
def skipLines : Nat → List Char → List Char
  | 0, cs => cs
  | fuel + 1, cs =>
    match newline? (skipBlanks cs) with
    | some rest => skipLines fuel rest
    | none => skipBlanks cs

/-- Drops an escaped line break with the blanks around it and all line breaks behind it. -/
def skipEscapedBreak? (cs : List Char) : Option (List Char) :=
  (newline? (skipBlanks cs)).map fun rest => skipLines (rest.length + 1) rest

/-- Reads a string on one line up to its closing quote; escapes count only in double quotes. -/
def readLine? (quote : Char) : Nat → List Char → Option (List Char × List Char)
  | 0, _ => none
  | _, [] => none
  | fuel + 1, c :: cs =>
    if c = quote then some ([], cs)
    else if c = '\\' ∧ quote = '"' then
      match readEscape? cs with
      | some (e, rest) => (readLine? quote fuel rest).map fun (s, rest) => (e :: s, rest)
      | none => none
    else if isPlain c then (readLine? quote fuel cs).map fun (s, rest) => (c :: s, rest)
    else none

/-- Reads a string on several lines up to its three closing quotes, which may be preceded by one or
two quotes that belong to the string. -/
def readLines? (quote : Char) : Nat → List Char → Option (List Char × List Char)
  | 0, _ => none
  | _, [] => none
  | fuel + 1, c :: cs =>
    if c = quote then
      let run := ((c :: cs).takeWhile (· == quote)).length
      let rest := (c :: cs).dropWhile (· == quote)
      if 5 < run then none
      else if 3 ≤ run then some (List.replicate (run - 3) quote, rest)
      else
        (readLines? quote fuel rest).map fun (s, rest) => (List.replicate run quote ++ s, rest)
    else if c = '\\' ∧ quote = '"' then
      match readEscape? cs with
      | some (e, rest) => (readLines? quote fuel rest).map fun (s, rest) => (e :: s, rest)
      | none =>
        match skipEscapedBreak? cs with
        | some rest => readLines? quote fuel rest
        | none => none
    else
      match newline? (c :: cs) with
      | some rest => (readLines? quote fuel rest).map fun (s, rest) => ('\n' :: s, rest)
      | none =>
        if isPlain c then (readLines? quote fuel cs).map fun (s, rest) => (c :: s, rest)
        else none

/-- Reads a string behind its first quote; a line break behind three quotes does not count. -/
def readString? (quote : Char) (cs : List Char) : Option (List Char × List Char) :=
  match cs with
  | a :: b :: rest =>
    if a = quote ∧ b = quote then
      let body := (newline? rest).getD rest
      readLines? quote (body.length + 1) body
    else readLine? quote (cs.length + 1) cs
  | _ => readLine? quote (cs.length + 1) cs

/-- Reads digits with single underscores between them. -/
def readDigits? (isDigit : Char → Bool) : List Char → Option (List Char × List Char)
  | [] => none
  | c :: cs =>
    if !isDigit c then none
    else
      match cs with
      | '_' :: rest => (readDigits? isDigit rest).map fun (ds, rest) => (c :: ds, rest)
      | d :: rest =>
        if isDigit d then
          (readDigits? isDigit (d :: rest)).map fun (ds, rest) => (c :: ds, rest)
        else some ([c], d :: rest)
      | [] => some ([c], [])

/-- Whether an integer fits in 64 bits with a sign. -/
def fits (n : Int) : Bool := decide (Int64.minValue.toInt ≤ n) && decide (n ≤ Int64.maxValue.toInt)

/-- The value of digits in a base. -/
def valueInBase (base : Nat) (ds : List Char) : Nat :=
  ds.foldl (fun n d => n * base + (hexValue? d).getD 0) 0

/-- Reads an integer in a base other than ten, behind its mark. -/
def readBased? (base : Nat) (cs : List Char) : Option (Value × List Char) := do
  let isDigit := fun c => (hexValue? c).any (· < base)
  let (ds, rest) ← readDigits? isDigit cs
  let n := (valueInBase base ds : Int)
  if fits n then return (.integer n, rest) else none

/-- Reads a sign. -/
def readSign : List Char → Bool × List Char
  | '-' :: cs => (true, cs)
  | '+' :: cs => (false, cs)
  | cs => (false, cs)

/-- Reads the whole part of a number, which has no leading zero. -/
def readWhole? (cs : List Char) : Option (List Char × List Char) := do
  let (ds, rest) ← readDigits? Char.isDigit cs
  if ds.head? = some '0' ∧ ds.length ≠ 1 then none else return (ds, rest)

/-- Reads the exponent of a number, if there is one. -/
def readExponent? (cs : List Char) : Option (Option Int × List Char) :=
  match cs with
  | c :: rest =>
    if c = 'e' ∨ c = 'E' then do
      let (negative, rest) := readSign rest
      let (ds, rest) ← readDigits? Char.isDigit rest
      let n := (digitsValue 0 ds : Int)
      return (some (if negative then -n else n), rest)
    else some (none, cs)
  | [] => some (none, [])

/-- Reads the fraction of a number, if there is one. -/
def readFraction? : List Char → Option (List Char × List Char)
  | '.' :: rest => readDigits? Char.isDigit rest
  | rest => some ([], rest)

/-- Reads a number in decimal digits: an integer, or one with a fraction or an exponent, which may
not be too large. -/
def readDecimal? (cs : List Char) : Option (Value × List Char) := do
  let (negative, unsigned) := readSign cs
  let (ds, rest) ← readWhole? unsigned
  let (fraction, rest) ← readFraction? rest
  let (exponent, rest) ← readExponent? rest
  if fraction.isEmpty && exponent.isNone then
    let n := (digitsValue 0 ds : Int)
    let n := if negative then -n else n
    if fits n then return (.integer n, rest) else none
  else
    let _ ← Decimal.floatOf? (digitsValue 0 (ds ++ fraction)) (exponent.getD 0 - fraction.length)
    return (.float, rest)

/-- Takes exactly `n` digits and returns their value. -/
def takeNumber? (n : Nat) (cs : List Char) : Option (Nat × List Char) :=
  if n ≤ cs.length then (natural? (cs.take n)).map (·, cs.drop n) else none

/-- Takes a character. -/
def takeChar? (c : Char) : List Char → Option (List Char)
  | d :: cs => if d = c then some cs else none
  | [] => none

/-- Reads a time of day. -/
def readTime? (cs : List Char) : Option (List Char) := do
  let (hour, rest) ← takeNumber? 2 cs
  let (minute, rest) ← takeNumber? 2 (← takeChar? ':' rest)
  let (second, rest) ← takeNumber? 2 (← takeChar? ':' rest)
  if 24 ≤ hour ∨ 60 ≤ minute ∨ 61 ≤ second then none
  else
    match rest with
    | '.' :: more =>
      match more with
      | c :: _ => if c.isDigit then return more.dropWhile Char.isDigit else none
      | [] => none
    | _ => return rest

/-- Reads the distance from universal time behind a time of day, if there is one. -/
def readOffset? : List Char → Option (List Char)
  | 'Z' :: cs | 'z' :: cs => some cs
  | c :: cs =>
    if c = '+' ∨ c = '-' then do
      let (hour, rest) ← takeNumber? 2 cs
      let (minute, rest) ← takeNumber? 2 (← takeChar? ':' rest)
      if 24 ≤ hour ∨ 60 ≤ minute then none else return rest
    else some (c :: cs)
  | [] => some []

/-- Reads a date. -/
def readDate? (cs : List Char) : Option (List Char) := do
  let (year, rest) ← takeNumber? 4 cs
  let (month, rest) ← takeNumber? 2 (← takeChar? '-' rest)
  let (day, rest) ← takeNumber? 2 (← takeChar? '-' rest)
  if (Calendar.Day.of? year month day).isSome then return rest else none

/-- Whether a text begins with the given number of digits and a character behind them. -/
def beginsWithDigits (n : Nat) (c : Char) (cs : List Char) : Bool :=
  (natural? (cs.take n)).isSome && (cs.drop n).head? == some c

/-- Reads a date, a time of day, or both. -/
def readMoment? (cs : List Char) : Option (List Char) :=
  if beginsWithDigits 2 ':' cs then readTime? cs
  else do
    let rest ← readDate? cs
    match rest with
    | c :: more =>
      if c = 'T' ∨ c = 't' ∨ (c = ' ' ∧ beginsWithDigits 2 ':' more) then
        readOffset? (← readTime? more)
      else return rest
    | [] => return rest

/-- Reads a number, a date or a time. -/
def readNumeric? (cs : List Char) : Option (Value × List Char) :=
  if beginsWithDigits 4 '-' cs || beginsWithDigits 2 ':' cs then
    (readMoment? cs).map fun rest => (.moment, rest)
  else
    match cs with
    | '0' :: 'x' :: rest => readBased? 16 rest
    | '0' :: 'o' :: rest => readBased? 8 rest
    | '0' :: 'b' :: rest => readBased? 2 rest
    | _ =>
      match (readSign cs).2 with
      | 'i' :: 'n' :: 'f' :: rest => some (.float, rest)
      | 'n' :: 'a' :: 'n' :: rest => some (.float, rest)
      | _ => readDecimal? cs

end NoteVault.Toml
