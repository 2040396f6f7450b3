/-!
Writing and reading numbers in decimal and hexadecimal digits.
-/

namespace NoteVault.Text

/-- The value of a list of decimal digits, on top of `acc` already read. -/
def digitsValue : Nat → List Char → Nat
  | acc, [] => acc
  | acc, c :: cs => digitsValue (acc * 10 + (c.toNat - '0'.toNat)) cs

/-- The number written by a non-empty list of decimal digits. -/
def natural? (cs : List Char) : Option Nat :=
  if !cs.isEmpty && cs.all Char.isDigit then some (digitsValue 0 cs) else none

/-- The number written by decimal digits after an optional plus sign, when it is at most
`largest`. -/
def unsigned? (largest : Nat) (cs : List Char) : Option Nat :=
  let digits := match cs with
    | '+' :: rest => rest
    | _ => cs
  match natural? digits with
  | some n => if n ≤ largest then some n else none
  | none => none

/-- The decimal digits of a number. -/
def decimal (n : Nat) : List Char := Nat.toDigits 10 n

/-- The decimal digits of a number, with zeros in front up to a width. -/
def padded (width n : Nat) : List Char :=
  List.replicate (width - (decimal n).length) '0' ++ decimal n

/-- The largest 32-bit number. -/
def largest32 : Nat := 0xffffffff

/-- The largest 64-bit number. -/
def largest64 : Nat := 0xffffffffffffffff

/-- The value of a hexadecimal digit. -/
def hexValue? (c : Char) : Option Nat :=
  if c.isDigit then some (c.toNat - '0'.toNat)
  else if 'a' ≤ c ∧ c ≤ 'f' then some (c.toNat - 'a'.toNat + 10)
  else if 'A' ≤ c ∧ c ≤ 'F' then some (c.toNat - 'A'.toNat + 10)
  else none

/-- The hexadecimal digit of a number below sixteen. -/
def hexDigit (n : Nat) : Char := if n < 10 then Char.ofNat (48 + n) else Char.ofNat (87 + n)

/-- The value of a list of hexadecimal digits, on top of `acc`. -/
def hexDigitsValue? : Nat → List Char → Option Nat
  | acc, [] => some acc
  | acc, c :: cs =>
    match hexValue? c with
    | some v => hexDigitsValue? (acc * 16 + v) cs
    | none => none

/-- The character with a code point, if there is one. -/
def charOfCode? (n : Nat) : Option Char := if n.isValidChar then some (Char.ofNat n) else none

/-- Puts a comma before every group of three digits, counted from the end, but not in front. -/
def groupThousands : List Char → List Char
  | [] => []
  | [c] => [c]
  | c :: d :: rest =>
    if (rest.length + 1) % 3 = 0 then c :: ',' :: groupThousands (d :: rest)
    else c :: groupThousands (d :: rest)

/-- A byte count with commas between the thousands. -/
def fileSizeText (bytes : Nat) : String := String.ofList (groupThousands (decimal bytes))

end NoteVault.Text
