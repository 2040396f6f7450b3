import NoteVault.Decimal.Shortest

/-!
Floating-point numbers as text. A number is written with the fewest digits that read back, with a
point as long as that takes few zeros, else with an exponent; a whole number written with a point
ends in `.0`.
-/

namespace NoteVault.Decimal

open Text

/-- The finite number with the given bits, its sign left out; none for zero. -/
def binaryOfBits? (bits : Nat) : Option Binary :=
  let fraction : Nat := bits % (1 <<< 52)
  let biased : Nat := (bits >>> 52) % (1 <<< 11)
  if biased = 0 then
    if fraction = 0 then none else some ⟨fraction, -1074, false⟩
  else some ⟨1 <<< 52 + fraction, (biased : Int) - 1075, fraction == 0 && 1 < biased⟩

/-- How the text of a number is laid out. -/
structure Layout where
  /-- The exponents that are written with a point. -/
  least : Int
  greatest : Int
  /-- Whether an exponent that is not negative has a plus sign. -/
  plus : Bool

/-- Drops the zeros at the end. -/
def dropZeros (cs : List Char) : List Char := (cs.reverse.dropWhile (· == '0')).reverse

/-- Digits with a point behind the first `whole` ones; zeros are added as needed. -/
def withPoint (digits : List Char) (whole : Int) : List Char :=
  if whole ≤ 0 then ['0', '.'] ++ List.replicate (-whole).toNat '0' ++ digits
  else
    let n := whole.toNat
    let padded := digits ++ List.replicate (n - digits.length) '0'
    let rest := padded.drop n
    padded.take n ++ '.' :: (if rest.isEmpty then ['0'] else rest)

/-- The exponent behind the letter `e`. -/
def exponentText (layout : Layout) (e : Int) : List Char :=
  if e < 0 then '-' :: decimal e.natAbs
  else if layout.plus then '+' :: decimal e.natAbs
  else decimal e.natAbs

/-- A positive decimal as text. -/
def decimalText (layout : Layout) (d : Numeral) : List Char :=
  let all := decimal d.digits
  let e := d.exponent + all.length - 1
  let digits := dropZeros all
  if layout.least ≤ e ∧ e ≤ layout.greatest then withPoint digits (e + 1)
  else
    match digits with
    | [] => []
    | [c] => c :: 'e' :: exponentText layout e
    | c :: cs => c :: '.' :: cs ++ 'e' :: exponentText layout e

/-- A finite number as text. -/
def floatText (layout : Layout) (x : Float) : String :=
  let bits := x.toBits.toNat
  let body := match binaryOfBits? bits with
    | none => ['0', '.', '0']
    | some b => decimalText layout (shortest b)
  String.ofList (if 1 <<< 63 ≤ bits then '-' :: body else body)

/-- The number `digits * 10 ^ exponent`, unless it is too large. -/
def floatOf? (digits : Nat) (exponent : Int) : Option Float :=
  let magnitude := ((decimal digits).length : Int) + exponent
  if digits = 0 ∨ magnitude < -400 then some 0.0
  else if 400 < magnitude then none
  else
    let x := Float.ofScientific digits (exponent < 0) exponent.natAbs
    if x.isInf then none else some x

/-- The exponent behind the letter `e`, with an optional sign. -/
def readExponent? : List Char → Option Int
  | '-' :: cs => (natural? cs).map fun n => -(n : Int)
  | '+' :: cs => (natural? cs).map fun n => (n : Int)
  | cs => (natural? cs).map fun n => (n : Int)

/-- Reads a decimal number without a sign: digits with at most one point, at least one digit
among them, and an optional exponent. A number that is too large gives none. -/
def readUnsigned? (cs : List Char) : Option Float :=
  let isMark := fun (c : Char) => c == 'e' || c == 'E'
  let body := cs.takeWhile (!isMark ·)
  let exponent? := match cs.dropWhile (!isMark ·) with
    | [] => some 0
    | _ :: e => readExponent? e
  let whole := body.takeWhile Char.isDigit
  let parts? := match body.dropWhile Char.isDigit with
    | [] => some []
    | '.' :: fraction => if fraction.all Char.isDigit then some fraction else none
    | _ => none
  match exponent?, parts? with
  | some e, some fraction =>
    if (whole ++ fraction).isEmpty then none
    else floatOf? (digitsValue 0 (whole ++ fraction)) (e - fraction.length)
  | _, _ => none

/-- Reads a decimal number with an optional sign. -/
def readFloat? : List Char → Option Float
  | '-' :: cs => (readUnsigned? cs).map (-·)
  | '+' :: cs => readUnsigned? cs
  | cs => readUnsigned? cs

end NoteVault.Decimal
