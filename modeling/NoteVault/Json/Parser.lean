import NoteVault.Text.Number

/-!
Reading the JSON format. A string may escape half of a surrogate pair; such a string is read, but
it has no text.
-/

namespace NoteVault.Json

open Text

/-- A value that has been read; numbers are kept without their digits. -/
inductive Node where
  | null
  | bool (b : Bool)
  | number
  | string (text : Option String)
  | array (items : List Node)
  | object (members : List (Option String × Node))

/-- Drops white space. -/
def skipSpace (cs : List Char) : List Char :=
  cs.dropWhile fun c => c == ' ' || c == '\n' || c == '\t' || c == '\r'

/-- What an escape stands for: a character, or a unit that may be half of a pair. -/
inductive Piece where
  | char (c : Char)
  | unit (n : Nat)

/-- Reads an escape behind its backslash. -/
def readEscape? : List Char → Option (Piece × List Char)
  | '"' :: cs => some (.char '"', cs)
  | '\\' :: cs => some (.char '\\', cs)
  | '/' :: cs => some (.char '/', cs)
  | 'b' :: cs => some (.char '\x08', cs)
  | 'f' :: cs => some (.char '\x0c', cs)
  | 'n' :: cs => some (.char '\n', cs)
  | 'r' :: cs => some (.char '\r', cs)
  | 't' :: cs => some (.char '\t', cs)
  | 'u' :: a :: b :: c :: d :: cs => (hexDigitsValue? 0 [a, b, c, d]).map (.unit ·, cs)
  | _ => none

/-- Reads the pieces of a string up to its closing quote; `fuel` bounds their number. -/
def readPieces? : Nat → List Char → Option (List Piece × List Char)
  | 0, _ => none
  | _, [] => none
  | fuel + 1, c :: cs =>
    if c = '"' then some ([], cs)
    else if c = '\\' then
      match readEscape? cs with
      | some (p, rest) => (readPieces? fuel rest).map fun (ps, rest) => (p :: ps, rest)
      | none => none
    else if c.toNat < 32 then none
    else (readPieces? fuel cs).map fun (ps, rest) => (.char c :: ps, rest)

/-- Joins units to characters; a unit that is half of a pair has to be followed by the other
half. -/
def joinPieces? : List Piece → Option (List Char)
  | [] => some []
  | .char c :: ps => (joinPieces? ps).map (c :: ·)
  | [.unit n] => (charOfCode? n).map ([·])
  | .unit n :: .unit m :: ps =>
    if 0xd800 ≤ n ∧ n < 0xdc00 ∧ 0xdc00 ≤ m ∧ m < 0xe000 then
      (joinPieces? ps).map (Char.ofNat (0x10000 + (n - 0xd800) * 0x400 + (m - 0xdc00)) :: ·)
    else
      match charOfCode? n, joinPieces? (.unit m :: ps) with
      | some c, some cs => some (c :: cs)
      | _, _ => none
  | .unit n :: .char d :: ps =>
    match charOfCode? n, joinPieces? ps with
    | some c, some cs => some (c :: d :: cs)
    | _, _ => none

/-- Reads a string behind its opening quote. -/
def readString? (cs : List Char) : Option (Option String × List Char) :=
  (readPieces? (cs.length + 1) cs).map fun (ps, rest) =>
    ((joinPieces? ps).map String.ofList, rest)

/-- Drops digits, of which there has to be one. -/
def dropDigits? : List Char → Option (List Char)
  | c :: cs => if c.isDigit then some (cs.dropWhile Char.isDigit) else none
  | [] => none

/-- Drops the whole part of a number, which has no leading zero. -/
def dropWhole? : List Char → Option (List Char)
  | '0' :: c :: cs => if c.isDigit then none else some (c :: cs)
  | '0' :: cs => some cs
  | cs => dropDigits? cs

/-- Drops the fraction of a number, if it has one. -/
def dropFraction? : List Char → Option (List Char)
  | '.' :: cs => dropDigits? cs
  | cs => some cs

/-- Drops the exponent of a number, if it has one. -/
def dropExponent? : List Char → Option (List Char)
  | c :: cs =>
    if c = 'e' ∨ c = 'E' then
      match cs with
      | '+' :: rest | '-' :: rest => dropDigits? rest
      | _ => dropDigits? cs
    else some (c :: cs)
  | [] => some []

/-- Drops a number. -/
def dropNumber? (cs : List Char) : Option (List Char) := do
  let unsigned := match cs with
    | '-' :: rest => rest
    | _ => cs
  dropExponent? (← dropFraction? (← dropWhole? unsigned))

mutual

/-- Reads a value; `fuel` bounds the number of values. -/
def readNode? : Nat → List Char → Option (Node × List Char)
  | 0, _ => none
  | fuel + 1, cs =>
    match skipSpace cs with
    | 'n' :: 'u' :: 'l' :: 'l' :: rest => some (.null, rest)
    | 't' :: 'r' :: 'u' :: 'e' :: rest => some (.bool true, rest)
    | 'f' :: 'a' :: 'l' :: 's' :: 'e' :: rest => some (.bool false, rest)
    | '"' :: rest => (readString? rest).map fun (s, rest) => (.string s, rest)
    | '[' :: rest =>
      match skipSpace rest with
      | ']' :: rest => some (.array [], rest)
      | rest => (readItems? fuel rest).map fun (items, rest) => (.array items, rest)
    | '\x7b' :: rest =>
      match skipSpace rest with
      | '\x7d' :: rest => some (.object [], rest)
      | rest => (readMembers? fuel rest).map fun (members, rest) => (.object members, rest)
    | rest => (dropNumber? rest).map fun rest => (.number, rest)

/-- Reads the items of an array up to its end. -/
def readItems? : Nat → List Char → Option (List Node × List Char)
  | 0, _ => none
  | fuel + 1, cs =>
    match readNode? fuel cs with
    | none => none
    | some (v, rest) =>
      match skipSpace rest with
      | ',' :: rest => (readItems? fuel rest).map fun (vs, rest) => (v :: vs, rest)
      | ']' :: rest => some ([v], rest)
      | _ => none

/-- Reads the members of an object up to its end. -/
def readMembers? : Nat → List Char → Option (List (Option String × Node) × List Char)
  | 0, _ => none
  | fuel + 1, cs =>
    match skipSpace cs with
    | '"' :: rest =>
      match readString? rest with
      | none => none
      | some (k, rest) =>
        match skipSpace rest with
        | ':' :: rest =>
          match readNode? fuel rest with
          | none => none
          | some (v, rest) =>
            match skipSpace rest with
            | ',' :: rest => (readMembers? fuel rest).map fun (ms, rest) => ((k, v) :: ms, rest)
            | '\x7d' :: rest => some ([(k, v)], rest)
            | _ => none
        | _ => none
    | _ => none

end

/-- The value that a text holds. -/
def parse? (text : String) : Option Node :=
  let cs := text.toList
  match readNode? (2 * cs.length + 2) cs with
  | some (v, rest) => if (skipSpace rest).isEmpty then some v else none
  | none => none

end NoteVault.Json
