import NoteVault.Decimal.FloatText

/-!
Values of the JSON format and their text, on one line or on several.
-/

namespace NoteVault.Json

open Text Decimal

/-- A value. -/
inductive Value where
  | null
  | bool (b : Bool)
  | integer (n : Int)
  | float (x : Float)
  | string (s : String)
  | array (items : List Value)
  | object (members : List (String × Value))

/-- A character as it stands in a string: quotes, backslashes and controls are escaped. -/
def escapeChar (c : Char) : List Char :=
  match c with
  | '"' => ['\\', '"']
  | '\\' => ['\\', '\\']
  | '\n' => ['\\', 'n']
  | '\r' => ['\\', 'r']
  | '\t' => ['\\', 't']
  | '\x08' => ['\\', 'b']
  | '\x0c' => ['\\', 'f']
  | c =>
    if c.toNat < 32 then ['\\', 'u', '0', '0', hexDigit (c.toNat / 16), hexDigit (c.toNat % 16)]
    else [c]

/-- A string in quotes. -/
def quote (cs : List Char) : List Char := '"' :: cs.flatMap escapeChar ++ ['"']

/-- Puts commas between texts. -/
def commaJoined : List (List Char) → List Char
  | [] => []
  | [t] => t
  | t :: ts => t ++ ',' :: commaJoined ts

/-- The text of a list of strings. -/
def stringsText (ss : List String) : List Char :=
  '[' :: commaJoined (ss.map fun s => quote s.toList) ++ [']']

/-- The layout of numbers: an exponent always has a sign. -/
def layout : Layout := ⟨-5, 15, true⟩

/-- A number as text; what is not finite has none of its own. -/
def floatChars (x : Float) : List Char :=
  if x.isFinite then (floatText layout x).toList else "null".toList

/-- An integer as text. -/
def integerChars (n : Int) : List Char :=
  if n < 0 then '-' :: decimal n.natAbs else decimal n.natAbs

/-- A line break with an indentation of two blanks for each level. -/
def newline (level : Nat) : List Char := '\n' :: List.replicate (2 * level) ' '

/-- Brackets around parts that stand on lines of their own; nothing stands between the brackets
where there is no part. -/
def bracketed (level : Nat) (left right : Char) (parts : List (List Char)) : List Char :=
  if parts.isEmpty then [left, right]
  else left :: commaJoined (parts.map (newline (level + 1) ++ ·)) ++ newline level ++ [right]

mutual

/-- The text of a value on several lines, indented by a number of levels. -/
def prettyAt (level : Nat) : Value → List Char
  | .null => "null".toList
  | .bool b => (if b then "true" else "false").toList
  | .integer n => integerChars n
  | .float x => floatChars x
  | .string s => quote s.toList
  | .array items => bracketed level '[' ']' (prettyItems level items)
  | .object members => bracketed level '\x7b' '\x7d' (prettyMembers level members)

/-- The texts of the items of an array. -/
def prettyItems (level : Nat) : List Value → List (List Char)
  | [] => []
  | v :: vs => prettyAt (level + 1) v :: prettyItems level vs

/-- The texts of the members of an object. -/
def prettyMembers (level : Nat) : List (String × Value) → List (List Char)
  | [] => []
  | (k, v) :: ms =>
    (quote k.toList ++ ':' :: ' ' :: prettyAt (level + 1) v) :: prettyMembers level ms

end

/-- The text of a value on several lines. -/
def Value.pretty (v : Value) : String := String.ofList (prettyAt 0 v)

end NoteVault.Json
