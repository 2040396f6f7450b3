/-!
A place in a document: what is left of it, and how many characters, lines and columns lie before.
-/

namespace NoteVault.Yaml

/-- A place in a document. -/
structure Cursor where
  rest : List Char
  index : Nat
  line : Nat
  column : Nat

/-- Whether a character is a blank. -/
def isBlank (c : Char) : Bool := c == ' ' || c == '\t'

/-- Whether a character breaks a line. -/
def isBreak (c : Char) : Bool :=
  c == '\r' || c == '\n' || c.toNat == 0x85 || c.toNat == 0x2028 || c.toNat == 0x2029

/-- Whether a character is the byte order mark. -/
def isByteOrderMark (c : Char) : Bool := c.toNat == 0xfeff

/-- Whether a character may stand in the name of an anchor. -/
def isNameChar (c : Char) : Bool := c.isAlphanum || c == '_' || c == '-'

namespace Cursor

/-- The start of a document. -/
def start (text : List Char) : Cursor := ⟨text, 0, 0, 0⟩

/-- The next character. -/
def peek (c : Cursor) : Option Char := c.rest.head?

/-- The character behind the next one. -/
def peekSecond (c : Cursor) : Option Char := c.rest.tail.head?

/-- Whether the next character satisfies `p`. -/
def sees (c : Cursor) (p : Char → Bool) : Bool := c.peek.any p

/-- Whether the next character is the given one. -/
def seesChar (c : Cursor) (x : Char) : Bool := c.peek == some x

/-- Whether a character is missing or is a blank or a break. -/
def endsWord : Option Char → Bool
  | none => true
  | some x => isBlank x || isBreak x

/-- Whether a character is missing or is a break. -/
def endsLine : Option Char → Bool
  | none => true
  | some x => isBreak x

/-- Moves behind the next character, which is not a break. -/
def next (c : Cursor) : Cursor :=
  match c.rest with
  | [] => c
  | _ :: cs => ⟨cs, c.index + 1, c.line, c.column + 1⟩

/-- Moves behind `n` characters. -/
def skip (n : Nat) (c : Cursor) : Cursor :=
  ⟨c.rest.drop n, c.index + n, c.line, c.column + n⟩

/-- Moves to the next line and returns the break as it counts in text: a line feed for all breaks
but the line and the paragraph separator. Elsewhere than at a break, nothing happens. -/
def nextLine (c : Cursor) : List Char × Cursor :=
  match c.rest with
  | '\r' :: '\n' :: cs => (['\n'], ⟨cs, c.index + 2, c.line + 1, 0⟩)
  | x :: cs =>
    if !isBreak x then ([], c)
    else
      (if x.toNat = 0x2028 ∨ x.toNat = 0x2029 then [x] else ['\n'],
        ⟨cs, c.index + 1, c.line + 1, 0⟩)
  | [] => ([], c)

/-- Takes characters as long as they satisfy `p`, which breaks do not. -/
def takeWhile (p : Char → Bool) (c : Cursor) : List Char × Cursor :=
  let taken := c.rest.takeWhile p
  (taken, c.skip taken.length)

/-- Skips characters as long as they satisfy `p`, which breaks do not. -/
def skipWhile (p : Char → Bool) (c : Cursor) : Cursor := (c.takeWhile p).2

/-- Skips to the end of the line. -/
def skipToLineEnd (c : Cursor) : Cursor := c.skipWhile (!isBreak ·)

/-- Whether three times the given character stand at the start of a line, on their own. -/
def seesMarker (c : Cursor) (x : Char) : Bool :=
  c.column == 0 &&
    match c.rest with
    | a :: b :: d :: cs => a == x && b == x && d == x && endsWord cs.head?
    | _ => false

/-- Whether a mark between documents stands here. -/
def seesDocumentMarker (c : Cursor) : Bool := c.seesMarker '-' || c.seesMarker '.'

end Cursor

end NoteVault.Yaml
