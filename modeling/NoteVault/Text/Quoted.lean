import NoteVault.Text.Number
import NoteVault.Unicode.Category

/-!
Texts in quotes, for people to read: what cannot be seen is written out.
-/

namespace NoteVault.Text

open Unicode

/-- Whether a character can be seen by itself. -/
def isVisible (c : Char) : Bool :=
  match Category.of c with
  | .enclosingMark | .nonspacingMark => false
  | .spaceSeparator => c == ' '
  | category => !category.isOther && !category.isSeparator

/-- A number in hexadecimal digits. -/
def hexadecimal (n : Nat) : List Char := Nat.toDigits 16 n

/-- A character as it stands between quotes. -/
def visibleForm (c : Char) : List Char :=
  match c with
  | '"' => ['\\', '"']
  | '\\' => ['\\', '\\']
  | '\n' => ['\\', 'n']
  | '\r' => ['\\', 'r']
  | '\t' => ['\\', 't']
  | '\x00' => ['\\', '0']
  | c =>
    if isVisible c then [c] else ['\\', 'u', '\x7b'] ++ hexadecimal c.toNat ++ ['\x7d']

/-- A text in quotes. -/
def quoted (text : String) : String :=
  String.ofList ('"' :: text.toList.flatMap visibleForm ++ ['"'])

end NoteVault.Text
