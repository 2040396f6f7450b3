import NoteVault.Text.Cut
import NoteVault.Unicode.Alphabet

/-!
Tags in the text of notes. A tag is a hash sign and the run of tag characters behind it.
-/

namespace NoteVault.Note

open Text Unicode

/-- Whether a character may be part of a tag. -/
def isTagChar (c : Char) : Bool := isAlphanumeric c || c == '_' || c == '-' || c == '/'

/-- Whether a hash sign behind a character begins no tag. -/
def hidesTag (c : Char) : Bool := isAlphanumeric c || c == '/' || c == '#' || c == '&'

/-- The tag made by a hash sign and the run of tag characters behind it. There is none if the run
is empty or a number; slashes at its end do not belong to the tag. -/
def tagOfRun? (run : List Char) : Option (List Char) :=
  if run.isEmpty || run.all Char.isDigit then none
  else some ('#' :: dropEndWhile (· == '/') run)

/-- The tags of a line behind a character; the first `skip` characters have been used already. -/
def tagsFrom : Nat → Option Char → List Char → List (List Char)
  | _, _, [] => []
  | skip + 1, _, c :: cs => tagsFrom skip (some c) cs
  | 0, before, c :: cs =>
    if c = '#' ∧ !before.any hidesTag then
      let run := cs.takeWhile isTagChar
      (tagOfRun? run).toList ++ tagsFrom run.length (some c) cs
    else tagsFrom 0 (some c) cs

/-- The tags of a line, in order. -/
def lineTags (line : List Char) : List (List Char) := tagsFrom 0 none line

end NoteVault.Note
