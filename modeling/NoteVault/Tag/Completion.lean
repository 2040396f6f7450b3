import NoteVault.Text.Cut
import NoteVault.Unicode.Lowercase

/-!
Completing the tag at the cursor of a query. Cursors count bytes; one that stands inside a
character or behind the end means the nearest place before it.
-/

namespace NoteVault.Tag

open Text Unicode

/-- The tag that is being typed: the mark in front of it, what is typed of it, and the byte at
which the mark begins. -/
structure Active where
  mark : List Char
  typed : List Char
  start : Nat
  deriving DecidableEq, Repr

namespace Active

/-- The part of a text behind its last blank, and the part up to it. -/
def lastWord (before : List Char) : List Char × List Char :=
  match cutLast ' ' before with
  | some (head, word) => (head ++ [' '], word)
  | none => ([], before)

/-- Splits a word into the mark of a tag and its name. -/
def markAndName? : List Char → Option (List Char × List Char)
  | '!' :: '#' :: name => some (['!', '#'], name)
  | '#' :: name => some (['#'], name)
  | _ => none

/-- The tag that ends where the text before the cursor ends. -/
def ofBefore? (before : List Char) : Option Active :=
  let (head, word) := lastWord before
  (markAndName? word).map fun (mark, typed) => ⟨mark, typed, byteLength head⟩

/-- The tag at the cursor of a query. -/
def at? (query : String) (cursor : Nat) : Option Active :=
  ofBefore? (splitAtByte cursor query.toList).1

end Active

/-- A tag without its number sign. -/
def bareName (tag : String) : List Char :=
  match tag.toList with
  | '#' :: name => name
  | cs => cs

/-- The tags that begin with what is typed, without number signs; case does not count. -/
def suggest (query : String) (cursor : Nat) (tagNames : List String) : List String :=
  match Active.at? query cursor with
  | none => []
  | some active =>
    if active.typed.isEmpty then []
    else
      ((tagNames.map bareName).filter fun name =>
        (lowercaseChars active.typed).isPrefixOf (lowercaseChars name)).map String.ofList

/-- Puts a tag in the place of the word at the cursor; the cursor moves behind the blank that
follows the tag. -/
def accept (query : String) (cursor : Nat) (tag : String) : String × Nat :=
  let (before, after) := splitAtByte cursor query.toList
  match Active.ofBefore? before with
  | none => (query, byteLength before)
  | some active =>
    let head := (splitAtByte active.start before).1 ++ active.mark ++ tag.toList ++ [' ']
    (String.ofList (head ++ after), byteLength head)

end NoteVault.Tag
