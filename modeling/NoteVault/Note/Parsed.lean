import NoteVault.Distinct
import NoteVault.Note.Frontmatter
import NoteVault.Note.Links
import NoteVault.Note.Metadata
import NoteVault.Note.Tags

/-!
Notes: their properties, the tags and the links of their text. Lines between fences of three
backquotes hide what they hold.
-/

namespace NoteVault.Note

open Text

/-- What the text of a note holds, each tag and link once, and whether a fence is open. -/
structure Scan where
  fenced : Bool
  tags : List (List Char)
  links : List (List Char)

namespace Scan

/-- Before the first line. -/
def start : Scan := ⟨false, [], []⟩

/-- Whether a line opens or closes a fence. -/
def isFence (line : List Char) : Bool := (List.replicate 3 '\x60').isPrefixOf (trimStart line)

/-- Takes in a line. -/
def step (s : Scan) (line : List Char) : Scan :=
  if isFence line then { s with fenced := !s.fenced }
  else if s.fenced then s
  else { s with
      tags := (lineTags line).foldl addNew s.tags
      links := (lineLinks line).foldl addNew s.links }

/-- Takes in the lines of a text. -/
def ofText (text : List Char) : Scan := (lines text).foldl step start

end Scan

/-- A note that has been read. -/
structure Parsed where
  tags : List String
  frontmatter : Option Frontmatter
  links : List String

/-- Reads a note. Properties that cannot be read are dropped, and the body is read all the same. -/
def parse (text : String) : Parsed :=
  let cs := text.toList
  let (frontmatter, body) := match cut? cs with
    | some c => (Yaml.mapping? c.properties, c.body)
    | none => (none, cs)
  let scan := Scan.ofText body
  ⟨scan.tags.map String.ofList, frontmatter, scan.links.map String.ofList⟩

end NoteVault.Note
