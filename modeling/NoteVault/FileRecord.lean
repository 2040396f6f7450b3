import NoteVault.Distinct
import NoteVault.FileCategory
import NoteVault.FileStat
import NoteVault.Note.Metadata
import NoteVault.Unicode.Lowercase
import NoteVault.Vault.Path
import NoteVault.Yaml.Text

/-!
Files as queries see them: a path and its parts, times, tags and properties, all derived from a
path, a stat and what a note says. Main statements: tags are the display tags in lower case, and
both lists hold each tag once.
-/

namespace NoteVault

open Text Unicode

/-- A file of a vault. -/
structure FileRecord where
  path : String
  /-- The part of the path behind the last slash. -/
  name : String
  /-- The name without its extension. -/
  basename : String
  /-- The extension in lower case, without its dot; empty where the name has none. -/
  extension : String
  size : Nat
  created : Option Int64
  modified : Option Int64
  /-- The tags as written, those of the text first. -/
  displayTags : List String
  /-- The tags in lower case. -/
  tags : List String
  properties : List (String × String)
  category : FileCategory

namespace FileRecord

/-- Splits a name at its last dot, unless nothing stands before it; the second part is the
extension in lower case. -/
def splitName (name : String) : String × String :=
  match cutLast '.' name.toList with
  | some (c :: base, extension) =>
    (String.ofList (c :: base), String.ofList (lowercaseChars extension))
  | _ => (name, "")

/-- A tag with its number sign, without blanks around it; `none` for a tag without a name. -/
def displayTag? (tag : String) : Option String :=
  match trim tag.toList with
  | [] => none
  | ['#'] => none
  | '#' :: cs => some (String.ofList ('#' :: cs))
  | cs => some (String.ofList ('#' :: cs))

/-- The tags that the properties of a note list under `tags`: a string, or the strings of a
sequence. -/
def propertyTags (properties : Frontmatter) : List String :=
  match properties.find? fun (key, _) => key.string? == some "tags" with
  | some (_, .string s) => [s]
  | some (_, .sequence items) => items.filterMap Yaml.Value.string?
  | _ => []

/-- The tags of a file: those of its text, then those of its properties. -/
def displayTagsOf (known : Metadata) : List String :=
  firstOccurrences
    ((known.tags ++ (known.frontmatter.map propertyTags).getD []).filterMap displayTag?)

/-- The keys and values of the properties of a note, as text. -/
def propertiesOf (known : Metadata) : List (String × String) :=
  (known.frontmatter.getD []).map fun (key, value) =>
    (String.ofList key.display, String.ofList value.display)

/-- The record of a file with a given path, its stat, and what is known of it. -/
def ofParts (path : String) (stat : FileStat) (known : Option Metadata) : FileRecord :=
  let name := fileName path
  let (basename, extension) := splitName name
  let displayTags := (known.map displayTagsOf).getD []
  { path, name, basename, extension
    size := stat.size
    created := stat.created
    modified := stat.modified
    displayTags
    tags := firstOccurrences (displayTags.map lowercase)
    properties := (known.map propertiesOf).getD []
    category := .ofExtension extension }

/-- The time that decides the order of files; a missing time counts as the start of 1970. -/
def modifiedOrEpoch (file : FileRecord) : Int := (file.modified.map Int64.toInt).getD 0

/-- The folder of a file between slashes. -/
def folder (file : FileRecord) : String := folderText file.path

/-- Whether a file carries a tag, given in lower case with its number sign. -/
def hasTag (file : FileRecord) (tag : String) : Bool := file.tags.contains tag

/-- The tags of a file in one line. -/
def tagText (file : FileRecord) : String := joinWith " " file.displayTags

/-- A property in quotes. -/
def propertyText (property : String × String) : String :=
  "'" ++ property.1 ++ ": " ++ property.2 ++ "'"

/-- The properties of a file, one in each line. -/
def propertiesText (file : FileRecord) : String :=
  joinWith " \n" (file.properties.map propertyText)

theorem tags_nodup (path : String) (stat : FileStat) (known : Option Metadata) :
    (ofParts path stat known).tags.Nodup := nodup_firstOccurrences _

end FileRecord

end NoteVault
