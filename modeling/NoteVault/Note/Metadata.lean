import NoteVault.Yaml.Value

/-!
What is known of a file beyond its name and its times: tags, and a mapping of properties.
-/

namespace NoteVault

/-- A mapping of properties, in the order in which it is written. -/
abbrev Frontmatter := List (Yaml.Value × Yaml.Value)

/-- What is known of a file. -/
structure Metadata where
  /-- The tags in the text, as written. -/
  tags : List String
  frontmatter : Option Frontmatter

namespace Metadata

/-- Tags without properties. -/
def ofTags (tags : List String) : Metadata := ⟨tags, none⟩

/-- The properties that a text writes replace those there were; a text that writes no mapping
leaves none. -/
def withYaml (m : Metadata) (text : String) : Metadata :=
  { m with frontmatter := Yaml.mapping? text.toList }

end Metadata

end NoteVault
