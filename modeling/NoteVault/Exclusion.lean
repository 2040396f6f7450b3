import NoteVault.FileRecord
import NoteVault.NameMap

/-!
Rules that hide files: extensions, and beginnings of paths.
-/

namespace NoteVault

open Text Unicode

/-- The extensions and the beginnings of paths that are hidden. -/
structure Exclusion where
  extensions : NameSet
  folders : NameSet

namespace Exclusion

/-- Hides nothing. -/
def none : Exclusion := ⟨.empty, .empty⟩

/-- An extension in lower case, without blanks around it and dots before it. -/
def bareExtension (extension : List Char) : List Char :=
  lowercaseChars ((trim extension).dropWhile (· == '.'))

/-- The rules that two lists give; what is empty hides nothing. -/
def ofLists (extensions folders : List String) : Exclusion where
  extensions := .ofList
    ((extensions.map fun e => String.ofList (bareExtension e.toList)).filter (· ≠ ""))
  folders := .ofList (folders.filter (· ≠ ""))

/-- Whether an extension is hidden; its case does not count. -/
def hidesExtension (rules : Exclusion) (extension : String) : Bool :=
  rules.extensions.contains (lowercase extension)

/-- Whether a path begins with a hidden beginning. -/
def hidesPath (rules : Exclusion) (path : String) : Bool :=
  rules.folders.keys.any fun beginning => beginning.toList.isPrefixOf path.toList

/-- Whether a file is hidden. -/
def hides (rules : Exclusion) (file : FileRecord) : Bool :=
  rules.hidesExtension file.extension || rules.hidesPath file.path

end Exclusion

end NoteVault
