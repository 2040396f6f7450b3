import NoteVault.Unicode.Lowercase

/-!
The order in which names are shown. A collator knows how the readers of a locale order texts; the
program is given one, or has to do without.
-/

namespace NoteVault

/-- The collator that the program runs with: how it compares two texts, or `none` where no
collator is at hand. -/
class Collator where
  compare? : Option (String → String → Ordering)

namespace Collation

/-- Compares texts character by character in lower case. -/
def compareLowercase (a b : String) : Ordering :=
  compare (Unicode.lowercase a) (Unicode.lowercase b)

/-- Compares texts as the collator does, and in lower case without one. -/
def collate [Collator] (a b : String) : Ordering :=
  match Collator.compare? with
  | some compare => compare a b
  | none => compareLowercase a b

end Collation

end NoteVault
