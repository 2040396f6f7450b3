import NoteVault.Tag.Search

/-!
Adding a tag to a query and taking it away again.
-/

namespace NoteVault.Tag

open Text

/-- Whether two words are the same but for the case of ASCII letters. -/
def sameWord (a b : List Char) : Bool := a.map Char.toLower == b.map Char.toLower

/-- Adds a tag to a query, ruled out or not, or takes it away where it is there already. The
opposite form of the tag goes in any case. -/
def toggle (query : String) (tag : String) (exclude : Bool) : String :=
  match normalize? tag.toList with
  | none => query
  | some tag =>
    let plain := tag.toList
    let target := if exclude then '!' :: plain else plain
    let opposite := if exclude then plain else '!' :: plain
    let all := words query.toList
    let kept := all.filter fun word => !sameWord word target && !sameWord word opposite
    let result := if all.any (sameWord · target) then kept else kept ++ [target]
    joinWith " " (result.map String.ofList)

end NoteVault.Tag
