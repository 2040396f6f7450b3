import NoteVault.Fault
import NoteVault.Index.Classify

/-!
The list of all tags with the number of files that carry them.
-/

namespace NoteVault.Tag

open Collation

/-- How a list of tags is ordered. -/
inductive Order where
  | name
  /-- The tag with the most files comes first. -/
  | count
  deriving DecidableEq, Repr

/-- The order that a word in lower case means. -/
def Order.named? (word : String) : Option Order :=
  match word with
  | "name" => some .name
  | "count" | "frequency" => some .count
  | _ => none

/-- The order that a word means; the case of ASCII letters does not count. -/
def Order.ofText (word : String) : Except Fault Order :=
  match named? word.toLower with
  | some order => .ok order
  | none => .error (.unknownTagOrder word.toLower)

/-- A tag and the number of files that carry it. -/
structure Count where
  tag : String
  count : Nat
  deriving DecidableEq, Repr

/-- Compares two tags in an order. -/
def Order.compare [Collator] (order : Order) (a b : Count) : Ordering :=
  match order with
  | .name => collate a.tag b.tag
  | .count => (Ord.compare b.count a.count).then (collate a.tag b.tag)

/-- The tags of an index with their numbers of files. -/
def summary [Collator] (index : VaultIndex) (order : Order) : List Count :=
  (index.tagIndex.toList.map fun (tag, files) => (⟨tag, files.length⟩ : Count)).mergeSort
    fun a b => (order.compare a b).isLE

end NoteVault.Tag
