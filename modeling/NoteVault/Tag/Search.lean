import NoteVault.Collation.Basic
import NoteVault.FileRecord
import NoteVault.NameMap

/-!
Searching notes by tags: the notes that carry all tags asked for and none of those ruled out, and
the other tags that these notes carry.
-/

namespace NoteVault.Tag

open Text Unicode Collation

/-- A tag in lower case with one number sign; `none` for a tag without a name. -/
def normalize? (raw : List Char) : Option String :=
  match (trim raw).dropWhile (· == '#') with
  | [] => none
  | body => some (String.ofList ('#' :: lowercaseChars body))

/-- The tags that a query asks for and those that it rules out, each once. -/
structure Wanted where
  primary : List String
  excluded : List String
  deriving DecidableEq, Repr

namespace Wanted

/-- Takes in a word. A word behind an exclamation mark is ruled out; a word without a name is
passed over. -/
def addWord (wanted : Wanted) : List Char → Wanted
  | '!' :: word =>
    match normalize? word with
    | some tag => { wanted with excluded := addNew wanted.excluded tag }
    | none => wanted
  | word =>
    match normalize? word with
    | some tag => { wanted with primary := addNew wanted.primary tag }
    | none => wanted

/-- The tags of a query. -/
def ofQuery (query : String) : Wanted := (words query.toList).foldl addWord ⟨[], []⟩

/-- Whether a note carries all tags asked for and none of those ruled out. -/
def accepts (wanted : Wanted) (note : FileRecord) : Bool :=
  wanted.primary.all note.hasTag && !wanted.excluded.any note.hasTag

/-- Whether a tag is named in the query. -/
def names (wanted : Wanted) (tag : String) : Bool :=
  wanted.primary.contains tag || wanted.excluded.contains tag

end Wanted

/-- Files from the latest to the earliest; files of one time keep their order. -/
def recentFirst (files : List FileRecord) : List FileRecord :=
  files.mergeSort fun a b => decide (b.modifiedOrEpoch ≤ a.modifiedOrEpoch)

/-- A tag and the files that carry it, the latest first. -/
structure Group where
  tag : String
  files : List FileRecord

/-- The result of a search. -/
structure Search where
  wanted : Wanted
  matched : List FileRecord
  groups : List Group

/-- What has been found while the notes are gone through. -/
structure Found where
  matched : List FileRecord
  groups : NameMap (List FileRecord)

namespace Found

/-- Adds a note to the group of a tag. -/
def addToGroup (note : FileRecord) (groups : NameMap (List FileRecord)) (tag : String) :
    NameMap (List FileRecord) :=
  groups.alter tag fun files => files.getD [] ++ [note]

/-- Takes in a note. -/
def addNote (wanted : Wanted) (found : Found) (note : FileRecord) : Found :=
  if wanted.accepts note then
    { matched := found.matched ++ [note]
      groups := (note.tags.filter fun tag => !wanted.names tag).foldl (addToGroup note)
        found.groups }
  else found

end Found

/-- The groups in the order in which they are shown. -/
def showGroups [Collator] (groups : NameMap (List FileRecord)) : List Group :=
  (groups.toList.map fun (tag, files) => (⟨tag, recentFirst files⟩ : Group)).mergeSort
    fun a b => (collate a.tag b.tag).isLE

/-- Searches notes; a query that asks for no tag finds nothing. -/
def search [Collator] (query : String) (notes : List FileRecord) : Search :=
  let wanted := Wanted.ofQuery query
  if wanted.primary.isEmpty then ⟨wanted, [], []⟩
  else
    let found := notes.foldl (Found.addNote wanted) ⟨[], .empty⟩
    ⟨wanted, recentFirst found.matched, showGroups found.groups⟩

end NoteVault.Tag
