import NoteVault.Collation.Basic
import NoteVault.Fault
import NoteVault.FileRecord
import NoteVault.Link.Graph

/-!
Sorting files by a column. Files that the column does not tell apart keep their order, whichever
way the column is sorted.
-/

namespace NoteVault.Query

open Collation

/-- A column by which files can be sorted. -/
inductive SortColumn where
  | name
  | extension
  /-- The folder of a file. -/
  | path
  | size
  | modified
  | backlinks
  | outgoing
  deriving DecidableEq, Repr

namespace SortColumn

/-- The name of a column. -/
def label : SortColumn → String
  | .name => "name"
  | .extension => "ext"
  | .path => "path"
  | .size => "size"
  | .modified => "modified"
  | .backlinks => "backlinks"
  | .outgoing => "outgoing"

/-- The column that a word in lower case means. -/
def named? (word : String) : Option SortColumn :=
  match word with
  | "name" => some .name
  | "ext" | "extension" => some .extension
  | "path" | "folder" => some .path
  | "size" => some .size
  | "modified" | "date" => some .modified
  | "backlinks" => some .backlinks
  | "outgoing" => some .outgoing
  | _ => none

/-- The column that a word means; the case of ASCII letters does not count. -/
def ofText (word : String) : Except Fault SortColumn :=
  match named? word.toLower with
  | some column => .ok column
  | none => .error (.unknownSortColumn word.toLower)

/-- Compares two files by a column. -/
def compare [Collator] (links : LinkGraph) (a b : FileRecord) : SortColumn → Ordering
  | .name => collate a.name b.name
  | .extension => collate a.extension b.extension
  | .path => collate a.folder b.folder
  | .size => Ord.compare a.size b.size
  | .modified => Ord.compare a.modifiedOrEpoch b.modifiedOrEpoch
  | .backlinks => Ord.compare (links.backlinkCount a.path) (links.backlinkCount b.path)
  | .outgoing => Ord.compare (links.outgoingCount a.path) (links.outgoingCount b.path)

end SortColumn

/-- A direction of sorting. -/
inductive SortDir where
  | asc
  | desc
  deriving DecidableEq, Repr

namespace SortDir

/-- The name of a direction. -/
def label : SortDir → String
  | .asc => "asc"
  | .desc => "desc"

/-- The other direction. -/
def flipped : SortDir → SortDir
  | .asc => .desc
  | .desc => .asc

end SortDir

/-- A column with a direction. -/
structure SortState where
  column : SortColumn
  dir : SortDir
  deriving DecidableEq, Repr

namespace SortState

/-- The latest files come first. -/
def latestFirst : SortState := ⟨.modified, .desc⟩

/-- Choosing the same column again turns the direction around; another column starts from its
greatest value. -/
def toggle (state : SortState) (column : SortColumn) : SortState :=
  if state.column = column then ⟨column, state.dir.flipped⟩ else ⟨column, .desc⟩

/-- Compares two files by a column in a direction. -/
def compare [Collator] (state : SortState) (links : LinkGraph) (a b : FileRecord) : Ordering :=
  match state.dir with
  | .asc => state.column.compare links a b
  | .desc => state.column.compare links b a

/-- Sorts files. -/
def sort [Collator] (state : SortState) (links : LinkGraph) (files : List FileRecord) :
    List FileRecord :=
  files.mergeSort fun a b => (state.compare links a b).isLE

end SortState

end NoteVault.Query
