import NoteVault.Collation.Basic
import NoteVault.Exclusion
import NoteVault.Snapshot.Basic

/-!
The index of a snapshot: its files in categories and by tag, without the hidden ones. Every
collection lists files in the order of the snapshot.
-/

namespace NoteVault

open Collation

/-- The files of a vault, sorted out. -/
structure VaultIndex where
  /-- All files, hidden ones included. -/
  allFiles : List FileRecord
  folders : List String
  /-- The files that are not hidden. -/
  filteredFiles : List FileRecord
  /-- The files of each category. -/
  byCategory : List (FileCategory × List FileRecord)
  /-- The files that carry a tag. -/
  tagIndex : NameMap (List FileRecord)
  /-- The tags in the order in which they are shown. -/
  tagNames : List String
  byPath : NameMap FileRecord

namespace VaultIndex

variable [Collator]

/-- No files in any category. -/
def empty : VaultIndex where
  allFiles := []
  folders := []
  filteredFiles := []
  byCategory := FileCategory.all.map fun c => (c, [])
  tagIndex := .empty
  tagNames := []
  byPath := .empty

/-- Takes in an entry of a snapshot. -/
def addEntry (metadata : NameMap Metadata) (index : VaultIndex) : SnapshotEntry → VaultIndex
  | .folder path =>
    if path = "" ∨ path = "/" then index
    else { index with folders := index.folders ++ [path] }
  | .file path stat =>
    { index with
      allFiles := index.allFiles ++ [FileRecord.ofParts path stat (metadata.find? path)] }

/-- Adds a file at the end of the files of its category. -/
def addToCategory (file : FileRecord) (lists : List (FileCategory × List FileRecord)) :
    List (FileCategory × List FileRecord) :=
  lists.map fun (c, files) => if c = file.category then (c, files ++ [file]) else (c, files)

/-- Adds a file at the end of the files that carry a tag. -/
def addToTag (file : FileRecord) (tags : NameMap (List FileRecord)) (tag : String) :
    NameMap (List FileRecord) :=
  tags.alter tag fun files => files.getD [] ++ [file]

/-- Takes in a file that is not hidden. -/
def addFile (index : VaultIndex) (file : FileRecord) : VaultIndex :=
  { index with
    filteredFiles := index.filteredFiles ++ [file]
    byPath := index.byPath.insert file.path file
    byCategory := addToCategory file index.byCategory
    tagIndex := file.tags.foldl (addToTag file) index.tagIndex }

/-- Names in the order in which they are shown. -/
def collated (names : List String) : List String :=
  names.mergeSort fun a b => (collate a b).isLE

/-- The index of a snapshot under rules that hide files. -/
def classify (snapshot : Snapshot) (rules : Exclusion) : VaultIndex :=
  let found := snapshot.entries.foldl (addEntry snapshot.metadata) empty
  let index := found.allFiles.foldl
    (fun index file => if rules.hides file then index else index.addFile file) found
  { index with tagNames := collated index.tagIndex.keys }

/-- The files of a category. -/
def filesIn (index : VaultIndex) (c : FileCategory) : List FileRecord :=
  (index.byCategory.lookup c).getD []

/-- The notes. -/
def notes (index : VaultIndex) : List FileRecord := index.filesIn .notes

/-- The file with a path, unless it is hidden. -/
def record? (index : VaultIndex) (path : String) : Option FileRecord := index.byPath.find? path

/-- The files with given paths; paths without a file are passed over. -/
def records (index : VaultIndex) (paths : List String) : List FileRecord :=
  paths.filterMap index.record?

/-- The files that link to a path. -/
def backlinks (index : VaultIndex) (path : String) (links : LinkGraph) : List FileRecord :=
  index.records (links.backlinks path)

/-- The files that a path links to. -/
def outgoingLinks (index : VaultIndex) (path : String) (links : LinkGraph) : List FileRecord :=
  index.records (links.outgoing path)

end VaultIndex

end NoteVault
