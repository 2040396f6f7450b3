import NoteVault.Snapshot.Basic
import NoteVault.Vault.Path

/-!
Building snapshots step by step. The folders of a file come before it, each once.
-/

namespace NoteVault

open Text

/-- A step in building a snapshot. -/
inductive BuildStep where
  | folder (path : String)
  | file (path : String) (stat : FileStat)
  | note (path : String) (stat : FileStat) (known : Metadata)
  | link (source target : String)
  | bookmark (path : String)
  | opened (path : String)

/-- A snapshot in the making. -/
structure SnapshotBuilder where
  entries : List SnapshotEntry
  seenFolders : NameSet
  metadata : NameMap Metadata
  links : NameMap (NameMap Nat)
  bookmarks : List String
  seenBookmarks : NameSet
  lastOpened : List String

namespace SnapshotBuilder

/-- Before the first step. -/
def start : SnapshotBuilder := ⟨[], .empty, .empty, .empty, [], .empty, []⟩

/-- The folders on the way down from `above` through folders with given names. -/
def chainFrom (above : List Char) : List (List Char) → List String
  | [] => []
  | name :: names =>
    let here := if above.isEmpty then name else above ++ '/' :: name
    String.ofList here :: chainFrom here names

/-- A folder and the folders around it, the outermost first. -/
def folderChain (path : String) : List String :=
  chainFrom [] ((pieces '/' path.toList).filter fun name => !name.isEmpty)

/-- Adds a folder, unless it is there already. -/
def addFolder (b : SnapshotBuilder) (path : String) : SnapshotBuilder :=
  if b.seenFolders.contains path then b
  else
    { b with
      entries := b.entries ++ [.folder path]
      seenFolders := b.seenFolders.insert path () }

/-- Adds a folder and the folders around it. -/
def addFolders (b : SnapshotBuilder) (path : String) : SnapshotBuilder :=
  (folderChain path).foldl addFolder b

/-- Adds a file behind its folders. -/
def addFile (b : SnapshotBuilder) (path : String) (stat : FileStat) : SnapshotBuilder :=
  let b := b.addFolders (parentFolder path)
  { b with entries := b.entries ++ [.file path stat] }

/-- Counts a link. -/
def addLink (b : SnapshotBuilder) (source target : String) : SnapshotBuilder :=
  { b with
    links := b.links.alter source fun targets =>
      (targets.getD .empty).alter target fun count => count.getD 0 + 1 }

/-- Adds a bookmark, unless it is there already. -/
def addBookmark (b : SnapshotBuilder) (path : String) : SnapshotBuilder :=
  if b.seenBookmarks.contains path then b
  else
    { b with
      bookmarks := b.bookmarks ++ [path]
      seenBookmarks := b.seenBookmarks.insert path () }

/-- Takes a step. -/
def apply (b : SnapshotBuilder) : BuildStep → SnapshotBuilder
  | .folder path => b.addFolders path
  | .file path stat => b.addFile path stat
  | .note path stat known =>
    let b := b.addFile path stat
    { b with metadata := b.metadata.insert path known }
  | .link source target => b.addLink source target
  | .bookmark path => b.addBookmark path
  | .opened path => { b with lastOpened := b.lastOpened ++ [path] }

/-- Takes several steps. -/
def run (b : SnapshotBuilder) (steps : List BuildStep) : SnapshotBuilder := steps.foldl apply b

/-- The snapshot that has been built. -/
def build (b : SnapshotBuilder) : Snapshot where
  entries := b.entries
  metadata := b.metadata
  links := .ofCounts b.links
  bookmarks := b.bookmarks
  lastOpened := b.lastOpened

end SnapshotBuilder

/-- The snapshot that steps build. -/
def Snapshot.ofSteps (steps : List BuildStep) : Snapshot :=
  (SnapshotBuilder.start.run steps).build

end NoteVault
