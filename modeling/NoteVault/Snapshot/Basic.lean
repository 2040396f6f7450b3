import NoteVault.FileStat
import NoteVault.Link.Graph
import NoteVault.Note.Metadata

/-!
Snapshots: what a vault holds at one moment.
-/

namespace NoteVault

/-- A file or a folder of a vault. -/
inductive SnapshotEntry where
  | file (path : String) (stat : FileStat)
  | folder (path : String)
  deriving DecidableEq

namespace SnapshotEntry

/-- The path of an entry. -/
def path : SnapshotEntry → String
  | .file path _ => path
  | .folder path => path

/-- The path and the stat of a file. -/
def file? : SnapshotEntry → Option (String × FileStat)
  | .file path stat => some (path, stat)
  | .folder _ => none

end SnapshotEntry

/-- What a vault holds. -/
structure Snapshot where
  /-- Files and folders, in the order in which they were found. -/
  entries : List SnapshotEntry
  /-- What is known of files. -/
  metadata : NameMap Metadata
  links : LinkGraph
  /-- The bookmarked files, each once. -/
  bookmarks : List String
  /-- The files that were open last, the latest first. -/
  lastOpened : List String

namespace Snapshot

/-- A vault that holds nothing. -/
def empty : Snapshot := ⟨[], .empty, .empty, [], []⟩

/-- The files of a snapshot, in order. -/
def files (s : Snapshot) : List (String × FileStat) := s.entries.filterMap SnapshotEntry.file?

end Snapshot

end NoteVault
