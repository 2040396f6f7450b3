import NoteVault.Bookmarks
import NoteVault.Link.Resolver
import NoteVault.Note.Parsed
import NoteVault.Settings
import NoteVault.Snapshot.Builder
import NoteVault.Vault.Open

/-!
Reading a vault from a disk: folders from the outside in, members in the order of their names,
notes with what their text says, then links, bookmarks and the files that were open last. Names
that are ignored hide everything below them, and links of the file system are not followed.
-/

namespace NoteVault

open Text Unicode

namespace DiskNode

mutual

/-- What is below a node, with the names that lead to it, without what is ignored. -/
def list (ignored above : List String) : DiskNode → List (List String × DiskNode)
  | .folder members => listAll ignored above members
  | .file _ _ => []
  | .link _ => []

/-- The members of a folder that are not ignored, each followed by what is below it. -/
def listAll (ignored above : List String) :
    List (String × DiskNode) → List (List String × DiskNode)
  | [] => []
  | (name, node) :: rest =>
    if ignored.contains name then listAll ignored above rest
    else
      (above ++ [name], node) :: list ignored (above ++ [name]) node ++
        listAll ignored above rest

end

end DiskNode

/-- The path from which a file of the host application is read. -/
def hostPath (vault : Vault) (settings : Settings) (name : String) : String :=
  joinPath (joinPath vault.rootPath settings.hostFolder) name

namespace Snapshot

/-- A file or folder that has been read: the step that adds it, and the links of its text. -/
structure LoadedEntry where
  path : String
  step : BuildStep
  links : List String

/-- Whether a path is that of a note. -/
def isNotePath (path : String) : Bool :=
  (stripSuffix? ['.', 'm', 'd'] (lowercaseChars path.toList)).isSome

/-- A time of the file system; times before 1970 are not known. -/
def fileTime? (ms : Int64) : Option Int64 := if 0 ≤ ms.toInt then some ms else none

/-- Reads a file. A note that is no text counts as a file of another kind. -/
def loadFile (path : String) (bytes : ByteArray) (modified : Int64) : LoadedEntry :=
  let stat : FileStat := ⟨bytes.size, none, fileTime? modified⟩
  match if isNotePath path then String.fromUTF8? bytes else none with
  | some text =>
    let note := Note.parse text
    ⟨path, .note path stat ⟨note.tags, note.frontmatter⟩, note.links⟩
  | none => ⟨path, .file path stat, []⟩

/-- Reads what names lead to; links of the file system are passed over. -/
def loadEntry? (names : List String) : DiskNode → Option LoadedEntry
  | .folder _ => let path := joinWith "/" names; some ⟨path, .folder path, []⟩
  | .file bytes modified => some (loadFile (joinWith "/" names) bytes modified)
  | .link _ => none

/-- The links of what has been read that lead to files. -/
def linkSteps (files : List String) (loaded : List LoadedEntry) : List BuildStep :=
  let resolver := LinkResolver.ofPaths files
  loaded.flatMap fun entry =>
    entry.links.filterMap fun link =>
      (resolver.resolve? link entry.path).map (BuildStep.link entry.path)

/-- Reads a file of the host application; a file that cannot be read counts as empty. -/
def hostText (disk : DiskNode) (vault : Vault) (settings : Settings) (name : String) : String :=
  (disk.readText (hostPath vault settings name)).toOption.getD ""

/-- The steps that build the snapshot of a vault on a disk. -/
def loadSteps (disk : DiskNode) (vault : Vault) (settings : Settings) : List BuildStep :=
  let nodes := ((disk.at? vault.root).map (DiskNode.list settings.ignoredNames [])).getD []
  let loaded := nodes.filterMap fun (names, node) => loadEntry? names node
  let entrySteps := loaded.map LoadedEntry.step
  let files := (ofSteps entrySteps).files.map Prod.fst
  entrySteps ++ linkSteps files loaded ++
    (bookmarkedPaths (hostText disk vault settings "bookmarks.json")).map .bookmark ++
    (lastOpenedPaths (hostText disk vault settings "workspace.json")).map .opened

/-- Reads a vault from a disk. -/
def load (disk : DiskNode) (vault : Vault) (settings : Settings) : Snapshot :=
  ofSteps (loadSteps disk vault settings)

end Snapshot

end NoteVault
