import NoteVault.Settings
import NoteVault.Vault.Open

/-!
Which changes on a disk matter to a vault: those of files that are read, and those of the two files
of the host application, even where their folder is ignored.
-/

namespace NoteVault

open Text

/-- A step of a path. -/
inductive PathStep where
  /-- The slash at the beginning. -/
  | root
  /-- A dot at the beginning of a path that is not absolute. -/
  | here
  | up
  | name (s : String)
  deriving DecidableEq, Repr

/-- The steps of a path. -/
def pathSteps (path : List Char) : List PathStep :=
  (match pieces '/' path with
    | [] :: _ :: _ => [.root]
    | ['.'] :: _ => [.here]
    | _ => []) ++
    (segments path).map fun s => if s = ['.', '.'] then .up else .name (String.ofList s)

/-- The rest of a list behind a beginning. -/
def afterSteps? : List PathStep → List PathStep → Option (List PathStep)
  | [], steps => some steps
  | _ :: _, [] => none
  | a :: as, b :: bs => if a = b then afterSteps? as bs else none

/-- The files of the host application that are read. -/
def hostFiles : List String := ["bookmarks.json", "workspace.json"]

/-- Whether a path inside a vault is that of a file of the host application. -/
def isHostFile (path : List Char) (hostFolder : String) : Bool :=
  match afterSteps? (pathSteps hostFolder.toList) (pathSteps path) with
  | some [.name s] => hostFiles.contains s
  | _ => false

/-- The kinds of changes on a disk. -/
inductive ChangeKind where
  | access
  | create
  | content
  | metadata
  | rename
  | remove
  deriving DecidableEq, Repr

/-- Whether a kind of change can alter what is read. -/
def ChangeKind.alters : ChangeKind → Bool
  | .access | .metadata => false
  | .create | .content | .rename | .remove => true

/-- A change on a disk, and the paths that it names. -/
structure DiskChange where
  kind : ChangeKind
  paths : List String
  deriving DecidableEq, Repr

namespace DiskChange

/-- Whether what a vault reads can depend on a path. -/
def isReadPath (vault : Vault) (settings : Settings) (path : String) : Bool :=
  match vault.below? path with
  | none => false
  | some [] => false
  | some rest => !hasSegmentIn settings.ignoredNames rest || isHostFile rest settings.hostFolder

/-- Whether a change matters to a vault. -/
def isRelevant (vault : Vault) (settings : Settings) (change : DiskChange) : Bool :=
  change.kind.alters && change.paths.any (isReadPath vault settings)

end DiskChange

end NoteVault
