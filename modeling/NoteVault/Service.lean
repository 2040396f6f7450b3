import NoteVault.Dashboard
import NoteVault.Index.Cache
import NoteVault.Query.State
import NoteVault.Tag.Summary
import NoteVault.Vault.Load
import NoteVault.Vault.Watch

/-!
A vault in use: its settings, the last snapshot and the index kept for it. The disk is read on
opening, on request, and on a change while the vault is watched.
-/

namespace NoteVault

open Calendar Query

/-- A vault in use. -/
structure Service where
  vault : Vault
  settings : Settings
  snapshot : Snapshot
  cache : IndexCache
  /-- Whether changes on the disk are heard of. -/
  watching : Bool
  /-- Whether the service has been told to stop; it does not hear of changes again. -/
  stopped : Bool

namespace Service

variable [Collator]

/-- A service that has read nothing yet. -/
def start (vault : Vault) (settings : Settings) : Service :=
  ⟨vault, settings, .empty, .empty, false, false⟩

/-- Reads the vault, and tells whether the index had to be built anew. -/
def reload (s : Service) (disk : DiskNode) : Service × Bool :=
  let snapshot := Snapshot.load disk s.vault s.settings
  let answer := s.cache.request snapshot s.settings.exclusion
  ({ s with snapshot, cache := answer.cache }, answer.rebuilt)

/-- Reads the settings at a path; where nothing is, the defaults hold. -/
def readSettings (disk : DiskNode) (path : String) : Except Fault Settings :=
  match disk.readText path with
  | .ok text =>
    match Settings.parse? text with
    | some settings => .ok settings
    | none => .error .badSettings
  | .error .missing => .ok .default
  | .error fault => .error (.unreadable path fault)

/-- Opens the vault at a path with the settings at another one, or else at their usual place, and
reads it. -/
def openAt (disk : DiskNode) (path : String) (settingsPath : Option String) :
    Except Fault Service := do
  let vault ← Vault.openAt disk path
  let settings ← readSettings disk
    (settingsPath.getD (joinPath vault.rootPath Settings.defaultPlace))
  return ((start vault settings).reload disk).1

/-- The index of the last snapshot. -/
def index (s : Service) : Service × VaultIndex :=
  let answer := s.cache.request s.snapshot s.settings.exclusion
  ({ s with cache := answer.cache }, answer.index)

/-- What queries read besides the files. -/
def context (s : Service) (today : Day) : Context :=
  ⟨today, .ofText s.settings.dateFormat, s.snapshot.bookmarks⟩

/-- What a service can be asked for. -/
inductive Request where
  | reload
  /-- Runs a query, with pages of the size that the settings give or of another one. -/
  | query (state : State) (pageSize : Option Nat)
  | searchTags (query : String)
  | tagSummary (order : Tag.Order)
  | dashboard
  | backlinks (path : String)
  | outgoing (path : String)
  | saved (filter : String)
  | index

/-- What a service answers. -/
inductive Reply where
  /-- Whether the index had to be built anew. -/
  | reloaded (rebuilt : Bool)
  | result (result : Except Fault Result)
  | tags (found : Tag.Search)
  | summary (counts : List Tag.Count)
  | dashboard (overview : Dashboard)
  | files (files : List FileRecord)
  | saved (searches : List SavedSearch)
  | index (index : VaultIndex)

/-- A service after an answer from its index. -/
def withIndex (s : Service) (reply : VaultIndex → Reply) : Service × Reply :=
  let (s, index) := s.index
  (s, reply index)

/-- Handles a request. Only reading the vault anew looks at the disk. -/
def handle (s : Service) (disk : DiskNode) (today : Day) : Request → Service × Reply
  | .reload =>
    let (s, rebuilt) := s.reload disk
    (s, .reloaded rebuilt)
  | .query state pageSize => s.withIndex fun index =>
    .result (execute state ⟨index, s.snapshot.links, s.context today⟩
      (pageSize.getD s.settings.filesPerPage))
  | .searchTags query => s.withIndex fun index => .tags (Tag.search query index.notes)
  | .tagSummary order => s.withIndex fun index => .summary (Tag.summary index order)
  | .dashboard => s.withIndex fun index =>
    .dashboard (.ofIndex index s.snapshot.bookmarks s.snapshot.lastOpened s.settings.recentFiles)
  | .backlinks path => s.withIndex fun index => .files (index.backlinks path s.snapshot.links)
  | .outgoing path => s.withIndex fun index => .files (index.outgoingLinks path s.snapshot.links)
  | .saved filter => (s, .saved (s.settings.savedSearchesMatching filter))
  | .index => s.withIndex .index

/-- Begins to hear of changes. -/
def startWatching (s : Service) : Service := { s with watching := true }

/-- Stops hearing of changes, for good. -/
def shutdown (s : Service) : Service := { s with watching := false, stopped := true }

/-- Hears of a change on the disk. Where it matters, the vault is read again; then the answer tells
whether the index had to be built anew, and how many entries the snapshot has. -/
def hear (s : Service) (disk : DiskNode) (change : DiskChange) : Service × Option (Bool × Nat) :=
  if s.watching && !s.stopped && change.isRelevant s.vault s.settings then
    let (s, rebuilt) := s.reload disk
    (s, some (rebuilt, s.snapshot.entries.length))
  else (s, none)

end Service

end NoteVault
