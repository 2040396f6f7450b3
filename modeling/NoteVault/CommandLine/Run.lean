import NoteVault.CommandLine.Arguments
import NoteVault.CommandLine.Report
import NoteVault.Tag.Completion

/-!
Running a command line on a disk.
-/

namespace NoteVault.CommandLine

open Text Calendar Query

variable [Collator]

/-- What a command line leaves behind. -/
structure Output where
  code : Nat
  stdout : String
  stderr : String
  deriving DecidableEq, Repr

/-- The name and the version of the program. -/
def versionText : String := "vnav 0.1.0"

/-- How the program is called. -/
def usageText : String :=
  "Usage: vnav [--vault VAULT] [--config CONFIG] dashboard|search|tags|suggest|links|saved"

/-- The state that a search is asked for. -/
def SearchOptions.state (options : SearchOptions) : State :=
  let first := SortState.latestFirst
  ((State.ofText options.query).withSort
    ⟨options.column.getD first.column, options.dir.getD first.dir⟩).withPage options.page

/-- Asks a service for the results of a query. -/
def query (s : Service) (today : Day) (state : State) (pageSize : Option Nat) :
    Except Fault Result :=
  execute state ⟨s.index.2, s.snapshot.links, s.context today⟩
    (pageSize.getD s.settings.filesPerPage)

/-- What a command prints. -/
def commandText (s : Service) (today : Day) (command : Command) : Except Fault String :=
  let index := s.index.2
  let format := DateFormat.ofText s.settings.dateFormat
  match command with
  | .dashboard =>
    .ok (linesText (dashboardLines format
      (.ofIndex index s.snapshot.bookmarks s.snapshot.lastOpened s.settings.recentFiles)))
  | .search options => do
    let state := options.state
    let result ← query s today state options.perPage
    return if options.json then linesText [(resultJson s.snapshot.links state result).pretty]
      else linesText (resultLines format state result)
  | .tags words order =>
    .ok (linesText (if (trim words.toList).isEmpty then summaryLines (Tag.summary index order)
      else tagSearchLines (Tag.search words index.notes)))
  | .suggest text cursor =>
    .ok (linesText (Tag.suggest text (cursor.getD text.utf8ByteSize) index.tagNames))
  | .links path =>
    .ok (linesText ("backlinks:" :: (index.backlinks path s.snapshot.links).map listLine ++
      "outgoing:" :: (index.outgoingLinks path s.snapshot.links).map listLine))
  | .saved filter none =>
    .ok (linesText ((s.settings.savedSearchesMatching filter).map savedLine))
  | .saved filter (some id) =>
    match (s.settings.savedSearchesMatching filter).find? fun search => search.id == id with
    | none => .error (.noSavedSearch id)
    | some search => do
      let state := State.ofText search.query
      let result ← query s today state none
      return linesText (resultLines format state result)

/-- Opens a vault and runs a command on it. The vault of the environment counts where the command
line names none. -/
def runCommand (disk : DiskNode) (today : Day) (environment : Option String)
    (invocation : Invocation) : Except Fault String :=
  match invocation.vault.or environment with
  | none => .error .noVault
  | some path => do
    let s ← Service.openAt disk path invocation.settings
    commandText s today invocation.command

/-- The cause of a fault, below its message. -/
def causeText : Fault → String
  | .unreadable _ fault => "\n\nCaused by:\n    " ++ fault.message
  | _ => ""

/-- Runs a command line. -/
def run (disk : DiskNode) (today : Day) (environment : Option String) (words : List String) :
    Output :=
  match parse words with
  | .error .usage => ⟨2, "", linesText [usageText]⟩
  | .error .help => ⟨0, linesText [usageText], ""⟩
  | .error .version => ⟨0, linesText [versionText], ""⟩
  | .ok invocation =>
    match runCommand disk today environment invocation with
    | .ok text => ⟨0, text, ""⟩
    | .error fault => ⟨1, "", linesText ["Error: " ++ fault.message ++ causeText fault]⟩

end NoteVault.CommandLine
