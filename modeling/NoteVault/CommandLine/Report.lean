import NoteVault.Json.Value
import NoteVault.Service
import NoteVault.Text.Quoted

/-!
What the command line prints: lines of text, or one value in JSON.
-/

namespace NoteVault

open Text

/-- A fault in words. -/
def Fault.message : Fault → String
  | .vaultNotFound path => "vault root does not exist: " ++ path
  | .invalidVaultPath fault => "invalid vault path: " ++ fault.message
  | .outsideVault path => "path is outside vault: " ++ path
  | .unreadable path fault => "io error at " ++ path ++ ": " ++ fault.message
  | .badSettings => "config toml parse error: the settings cannot be read"
  | .invalidPageSize => "page size must be greater than zero"
  | .unknownSortColumn name => "unknown sort column: " ++ name
  | .unknownTagOrder name => "unknown tag order: " ++ name
  | .noSavedSearch id => "no saved search with id " ++ quoted id
  | .noVault => "--vault is required (or set OBSIDIAN_VAULT)"

namespace CommandLine

open Calendar Query

/-- Lines of text, each with its end. -/
def linesText (lines : List String) : String := joinWith "" (lines.map (· ++ "\n"))

/-- A number as text. -/
def numberText (n : Nat) : String := String.ofList (decimal n)

/-- When a file was modified, or nothing where that is not known. -/
def modifiedText (format : DateFormat) (file : FileRecord) : String :=
  ((file.modified.map Int64.toInt).bind format.write?).getD ""

/-- A file in a list. -/
def listLine (file : FileRecord) : String := "- " ++ file.path

/-- The lines of an overview; lists without files are left out. -/
def dashboardLines (format : DateFormat) (overview : Dashboard) : List String :=
  "vault" ::
    overview.counts.map (fun (label, count) => "  " ++ label ++ ": " ++ numberText count) ++
    (overview.sections.filter fun (_, files) => !files.isEmpty).flatMap fun (title, files) =>
      ("\n" ++ title ++ ":") ::
        files.map fun file => listLine file ++ "\t" ++ modifiedText format file

/-- The line above the results of a query. -/
def resultHeader (state : State) (result : Result) : String :=
  numberText result.page.totalItems ++ " files, sorted by " ++ state.sort.column.label ++ " " ++
    state.sort.dir.label ++ if result.label = "" then "" else " [" ++ result.label ++ "]"

/-- The lines of the results of a query. -/
def resultLines (format : DateFormat) (state : State) (result : Result) : List String :=
  resultHeader state result ::
    result.page.items.map (fun file =>
      file.path ++ "\t" ++ fileSizeText file.size ++ "\t" ++ modifiedText format file) ++
    if 1 < result.page.totalPages then
      ["page " ++ numberText result.page.number ++ "/" ++ numberText result.page.totalPages]
    else []

/-- A file of the results in JSON. -/
def fileJson (links : LinkGraph) (file : FileRecord) : Json.Value :=
  .object [
    ("backlinks", .integer (links.backlinkCount file.path)),
    ("category", .string file.category.name),
    ("modified_ms", (file.modified.map fun ms => Json.Value.integer ms.toInt).getD .null),
    ("outgoing", .integer (links.outgoingCount file.path)),
    ("path", .string file.path),
    ("size", .integer file.size),
    ("tags", .array (file.displayTags.map .string))]

/-- The results of a query in JSON. -/
def resultJson (links : LinkGraph) (state : State) (result : Result) : Json.Value :=
  .object [
    ("date_label", .string result.label),
    ("files", .array (result.page.items.map (fileJson links))),
    ("page", .integer result.page.number),
    ("query", .string state.raw),
    ("sort", .object [
      ("asc", .bool (state.sort.dir == .asc)),
      ("column", .string state.sort.column.label)]),
    ("total_items", .integer result.page.totalItems),
    ("total_pages", .integer result.page.totalPages)]

/-- The lines of a list of tags. -/
def summaryLines (counts : List Tag.Count) : List String :=
  counts.map fun row => numberText row.count ++ "\t" ++ row.tag

/-- The lines of a search by tags. -/
def tagSearchLines (found : Tag.Search) : List String :=
  if found.wanted.primary.isEmpty then ["(no tags to search for)"]
  else
    (joinWith " " found.wanted.primary ++ ": " ++ numberText found.matched.length ++ " files") ::
      found.matched.map listLine ++
      found.groups.flatMap fun group =>
        ("\n" ++ group.tag ++ " (" ++ numberText group.files.length ++ ")") ::
          group.files.map listLine

/-- The line of a saved search. -/
def savedLine (search : SavedSearch) : String :=
  search.id ++ "\t" ++ search.query ++ "\t" ++ search.description

end CommandLine

end NoteVault
