import NoteVault.Calendar.Format
import NoteVault.Exclusion
import NoteVault.Toml.Parser

/-!
Settings of a vault. What the text of the settings leaves out has a default; a value of the wrong
kind makes the whole text unusable, and settings that are not known are passed over.
-/

namespace NoteVault

open Text Unicode Calendar

/-- A query that has been saved. -/
structure SavedSearch where
  id : String
  query : String
  description : String
  deriving DecidableEq, Repr

/-- The settings of a vault. -/
structure Settings where
  /-- The hidden extensions, with commas between them. -/
  excludedExtensions : String
  /-- The hidden beginnings of paths, with commas between them. -/
  excludedFolders : String
  dateFormat : String
  filesPerPage : Nat
  /-- The number of files in each list of an overview. -/
  recentFiles : Nat
  /-- How long a query that is being typed has to rest before it runs, in milliseconds. -/
  queryDebounce : Nat
  /-- How long a vault that is being changed has to rest before it is read, in milliseconds. -/
  watchDebounce : Nat
  /-- The names of the files and folders that are never read. -/
  ignoredNames : List String
  /-- The folder of the host application. -/
  hostFolder : String
  savedSearches : List SavedSearch
  deriving DecidableEq, Repr

namespace Settings

/-- The settings of a vault that says nothing else. -/
def default : Settings where
  excludedExtensions := ""
  excludedFolders := ""
  dateFormat := defaultDateFormat
  filesPerPage := 20
  recentFiles := 5
  queryDebounce := 300
  watchDebounce := 400
  ignoredNames := [".obsidian", ".git", ".trash"]
  hostFolder := ".obsidian"
  savedSearches := []

/-- The text of a string. -/
def text? : Toml.Value → Option String
  | .string s => some s
  | _ => none

/-- The number that an integer writes, if it is not negative. -/
def natural? : Toml.Value → Option Nat
  | .integer n => if 0 ≤ n then some n.toNat else none
  | _ => none

/-- The texts of an array of strings. -/
def texts? : Toml.Value → Option (List String)
  | .array items => items.mapM text?
  | _ => none

/-- A search that has been saved, as a table of its fields or as an array of them. -/
def savedSearch? : Toml.Value → Option SavedSearch
  | .table entries => do
    let id ← text? (← entries.lookup "id")
    let query ← text? (← entries.lookup "query")
    match entries.lookup "description" with
    | some v => return ⟨id, query, ← text? v⟩
    | none => return ⟨id, query, ""⟩
  | .array [id, query] => do return ⟨← text? id, ← text? query, ""⟩
  | .array (id :: query :: description :: _) => do
    return ⟨← text? id, ← text? query, ← text? description⟩
  | _ => none

/-- The searches that have been saved. -/
def savedSearches? : Toml.Value → Option (List SavedSearch)
  | .array items => items.mapM savedSearch?
  | _ => none

/-- The value of a setting, or its default where it is left out. -/
def field? {α : Type} (entries : List (String × Toml.Value)) (name : String)
    (read : Toml.Value → Option α) (otherwise : α) : Option α :=
  match entries.lookup name with
  | some v => read v
  | none => some otherwise

/-- The settings in a table. -/
def ofTable? (entries : List (String × Toml.Value)) : Option Settings := do
  return {
    excludedExtensions := ← field? entries "excluded_ext" text? default.excludedExtensions
    excludedFolders := ← field? entries "excluded_path" text? default.excludedFolders
    dateFormat := ← field? entries "date_format" text? default.dateFormat
    filesPerPage := ← field? entries "files_per_page" natural? default.filesPerPage
    recentFiles := ← field? entries "num_recent_files" natural? default.recentFiles
    queryDebounce := ← field? entries "query_debounce_ms" natural? default.queryDebounce
    watchDebounce := ← field? entries "watch_debounce_ms" natural? default.watchDebounce
    ignoredNames := ← field? entries "ignore_dirs" texts? default.ignoredNames
    hostFolder := ← field? entries "config_dir" text? default.hostFolder
    savedSearches := ← field? entries "saved_searches" savedSearches? default.savedSearches }

/-- Reads settings. -/
def parse? (text : String) : Option Settings := do ofTable? (← Toml.parse? text)

/-- The place of the settings in a vault. -/
def defaultPlace : String := ".obsidian/vault-navigator/config.toml"

/-- The extensions in a text with commas between them, in their bare form. -/
def extensionsIn (raw : String) : List String :=
  (((pieces ',' raw.toList).map Exclusion.bareExtension).filter fun e => !e.isEmpty).map
    String.ofList

/-- Drops every pair of dots, and a slash at the end. -/
def dropDotPairs : List Char → List Char
  | [] => []
  | ['/'] => []
  | '.' :: '.' :: cs => dropDotPairs cs
  | c :: cs => c :: dropDotPairs cs

/-- The beginning of a path without pairs of dots, and without slashes at its ends. -/
def bareFolder (folder : List Char) : List Char :=
  match trim folder with
  | '/' :: cs => dropDotPairs cs
  | cs => dropDotPairs cs

/-- The beginnings of paths in a text with commas between them, in their bare form. -/
def foldersIn (raw : String) : List String :=
  (((pieces ',' raw.toList).map bareFolder).filter fun f => !f.isEmpty).map String.ofList

/-- The rules that hide files. -/
def exclusion (s : Settings) : Exclusion :=
  .ofLists (extensionsIn s.excludedExtensions) (foldersIn s.excludedFolders)

/-- Whether a text holds a word in lower case; case does not count. -/
def mentions (needle : List Char) (text : String) : Bool :=
  containsText needle (lowercaseChars text.toList)

/-- The saved searches whose query or description holds a word. -/
def savedSearchesMatching (s : Settings) (needle : String) : List SavedSearch :=
  let needle := lowercaseChars (trim needle.toList)
  s.savedSearches.filter fun search =>
    needle.isEmpty || mentions needle search.query || mentions needle search.description

end Settings

end NoteVault
