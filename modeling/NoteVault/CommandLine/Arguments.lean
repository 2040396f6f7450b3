import NoteVault.Query.Sort
import NoteVault.Tag.Summary
import NoteVault.Text.Number

/-!
The words of a command line: options for all commands, a command, and its own options and texts.
Words are read from left to right, and the first one that is wrong, or that asks for help or for
the version, decides.
-/

namespace NoteVault.CommandLine

open Text Query

/-- Why a command line starts no command. -/
inductive Stop where
  /-- The words are wrong. -/
  | usage
  | help
  | version
  deriving DecidableEq, Repr

/-- An option: its name, and which values it takes, if it takes one. -/
structure Opt where
  name : String
  value? : Option (String → Bool)

namespace Opt

/-- An option without a value. -/
def flag (name : String) : Opt := ⟨name, none⟩

/-- An option with any value. -/
def text (name : String) : Opt := ⟨name, some fun _ => true⟩

/-- An option with a path. -/
def path (name : String) : Opt := ⟨name, some fun value => value ≠ ""⟩

/-- An option with one of several words. -/
def choice (name : String) (words : List String) : Opt := ⟨name, some words.contains⟩

/-- The number that a value writes. -/
def number? (value : String) : Option Nat := unsigned? largest64 value.toList

/-- An option with a number. -/
def number (name : String) : Opt := ⟨name, some fun value => (number? value).isSome⟩

end Opt

/-- The words of a command: its options with their values, and its other words. -/
structure Given where
  options : List (String × String)
  words : List String
  deriving DecidableEq, Repr

namespace Given

/-- Nothing yet. -/
def empty : Given := ⟨[], []⟩

/-- The value of an option. -/
def value? (g : Given) (name : String) : Option String := g.options.lookup name

/-- Whether an option is given. -/
def has (g : Given) (name : String) : Bool := (g.value? name).isSome

/-- The number of an option. -/
def number? (g : Given) (name : String) : Option Nat := (g.value? name).bind Opt.number?

/-- Adds an option, which may be given only once, with a value that it takes. -/
def addOption (g : Given) (opt : Opt) (value : String) : Except Stop Given :=
  if g.has opt.name then .error .usage
  else if opt.value?.all (· value) then .ok { g with options := (opt.name, value) :: g.options }
  else .error .usage

/-- Adds another word. -/
def addWord (g : Given) (word : String) : Given := { g with words := g.words ++ [word] }

end Given

/-- What a word of a command line is. -/
inductive Word where
  /-- The mark behind which no options follow. -/
  | noMoreOptions
  /-- An option by its name, with a value if one follows an equals sign. -/
  | option (name : String) (value : Option String)
  /-- An option of one letter. -/
  | letter (c : Char)
  | plain
  deriving DecidableEq, Repr

/-- What a word is. -/
def Word.ofText (word : String) : Word :=
  match word.toList with
  | ['-', '-'] => .noMoreOptions
  | '-' :: '-' :: cs =>
    match cutFirst '=' cs with
    | some (name, value) => .option (String.ofList name) (some (String.ofList value))
    | none => .option (String.ofList cs) none
  | '-' :: c :: _ => .letter c
  | _ => .plain

/-- A stretch of a command line: the options that it knows, and whether it stands before the
command, where the first plain word is the command and the version can be asked for. -/
structure Level where
  options : List Opt
  beforeCommand : Bool

namespace Level

/-- The option with a name. -/
def opt? (level : Level) (name : String) : Option Opt :=
  level.options.find? fun opt => opt.name == name

/-- Takes in all words as plain ones. -/
def readPlain (level : Level) (given : Given) (words : List String) :
    Except Stop (Given × List String) :=
  if level.beforeCommand && !words.isEmpty then .error .usage
  else .ok (words.foldl Given.addWord given, [])

/-- Reads the words of a level; before a command, the words from the command on are left. -/
def read (level : Level) (given : Given) : List String → Except Stop (Given × List String)
  | [] => .ok (given, [])
  | word :: words =>
    match Word.ofText word with
    | .noMoreOptions => level.readPlain given words
    | .letter 'h' => .error .help
    | .letter 'V' => .error (if level.beforeCommand then .version else .usage)
    | .letter _ => .error .usage
    | .plain =>
      if level.beforeCommand then .ok (given, word :: words)
      else level.read (given.addWord word) words
    | .option "help" none => .error .help
    | .option name value =>
      match level.opt? name, value with
      | some opt, some v =>
        if opt.value?.isNone then .error .usage
        else
          match given.addOption opt v with
          | .ok given => level.read given words
          | .error stop => .error stop
      | some opt, none =>
        if opt.value?.isNone then
          match given.addOption opt "" with
          | .ok given => level.read given words
          | .error stop => .error stop
        else
          match words with
          | [] => .error .usage
          | v :: words =>
            if Word.ofText v = .plain then
              match given.addOption opt v with
              | .ok given => level.read given words
              | .error stop => .error stop
            else .error .usage
      | none, none =>
        .error (if level.beforeCommand && name == "version" then .version else .usage)
      | none, some _ => .error .usage

end Level

/-- What a search is asked for. -/
structure SearchOptions where
  query : String
  column : Option SortColumn
  dir : Option SortDir
  page : Nat
  perPage : Option Nat
  json : Bool
  deriving DecidableEq, Repr

/-- A command. -/
inductive Command where
  | dashboard
  | search (options : SearchOptions)
  | tags (query : String) (order : Tag.Order)
  | suggest (query : String) (cursor : Option Nat)
  | links (path : String)
  | saved (filter : String) (run : Option String)
  deriving DecidableEq, Repr

/-- A command with the paths of a vault and of its settings. -/
structure Invocation where
  vault : Option String
  settings : Option String
  command : Command
  deriving DecidableEq, Repr

/-- The options that stand before a command and behind it. -/
def sharedOptions : List Opt := [.path "vault", .path "config"]

/-- The columns by the names that the command line knows. -/
def sortNames : List String :=
  ["name", "ext", "path", "size", "modified", "backlinks", "outgoing"]

/-- The options of a command. -/
def commandOptions? (name : String) : Option (List Opt) :=
  match name with
  | "dashboard" => some []
  | "search" =>
    some [.choice "sort" sortNames, .flag "asc", .flag "desc", .number "page",
      .number "per-page", .flag "json"]
  | "tags" => some [.choice "by" ["name", "count"]]
  | "suggest" => some [.number "cursor"]
  | "links" => some []
  | "saved" => some [.text "filter", .text "run"]
  | _ => none

/-- The direction that a search is asked for; both at once are none. -/
def direction? (given : Given) : Except Stop (Option SortDir) :=
  match given.has "asc", given.has "desc" with
  | true, true => .error .usage
  | true, false => .ok (some .asc)
  | false, true => .ok (some .desc)
  | false, false => .ok none

/-- The command with a name and its words. -/
def commandOf (name : String) (given : Given) : Except Stop Command :=
  match name, given.words with
  | "dashboard", [] => .ok .dashboard
  | "search", words =>
    match direction? given with
    | .error stop => .error stop
    | .ok dir =>
      .ok (.search
        { query := joinWith " " words
          column := (given.value? "sort").bind SortColumn.named?
          dir
          page := (given.number? "page").getD 1
          perPage := given.number? "per-page"
          json := given.has "json" })
  | "tags", words =>
    .ok (.tags (joinWith " " words) (((given.value? "by").bind Tag.Order.named?).getD .name))
  | "suggest", [query] => .ok (.suggest query (given.number? "cursor"))
  | "links", [path] => .ok (.links path)
  | "saved", [] => .ok (.saved ((given.value? "filter").getD "") (given.value? "run"))
  | _, _ => .error .usage

/-- Whether help can be had on the command that some words lead to; no words stand for the whole
program. -/
def helpReaches : List String → Bool
  | [] => true
  | [name] => name == "help" || (commandOptions? name).isSome
  | _ => false

/-- Reads a command line. Behind the command, an option for all commands replaces the same option
before it. -/
def parse (words : List String) : Except Stop Invocation := do
  let (before, rest) ← Level.read ⟨sharedOptions, true⟩ .empty words
  match rest with
  | [] => .error .usage
  | "help" :: names => .error (if helpReaches names then .help else .usage)
  | name :: words =>
    match commandOptions? name with
    | none => .error .usage
    | some options =>
      let (given, _) ← Level.read ⟨sharedOptions ++ options, false⟩ .empty words
      let command ← commandOf name given
      return ⟨(given.value? "vault").or (before.value? "vault"),
        (given.value? "config").or (before.value? "config"), command⟩

end NoteVault.CommandLine
