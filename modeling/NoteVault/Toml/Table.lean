/-!
Tables of settings while they are being read. A table remembers how it came into being, because
that decides what may still be added to it: a table that a header names cannot be named again, and
dotted keys reach only into tables made by dotted keys.
-/

namespace NoteVault.Toml

/-- A value. Dates and times are kept without their fields. -/
inductive Value where
  | string (text : String)
  | integer (n : Int)
  | float
  | boolean (b : Bool)
  | moment
  | array (items : List Value)
  | table (entries : List (String × Value))

/-- What a table holds for a key while the text is being read. -/
inductive Item where
  | value (v : Value)
  /-- A table; `implicit` tells that it has only been passed through so far, and `dotted` that
  dotted keys have made it. -/
  | table (implicit dotted : Bool) (entries : List (String × Item))
  /-- Tables that share one name, in the order of their headers. -/
  | tables (all : List (List (String × Item)))

/-- The entries of a table. -/
abbrev Entries := List (String × Item)

/-- Replaces what entries hold for a key that they have. -/
def setEntry (key : String) (item : Item) (entries : Entries) : Entries :=
  entries.map fun e => if e.1 = key then (key, item) else e

/-- Splits off the last element of a list. -/
def splitLast? {α : Type} : List α → Option (List α × α)
  | [] => none
  | [a] => some ([], a)
  | a :: as => (splitLast? as).map fun (front, last) => (a :: front, last)

/-- Adds a value under a dotted key: through the tables of `path`, and there under `key`. -/
def addDotted? : List String → String → Value → Entries → Option Entries
  | [], key, v, entries =>
    if (entries.lookup key).isSome then none else some (entries ++ [(key, .value v)])
  | p :: path, key, v, entries =>
    match entries.lookup p with
    | none => (addDotted? path key v []).map fun sub => entries ++ [(p, .table true true sub)]
    | some (.table implicit dotted sub) =>
      if !implicit || (path.isEmpty && !dotted) then none
      else
        (addDotted? path key v sub).map fun sub => setEntry p (.table implicit dotted sub) entries
    | some (.tables all) =>
      if path.isEmpty then none
      else
        match splitLast? all with
        | none => none
        | some (front, last) =>
          (addDotted? path key v last).map fun last =>
            setEntry p (.tables (front ++ [last])) entries
    | some (.value _) => none

/-- Changes the table at a path of names; of tables that share a name, the last one is meant. -/
def changeAt? (f : Entries → Option Entries) : List String → Entries → Option Entries
  | [], entries => f entries
  | p :: path, entries =>
    match entries.lookup p with
    | none => (changeAt? f path []).map fun sub => entries ++ [(p, .table true false sub)]
    | some (.table implicit dotted sub) =>
      (changeAt? f path sub).map fun sub => setEntry p (.table implicit dotted sub) entries
    | some (.tables all) =>
      match splitLast? all with
      | none => none
      | some (front, last) =>
        (changeAt? f path last).map fun last => setEntry p (.tables (front ++ [last])) entries
    | some (.value _) => none

/-- Makes a table at a key. A table that has only been passed through so far is opened with what
it holds already. -/
def openTable? (key : String) (fill : Entries → Option Entries) (entries : Entries) :
    Option Entries :=
  match entries.lookup key with
  | none => (fill []).map fun sub => entries ++ [(key, .table false false sub)]
  | some (.table true false sub) =>
    (fill sub).map fun sub => setEntry key (.table false false sub) entries
  | _ => none

/-- Adds a table to those that share a key. -/
def appendTable? (key : String) (fill : Entries → Option Entries) (entries : Entries) :
    Option Entries :=
  match entries.lookup key with
  | none => (fill []).map fun sub => entries ++ [(key, .tables [sub])]
  | some (.tables all) => (fill []).map fun sub => setEntry key (.tables (all ++ [sub])) entries
  | _ => none

mutual

/-- An item as a value. -/
def Item.toValue : Item → Value
  | .value v => v
  | .table _ _ entries => .table (Item.entryValues entries)
  | .tables all => .array (Item.tableValues all)

/-- Entries as values. -/
def Item.entryValues : List (String × Item) → List (String × Value)
  | [] => []
  | (k, i) :: rest => (k, i.toValue) :: Item.entryValues rest

/-- Tables that share a name, as values. -/
def Item.tableValues : List (List (String × Item)) → List Value
  | [] => []
  | entries :: rest => .table (Item.entryValues entries) :: Item.tableValues rest

end

end NoteVault.Toml
