import NoteVault.Toml.Scalar

/-!
Reading settings: lines of keys with values, under headers that name tables.
-/

namespace NoteVault.Toml

open Text

/-- Whether a character may stand in a key without quotes. -/
def isBareChar (c : Char) : Bool := c.isAlphanum || c == '_' || c == '-'

/-- Reads one part of a key. -/
def readKeyPart? : List Char → Option (String × List Char)
  | '"' :: cs => (readLine? '"' (cs.length + 1) cs).map fun (k, rest) => (String.ofList k, rest)
  | '\'' :: cs => (readLine? '\'' (cs.length + 1) cs).map fun (k, rest) => (String.ofList k, rest)
  | cs =>
    let name := cs.takeWhile isBareChar
    if name.isEmpty then none else some (String.ofList name, cs.dropWhile isBareChar)

/-- Reads a key: parts with dots between them; `fuel` bounds their number. -/
def readKey? : Nat → List Char → Option (List String × List Char)
  | 0, _ => none
  | fuel + 1, cs => do
    let (part, rest) ← readKeyPart? (skipBlanks cs)
    match skipBlanks rest with
    | '.' :: more =>
      let (parts, rest) ← readKey? fuel more
      return (part :: parts, rest)
    | rest => return ([part], rest)

/-- Drops a comment. -/
def skipComment? : List Char → Option (List Char)
  | '#' :: cs =>
    match cs.dropWhile isPlain with
    | [] => some []
    | rest => (newline? rest).map fun _ => rest
  | cs => some cs

/-- Drops blanks, line breaks and comments; `fuel` bounds the number of lines. -/
def skipFiller? : Nat → List Char → Option (List Char)
  | 0, _ => none
  | fuel + 1, cs =>
    match skipComment? (skipBlanks cs) with
    | none => none
    | some rest =>
      match newline? rest with
      | some rest => skipFiller? fuel rest
      | none => some rest

/-- The greatest depth of arrays and tables inside each other. -/
def greatestDepth : Nat := 80

mutual

/-- Reads a value inside a number of arrays and tables; `fuel` bounds the number of values. -/
def readValue? : Nat → Nat → List Char → Option (Value × List Char)
  | 0, _, _ => none
  | fuel + 1, depth, cs =>
    match cs with
    | '"' :: rest =>
      (readString? '"' rest).map fun (s, rest) => (.string (String.ofList s), rest)
    | '\'' :: rest =>
      (readString? '\'' rest).map fun (s, rest) => (.string (String.ofList s), rest)
    | 't' :: 'r' :: 'u' :: 'e' :: rest => some (.boolean true, rest)
    | 'f' :: 'a' :: 'l' :: 's' :: 'e' :: rest => some (.boolean false, rest)
    | '[' :: rest =>
      if greatestDepth ≤ depth + 1 then none
      else (readItems? fuel (depth + 1) rest).map fun (items, rest) => (.array items, rest)
    | '\x7b' :: rest =>
      if greatestDepth ≤ depth + 1 then none
      else
        match skipBlanks rest with
        | '\x7d' :: rest => some (.table [], rest)
        | _ =>
          (readPairs? fuel (depth + 1) [] rest).map fun (entries, rest) =>
            (.table (Item.entryValues entries), rest)
    | _ => readNumeric? cs

/-- Reads the items of an array up to its end. -/
def readItems? : Nat → Nat → List Char → Option (List Value × List Char)
  | 0, _, _ => none
  | fuel + 1, depth, cs =>
    match skipFiller? (cs.length + 1) cs with
    | none => none
    | some (']' :: rest) => some ([], rest)
    | some start =>
      match readValue? fuel depth start with
      | none => none
      | some (v, rest) =>
        match skipFiller? (rest.length + 1) rest with
        | some (',' :: rest) => (readItems? fuel depth rest).map fun (vs, rest) => (v :: vs, rest)
        | some (']' :: rest) => some ([v], rest)
        | _ => none

/-- Reads the pairs of a table in braces up to its end. -/
def readPairs? : Nat → Nat → Entries → List Char → Option (Entries × List Char)
  | 0, _, _, _ => none
  | fuel + 1, depth, entries, cs =>
    match readKey? (cs.length + 1) cs with
    | some (keys, '=' :: rest) =>
      match splitLast? keys, readValue? fuel depth (skipBlanks rest) with
      | some (path, key), some (v, rest) =>
        match addDotted? path key v entries with
        | none => none
        | some entries =>
          match skipBlanks rest with
          | ',' :: rest => readPairs? fuel depth entries rest
          | '\x7d' :: rest => some (entries, rest)
          | _ => none
      | _, _ => none
    | _ => none

end

/-- Goes to the next line; nothing but a comment may be left on this one. -/
def endLine? (cs : List Char) : Option (List Char) :=
  match skipComment? (skipBlanks cs) with
  | none => none
  | some [] => some []
  | some rest => newline? rest

/-- A table that is being filled: its keys, and whether it is one of several with one name. -/
structure Header where
  path : List String
  repeated : Bool

/-- The tables that have been finished and the one that is being filled. -/
structure Draft where
  root : Entries
  header : Header
  current : Entries

/-- Puts a table at the place that its header names. -/
def placeAt? (h : Header) (fill : Entries → Option Entries) (root : Entries) : Option Entries :=
  match splitLast? h.path with
  | none => fill root
  | some (path, key) =>
    changeAt? (if h.repeated then appendTable? key fill else openTable? key fill) path root

/-- What a table at a path and a key holds; nothing if it is not there. -/
def contentAt (key : String) : List String → Entries → Entries
  | [], entries =>
    match entries.lookup key with
    | some (.table _ _ sub) => sub
    | _ => []
  | p :: path, entries =>
    match entries.lookup p with
    | some (.table _ _ sub) => contentAt key path sub
    | some (.tables all) => contentAt key path (all.getLast?.getD [])
    | _ => []

/-- What the table at a header holds when it is opened. -/
def openedAt? (h : Header) (root : Entries) : Option Entries :=
  match splitLast? h.path with
  | none => some root
  | some (path, key) =>
    (placeAt? h some root).map fun _ => if h.repeated then [] else contentAt key path root

/-- Finishes the table that is being filled. -/
def Draft.finish? (d : Draft) : Option Entries := placeAt? d.header (fun _ => some d.current) d.root

/-- Begins the table of a header. -/
def Draft.begin? (d : Draft) (h : Header) : Option Draft := do
  let root ← d.finish?
  return ⟨root, h, ← openedAt? h root⟩

/-- Reads a header behind its first bracket. -/
def readHeader? (cs : List Char) : Option (Header × List Char) :=
  match cs with
  | '[' :: rest =>
    match readKey? (rest.length + 1) rest with
    | some (path, ']' :: ']' :: rest) => some (⟨path, true⟩, rest)
    | _ => none
  | _ =>
    match readKey? (cs.length + 1) cs with
    | some (path, ']' :: rest) => some (⟨path, false⟩, rest)
    | _ => none

/-- Reads a key with its value. -/
def readPair? (d : Draft) (cs : List Char) : Option (Draft × List Char) :=
  match readKey? (cs.length + 1) cs with
  | some (keys, '=' :: rest) => do
    let (path, key) ← splitLast? keys
    let (v, rest) ← readValue? (2 * rest.length + 2) 0 (skipBlanks rest)
    return ({ d with current := ← addDotted? path key v d.current }, rest)
  | _ => none

/-- Reads lines to the end; `fuel` bounds their number. -/
def readAll? : Nat → Draft → List Char → Option Draft
  | 0, _, _ => none
  | fuel + 1, d, cs =>
    match skipFiller? (cs.length + 1) cs with
    | none => none
    | some [] => some d
    | some ('[' :: rest) =>
      match readHeader? rest with
      | none => none
      | some (h, rest) =>
        match d.begin? h, endLine? rest with
        | some d, some rest => readAll? fuel d rest
        | _, _ => none
    | some start =>
      match readPair? d start with
      | none => none
      | some (d, rest) =>
        match endLine? rest with
        | some rest => readAll? fuel d rest
        | none => none

/-- The settings that a text holds; a byte order mark in front is skipped. -/
def parse? (text : String) : Option (List (String × Value)) := do
  let cs := match text.toList with
    | c :: cs => if c.toNat = 0xfeff then cs else c :: cs
    | [] => []
  let d ← readAll? (cs.length + 1) ⟨[], ⟨[], false⟩, []⟩ cs
  return Item.entryValues (← d.finish?)

end NoteVault.Toml
