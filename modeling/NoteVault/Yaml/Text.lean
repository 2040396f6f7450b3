import NoteVault.Json.Value
import NoteVault.Yaml.Value

/-!
Values of documents as text: the form in which properties are shown, and JSON for mappings.
-/

namespace NoteVault.Yaml

open Text

/-- A number in JSON. -/
def Number.jsonChars : Number → List Char
  | .integer n => Json.integerChars n
  | .float x => Json.floatChars x

/-- A key of a mapping in JSON. Keys that are neither texts nor truth values nor finite numbers
have no such form. -/
def jsonKey? : Value → Option (List Char)
  | .string s => some (Json.quote s.toList)
  | .bool b => some (Json.quote (if b then "true" else "false").toList)
  | .number (.integer n) => some (Json.quote (Json.integerChars n))
  | .number (.float x) => if x.isFinite then some (Json.quote (Json.floatChars x)) else none
  | _ => none

mutual

/-- A value in JSON, if it has such a form. -/
def Value.json? : Value → Option (List Char)
  | .null => some "null".toList
  | .bool b => some (if b then "true" else "false").toList
  | .number n => some n.jsonChars
  | .string s => some (Json.quote s.toList)
  | .sequence items =>
    (Value.jsonItems? items).map fun ts => '[' :: Json.commaJoined ts ++ [']']
  | .mapping entries =>
    (Value.jsonEntries? entries).map fun ts => '\x7b' :: Json.commaJoined ts ++ ['\x7d']
  | .tagged tag v =>
    (Value.json? v).map fun t =>
      '\x7b' :: Json.quote ('!' :: tag.toList) ++ ':' :: t ++ ['\x7d']

/-- Values in JSON. -/
def Value.jsonItems? : List Value → Option (List (List Char))
  | [] => some []
  | v :: vs =>
    match Value.json? v, Value.jsonItems? vs with
    | some t, some ts => some (t :: ts)
    | _, _ => none

/-- Entries of a mapping in JSON. -/
def Value.jsonEntries? : List (Value × Value) → Option (List (List Char))
  | [] => some []
  | (k, v) :: es =>
    match jsonKey? k, Value.json? v, Value.jsonEntries? es with
    | some key, some t, some ts => some ((key ++ ':' :: t) :: ts)
    | _, _, _ => none

end

mutual

/-- A value as it is shown. A mapping is shown in JSON, or as nothing where it has no such form. -/
def Value.display : Value → List Char
  | .null => []
  | .bool b => (if b then "true" else "false").toList
  | .number n => n.text.toList
  | .string s => s.toList
  | .sequence items => Json.commaJoined (Value.displayItems items)
  | .mapping entries => (Value.json? (.mapping entries)).getD []
  | .tagged _ v => v.display

/-- The items of a sequence as they are shown. -/
def Value.displayItems : List Value → List (List Char)
  | [] => []
  | v :: vs => v.display :: Value.displayItems vs

end

end NoteVault.Yaml
