import NoteVault.Decimal.FloatText
import NoteVault.Yaml.Event

/-!
Values of documents. A plain scalar is a value of the kind that its text looks like; aliases are
replaced by the values they refer to.
-/

namespace NoteVault.Yaml

open Text Decimal

/-- A number. -/
inductive Number where
  | integer (n : Int)
  | float (x : Float)

/-- A value. -/
inductive Value where
  | null
  | bool (b : Bool)
  | number (n : Number)
  | string (s : String)
  | sequence (items : List Value)
  /-- Keys with their values, in the order of the document. -/
  | mapping (entries : List (Value × Value))
  | tagged (tag : String) (value : Value)

/-- The text of a string. -/
def Value.string? : Value → Option String
  | .string s => some s
  | _ => none

namespace Number

/-- Whether two numbers count as the same key. -/
def same : Number → Number → Bool
  | .integer a, .integer b => a == b
  | .float a, .float b => (a.isNaN && b.isNaN) || a == b
  | _, _ => false

/-- The layout of numbers as text. -/
def layout : Layout := ⟨-5, 15, false⟩

/-- A number as text. -/
def text : Number → String
  | .integer n => String.ofList (if n < 0 then '-' :: decimal n.natAbs else decimal n.natAbs)
  | .float x =>
    if x.isNaN then ".nan"
    else if x.isInf then if x < 0.0 then "-.inf" else ".inf"
    else floatText layout x

end Number

mutual

/-- Whether two values count as the same key; the order of a mapping does not matter. -/
def Value.same : Value → Value → Bool
  | .null, .null => true
  | .bool a, .bool b => a == b
  | .number a, .number b => a.same b
  | .string a, .string b => a == b
  | .sequence a, .sequence b => Value.sameItems a b
  | .mapping a, .mapping b => a.length == b.length && Value.allWithin a b
  | .tagged s a, .tagged t b => s == t && a.same b
  | _, _ => false

/-- Whether two lists hold the same values in the same order. -/
def Value.sameItems : List Value → List Value → Bool
  | [], [] => true
  | a :: as, b :: bs => a.same b && Value.sameItems as bs
  | _, _ => false

/-- Whether every entry of the first list has the same key and value in the second. -/
def Value.allWithin : List (Value × Value) → List (Value × Value) → Bool
  | [], _ => true
  | (k, v) :: entries, other => other.any (fun e => k.same e.1 && v.same e.2) &&
      Value.allWithin entries other

end

/-- The value of a digit in a base. -/
def digitIn? (base : Nat) (c : Char) : Option Nat :=
  match hexValue? c with
  | some v => if v < base then some v else none
  | none => none

/-- The value of a list of digits in a base, on top of `acc`. -/
def valueInBase? (base : Nat) : Nat → List Char → Option Nat
  | acc, [] => some acc
  | acc, c :: cs =>
    match digitIn? base c with
    | some v => valueInBase? base (acc * base + v) cs
    | none => none

/-- The number written by digits in a base; there has to be one. -/
def naturalInBase? (base : Nat) (cs : List Char) : Option Nat :=
  if cs.isEmpty then none else valueInBase? base 0 cs

/-- Whether a text consists of digits and begins with a zero that is not all of it. -/
def hasLeadingZero : List Char → Bool
  | '0' :: c :: cs => (c :: cs).all Char.isDigit
  | _ => false

/-- The number written by digits, of base sixteen, eight or two behind `0x`, `0o` or `0b`. -/
def magnitude? : List Char → Option Nat
  | '0' :: 'x' :: cs => naturalInBase? 16 cs
  | '0' :: 'o' :: cs => naturalInBase? 8 cs
  | '0' :: 'b' :: cs => naturalInBase? 2 cs
  | cs => if hasLeadingZero cs then none else naturalInBase? 10 cs

/-- The integer that a text looks like; its size is limited to 128 bits. -/
def integer? (cs : List Char) : Option Int :=
  match cs with
  | '-' :: rest =>
    match magnitude? rest with
    | some n => if n ≤ 1 <<< 127 then some (-(n : Int)) else none
    | none => none
  | _ =>
    match magnitude? (match cs with
      | '+' :: rest => rest
      | _ => cs) with
    | some n => if n < 1 <<< 128 then some n else none
    | none => none

/-- Whether an integer fits in 64 bits, with or without a sign. -/
def fits (n : Int) : Bool := decide (Int64.minValue.toInt ≤ n) && decide (n ≤ largest64)

/-- The floating-point number that a text looks like. -/
def float? (cs : List Char) : Option Float :=
  let unsigned := match cs with
    | '+' :: rest => rest
    | _ => cs
  let text := String.ofList cs
  let infinity : Float := 1.0 / 0.0
  if [".inf", ".Inf", ".INF"].contains (String.ofList unsigned) then some infinity
  else if ["-.inf", "-.Inf", "-.INF"].contains text then some (-infinity)
  else if [".nan", ".NaN", ".NAN"].contains text then some (0.0 / 0.0)
  else if cs.head? == some '+' && unsigned.head?.any fun c => c == '+' || c == '-' then none
  else readFloat? unsigned

/-- Whether a text stands for nothing. -/
def isNull (text : String) : Bool := ["", "~", "null", "Null", "NULL"].contains text

/-- The truth value that a text stands for. -/
def truth? (text : String) : Option Bool :=
  if ["true", "True", "TRUE"].contains text then some true
  else if ["false", "False", "FALSE"].contains text then some false
  else none

/-- The value of a plain scalar; an integer that takes more than 64 bits is refused. -/
def plainValue? (cs : List Char) : Option Value :=
  let text := String.ofList cs
  if isNull text then some .null
  else
    match truth? text with
    | some b => some (.bool b)
    | none =>
      match integer? cs with
      | some n => if fits n then some (.number (.integer n)) else none
      | none =>
        let unsigned := match cs with
          | '-' :: rest | '+' :: rest => rest
          | _ => cs
        match if hasLeadingZero unsigned then none else float? cs with
        | some x => some (.number (.float x))
        | none => some (.string text)

/-- The value of a scalar with one of the standard tags, or of any other scalar that is not
plain. -/
def standardValue? (tag : Option (List Char)) (cs : List Char) (plain : Bool) : Option Value :=
  let text := String.ofList cs
  match tag with
  | none => if plain then plainValue? cs else some (.string text)
  | some tag =>
    match String.ofList tag with
    | "tag:yaml.org,2002:bool" => (truth? text).map .bool
    | "tag:yaml.org,2002:int" =>
      match integer? cs with
      | some n => if fits n then some (.number (.integer n)) else none
      | none => none
    | "tag:yaml.org,2002:float" => (float? cs).map fun x => .number (.float x)
    | "tag:yaml.org,2002:null" =>
      if isNull text && !text.isEmpty then some .null else none
    | _ => some (.string text)

/-- The name of a tag of the document's own, which begins with an exclamation mark. -/
def ownTag? : Option (List Char) → Option (List Char)
  | some ('!' :: name) => some name
  | _ => none

/-- Puts the tag of the document's own on a value. A tag without a name is refused. -/
def withOwnTag? (tag : Option (List Char)) (v : Value) : Option Value :=
  match ownTag? tag with
  | none => some v
  | some name => if name.isEmpty then none else some (.tagged (String.ofList name) v)

/-- The events of a document, and where the nodes with anchors start. -/
structure Script where
  events : Array Event
  places : List (Nat × Nat)

/-- A place among the events, and the number of aliases followed so far. -/
structure Track where
  position : Nat
  jumps : Nat

/-- Reads items up to the end of a sequence; `one` reads an item. -/
def readItems? (s : Script) (one : Track → Option (Value × Track)) :
    Nat → Track → Option (List Value × Track)
  | 0, _ => none
  | fuel + 1, t =>
    match s.events[t.position]? with
    | some .sequenceEnd => some ([], { t with position := t.position + 1 })
    | _ =>
      match one t with
      | none => none
      | some (v, t) => (readItems? s one fuel t).map fun (vs, t) => (v :: vs, t)

/-- Reads entries up to the end of a mapping; `seen` are the keys so far, and no key may occur
twice. -/
def readEntries? (s : Script) (one : Track → Option (Value × Track)) :
    Nat → List Value → Track → Option (List (Value × Value) × Track)
  | 0, _, _ => none
  | fuel + 1, seen, t =>
    match s.events[t.position]? with
    | some .mappingEnd => some ([], { t with position := t.position + 1 })
    | _ =>
      match one t with
      | none => none
      | some (k, t) =>
        if seen.any k.same then none
        else
          match one t with
          | none => none
          | some (v, t) =>
            (readEntries? s one fuel (k :: seen) t).map fun (es, t) => ((k, v) :: es, t)

/-- Reads the node that starts with an event, which is no alias; `one` reads the nodes inside it,
if it may have any. -/
def readStarted? (s : Script) (one : Option (Track → Option (Value × Track))) (e : Event)
    (t : Track) : Option (Value × Track) :=
  let size := s.events.size + 1
  match e, one with
  | .scalar tag text plain, _ =>
    let standard := if (ownTag? tag).isSome then none else tag
    match standardValue? standard text plain with
    | some v => (withOwnTag? tag v).map (·, t)
    | none => none
  | .sequenceStart tag, some one =>
    match readItems? s one size t with
    | some (vs, t) => (withOwnTag? tag (.sequence vs)).map (·, t)
    | none => none
  | .mappingStart tag, some one =>
    match readEntries? s one size [] t with
    | some (es, t) => (withOwnTag? tag (.mapping es)).map (·, t)
    | none => none
  | _, _ => none

/-- Reads a node with at most `depth` collections inside each other. After an alias, reading goes
on behind it; the number of aliases followed is limited to a hundred for each event. -/
def readValue? (s : Script) : Nat → Track → Option (Value × Track)
  | depth, t =>
    let one := match depth with
      | 0 => none
      | d + 1 => some (readValue? s d)
    match s.events[t.position]? with
    | some (.alias anchor) =>
      if 100 * s.events.size ≤ t.jumps then none
      else
        match s.places.lookup anchor with
        | none => none
        | some place =>
          match s.events[place]? with
          | none => none
          | some e =>
            (readStarted? s one e ⟨place + 1, t.jumps + 1⟩).map fun (v, inner) =>
              (v, ⟨t.position + 1, inner.jumps⟩)
    | some e => readStarted? s one e { t with position := t.position + 1 }
    | none => none

/-- The greatest depth of collections inside each other. -/
def greatestDepth : Nat := 128

/-- The value of the only document of a text. -/
def parse? (text : List Char) : Option Value := do
  let log ← readEvents? (← tokens? text)
  let s : Script := ⟨log.events.reverse.toArray, log.places⟩
  let (v, _) ← readValue? s greatestDepth ⟨0, 0⟩
  return v

/-- The mapping that a text holds; none for other values and for broken text. -/
def mapping? (text : List Char) : Option (List (Value × Value)) :=
  match parse? text with
  | some (.mapping entries) => some entries
  | _ => none

end NoteVault.Yaml
