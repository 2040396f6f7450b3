import NoteVault.Pattern.Regex
import NoteVault.Text.Cut
import NoteVault.Text.Number

/-!
Escapes: what stands after a backslash in a pattern. Each reader takes the characters behind what
it has recognised and returns the rest, or `none` for text that is not a pattern.
-/

namespace NoteVault.Pattern

open Unicode Text

/-- The switches that a pattern can set for the text behind them. -/
structure Flags where
  ignoreCase : Bool
  multiLine : Bool
  dotNewline : Bool
  lazyFirst : Bool
  unicode : Bool
  verbose : Bool
  carriageReturn : Bool
  deriving DecidableEq, Repr

/-- The switches at the start of a search: case is ignored. -/
def Flags.search : Flags := ⟨true, false, false, false, true, false, false⟩

/-- In verbose patterns, drops white space and comments in front; `inComment` tells whether a
comment is being dropped. -/
def dropBlanks (inComment : Bool) : List Char → List Char
  | [] => []
  | c :: cs =>
    if inComment then dropBlanks (c != '\n') cs
    else if isSpace c then dropBlanks false cs
    else if c = '#' then dropBlanks true cs
    else c :: cs

/-- Drops what is skipped between the parts of a pattern. -/
def skipBlanks (flags : Flags) (cs : List Char) : List Char :=
  if flags.verbose then dropBlanks false cs else cs

/-- What an escape stands for. -/
inductive Escape where
  /-- A character; `byte` marks the form of two hexadecimal digits. -/
  | char (c : Char) (byte : Bool)
  | set (s : CharSet)
  | look (l : Look)

/-- The set of the characters outside a set, if asked for. -/
def negateIf (negated : Bool) (s : CharSet) : CharSet := if negated then .compl s else s

/-- A set with the case variants of its characters, if case is ignored. -/
def foldIf (flags : Flags) (s : CharSet) : CharSet :=
  if flags.ignoreCase then
    if flags.unicode then .folded s else .asciiFolded s
  else s

/-- Takes exactly `count` characters, skipping blanks between them. -/
def takeSkipping (flags : Flags) : Nat → List Char → Option (List Char × List Char)
  | 0, cs => some ([], cs)
  | n + 1, cs =>
    match skipBlanks flags cs with
    | [] => none
    | c :: rest => (takeSkipping flags n rest).map fun (taken, rest) => (c :: taken, rest)

/-- Takes the characters before a closing brace, skipping blanks; `fuel` bounds the steps. -/
def takeToBrace (flags : Flags) : Nat → List Char → Option (List Char × List Char)
  | 0, _ => none
  | fuel + 1, cs =>
    match skipBlanks flags cs with
    | [] => none
    | c :: rest =>
      if c = '}' then some ([], rest)
      else (takeToBrace flags fuel rest).map fun (taken, rest) => (c :: taken, rest)

/-- Reads a character given by its code point: `digits` digits, or any number in braces. -/
def readCode? (flags : Flags) (digits : Nat) (cs : List Char) : Option (Char × List Char) :=
  match skipBlanks flags cs with
  | '{' :: rest => do
    let (inner, rest) ← takeToBrace flags (rest.length + 1) rest
    if inner.isEmpty then none
    else return (← charOfCode? (← hexDigitsValue? 0 inner), rest)
  | start => do
    let (taken, rest) ← takeSkipping flags digits start
    return (← charOfCode? (← hexDigitsValue? 0 taken), rest)

/-- A property name in its comparable form: lower case, without blanks, `_`, `-`, characters
beyond ASCII and an `is` in front. -/
def comparableName (cs : List Char) : String :=
  let (body, cut) := match cs with
    | i :: s :: rest => if i.toLower = 'i' ∧ s.toLower = 's' then (rest, true) else (cs, false)
    | _ => (cs, false)
  let kept := (body.filter fun c => c != ' ' && c != '_' && c != '-' && c.toNat < 128).map
    Char.toLower
  String.ofList (if cut && kept == ['c'] then ['i', 's', 'c'] else kept)

/-- The property of a general category, or one of the three wider ones, by name. -/
def categoryProperty? (name : String) : Option Property :=
  match name with
  | "any" => some .any
  | "ascii" => some .ascii
  | "assigned" => some .assigned
  | _ => (Category.Group.named? name).map .category

/-- The property with a name. -/
def propertyNamed? (name : String) : Option Property :=
  match name with
  | "alphabetic" | "alpha" => some .alphabetic
  | "lowercase" | "lower" => some .lowercase
  | "uppercase" | "upper" => some .uppercase
  | "cased" => some .cased
  | "caseignorable" | "ci" => some .caseIgnorable
  | "whitespace" | "wspace" | "space" => some .space
  | "idstart" | "ids" => some .identifierStart
  | "idcontinue" | "idc" => some .identifierPart
  | "xidstart" | "xids" => some .stableStart
  | "xidcontinue" | "xidc" => some .stablePart
  | "graphemeextend" | "grext" => some .extending
  | "graphemebase" | "grbase" => some .clusterBase
  | "changeswhenlowercased" | "cwl" => some .lowerable
  | _ =>
    ((traitSet? name).map .listed).or
      ((categoryProperty? name).or ((scriptNamed? name).map .script))

/-- The property written by a name and a value. -/
def propertyValued? (name value : String) : Option Property :=
  match name with
  | "gc" | "generalcategory" => categoryProperty? value
  | "sc" | "script" | "scx" | "scriptextensions" => (scriptNamed? value).map .script
  | _ => none

/-- The property written in braces, and whether it is negated. -/
def propertyOfText? (text : List Char) : Option (Property × Bool) :=
  match cutText ['!', '='] text with
  | some (name, value) =>
    (propertyValued? (comparableName name) (comparableName value)).map (·, true)
  | none =>
    match (cutFirst ':' text).or (cutFirst '=' text) with
    | some (name, value) =>
      (propertyValued? (comparableName name) (comparableName value)).map (·, false)
    | none => (propertyNamed? (comparableName text)).map (·, false)

/-- Reads the property behind `\p` or `\P`. -/
def readProperty? (flags : Flags) (negated : Bool) (cs : List Char) :
    Option (CharSet × List Char) :=
  match skipBlanks flags cs with
  | [] => none
  | '{' :: rest => do
    let (inner, rest) ← takeToBrace flags (rest.length + 1) rest
    let (p, unequal) ← propertyOfText? inner
    if flags.unicode then return (negateIf (negated != unequal) (foldIf flags (.property p)), rest)
    else none
  | c :: rest =>
    if c = '\\' then none
    else do
      let p ← propertyNamed? (comparableName [c])
      if flags.unicode then return (negateIf negated (foldIf flags (.property p)), rest)
      else none

/-- The set of a class of one letter: digits, white space or word characters. -/
def letterSet (flags : Flags) (letter : Char) : CharSet :=
  if flags.unicode then
    match letter with
    | 'd' => .property .digit
    | 's' => .property .space
    | _ => .property .word
  else
    match letter with
    | 'd' => .range '0' '9'
    | 's' => .ofRanges [('\t', '\r'), (' ', ' ')]
    | _ => .ofRanges [('0', '9'), ('A', 'Z'), ('_', '_'), ('a', 'z')]

/-- The word condition that a name in braces behind `\b` stands for. -/
def wordLook? (ascii : Bool) : String → Option Look
  | "start" => some (.wordStart ascii)
  | "end" => some (.wordEnd ascii)
  | "start-half" => some (.wordStartHalf ascii)
  | "end-half" => some (.wordEndHalf ascii)
  | _ => none

/-- Whether a character may stand in the name of a word condition. -/
def isWordLookChar (c : Char) : Bool := c.isAlpha || c == '-'

/-- Reads what follows `\b`: a name in braces, or nothing that belongs to it. -/
def readBoundary? (flags : Flags) (cs : List Char) : Option (Look × List Char) :=
  let plain := some (Look.wordBoundary (!flags.unicode), cs)
  match cs with
  | '{' :: rest =>
    match skipBlanks flags rest with
    | [] => none
    | c :: _ =>
      if !isWordLookChar c then plain
      else do
        let (inner, rest) ← takeToBrace flags (rest.length + 1) rest
        if inner.all isWordLookChar then
          return (← wordLook? (!flags.unicode) (String.ofList inner), rest)
        else none
  | _ => plain

/-- Whether a character that is not a letter or a digit stands for itself behind a backslash. -/
def isEscapable (c : Char) : Bool :=
  c.toNat < 128 && !c.isAlphanum && c != '<' && c != '>'

/-- Reads the escape behind a backslash. -/
def readEscape? (flags : Flags) : List Char → Option (Escape × List Char)
  | [] => none
  | c :: cs =>
    match c with
    | 'x' => do
      let braced := (skipBlanks flags cs).head? == some '{'
      let (code, rest) ← readCode? flags 2 cs
      return (.char code (!braced), rest)
    | 'u' => (readCode? flags 4 cs).map fun (code, rest) => (.char code false, rest)
    | 'U' => (readCode? flags 8 cs).map fun (code, rest) => (.char code false, rest)
    | 'p' => (readProperty? flags false cs).map fun (s, rest) => (.set s, rest)
    | 'P' => (readProperty? flags true cs).map fun (s, rest) => (.set s, rest)
    | 'd' => some (.set (letterSet flags 'd'), cs)
    | 's' => some (.set (letterSet flags 's'), cs)
    | 'w' => some (.set (letterSet flags 'w'), cs)
    | 'D' => some (.set (.compl (letterSet flags 'd')), cs)
    | 'S' => some (.set (.compl (letterSet flags 's')), cs)
    | 'W' => some (.set (.compl (letterSet flags 'w')), cs)
    | 'a' => some (.char '\x07' false, cs)
    | 'f' => some (.char '\x0c' false, cs)
    | 't' => some (.char '\t' false, cs)
    | 'n' => some (.char '\n' false, cs)
    | 'r' => some (.char '\r' false, cs)
    | 'v' => some (.char '\x0b' false, cs)
    | 'A' => some (.look .textStart, cs)
    | 'z' => some (.look .textEnd, cs)
    | 'b' => (readBoundary? flags cs).map fun (l, rest) => (.look l, rest)
    | 'B' => some (.look (.notWordBoundary (!flags.unicode)), cs)
    | '<' => some (.look (.wordStart (!flags.unicode)), cs)
    | '>' => some (.look (.wordEnd (!flags.unicode)), cs)
    | _ => if isEscapable c then some (.char c false, cs) else none

end NoteVault.Pattern
