import NoteVault.Text.Number
import NoteVault.Yaml.Cursor

/-!
Scalars as documents write them: plain, in quotes, or as a block. Each reader starts at the first
character of a scalar and returns its text and the place behind it, or `none` where the document
is broken. Line breaks inside a scalar are folded: a single one counts as a blank, of several the
first is dropped.
-/

namespace NoteVault.Yaml

open Text Cursor

/-- Blanks and breaks between two pieces of text: blanks before any break, the first break, and
the breaks behind it. -/
structure Gap where
  blanks : List Char
  first : List Char
  more : List Char
  /-- Whether a break has been met. -/
  broken : Bool

namespace Gap

/-- No gap. -/
def none : Gap := ⟨[], [], [], false⟩

/-- A gap behind an escaped line break. -/
def escaped : Gap := ⟨[], [], [], true⟩

/-- The text that a gap stands for. -/
def text (g : Gap) : List Char :=
  if !g.broken then g.blanks
  else if g.first = ['\n'] then if g.more.isEmpty then [' '] else g.more
  else g.first ++ g.more

/-- A gap with another blank; behind a break, blanks are dropped. -/
def addBlank (g : Gap) (c : Char) : Gap :=
  if g.broken then g else { g with blanks := g.blanks ++ [c] }

/-- A gap with another break. -/
def addBreak (g : Gap) (newline : List Char) : Gap :=
  if g.broken then { g with more := g.more ++ newline }
  else ⟨[], newline, [], true⟩

end Gap

/-- Reads blanks and breaks. Behind a break, tabs in columns below `indent` are refused; `fuel`
bounds the number of characters. -/
def readGap? (indent : Nat) : Nat → Gap → Cursor → Option (Gap × Cursor)
  | 0, _, _ => none
  | fuel + 1, g, c =>
    match c.peek with
    | none => some (g, c)
    | some x =>
      if isBlank x then
        if g.broken && c.column < indent && x == '\t' then none
        else readGap? indent fuel (g.addBlank x) c.next
      else if isBreak x then
        let (newline, c) := c.nextLine
        readGap? indent fuel (g.addBreak newline) c
      else some (g, c)

/-- Whether a character may not follow a colon inside a plain scalar in brackets. -/
def isFlowIndicatorAfterColon (c : Char) : Bool :=
  c == ',' || c == '?' || c == '[' || c == ']' || c == '\x7b' || c == '\x7d'

/-- Whether a character ends a plain scalar in brackets. -/
def isFlowEnd (c : Char) : Bool :=
  c == ',' || c == '[' || c == ']' || c == '\x7b' || c == '\x7d'

/-- Reads a word of a plain scalar: characters up to a blank, a break or an indicator. A colon is
an indicator only before a blank. -/
def readPlainWord? (inFlow : Bool) : List Char → Option (List Char)
  | [] => some []
  | x :: cs =>
    if isBlank x || isBreak x then some []
    else if x == ':' && endsWord cs.head? then some []
    else if inFlow && x == ':' && cs.head?.any isFlowIndicatorAfterColon then none
    else if inFlow && isFlowEnd x then some []
    else (readPlainWord? inFlow cs).map (x :: ·)

/-- A plain scalar: its text, the place behind its last character or the blanks behind that, and
whether a line break has been read last. -/
structure PlainText where
  text : List Char
  after : Cursor
  broken : Bool

/-- Reads the rest of a plain scalar: `text` has been read, and `g` is the gap behind it. -/
def readPlainFrom? (inFlow : Bool) (indent : Nat) :
    Nat → List Char → Gap → Cursor → Option PlainText
  | 0, _, _, _ => none
  | fuel + 1, text, g, c =>
    if c.seesDocumentMarker || c.seesChar '#' then some ⟨text, c, g.broken⟩
    else
      match readPlainWord? inFlow c.rest with
      | none => none
      | some word =>
        let (text, g) := if word.isEmpty then (text, g) else (text ++ g.text ++ word, Gap.none)
        let c := c.skip word.length
        if !(c.sees isBlank || c.sees isBreak) then some ⟨text, c, g.broken⟩
        else
          match readGap? indent (c.rest.length + 1) g c with
          | none => none
          | some (g, c) =>
            if !inFlow && c.column < indent then some ⟨text, c, g.broken⟩
            else readPlainFrom? inFlow indent fuel text g c

/-- Reads a plain scalar whose lines are indented by at least `indent` columns. -/
def readPlain? (inFlow : Bool) (indent : Nat) (c : Cursor) : Option PlainText :=
  readPlainFrom? inFlow indent (c.rest.length + 1) [] Gap.none c

/-- The character that an escape of one letter stands for. -/
def escapedChar? : Char → Option Char
  | '0' => some '\x00'
  | 'a' => some '\x07'
  | 'b' => some '\x08'
  | 't' | '\t' => some '\t'
  | 'n' => some '\n'
  | 'v' => some '\x0b'
  | 'f' => some '\x0c'
  | 'r' => some '\r'
  | 'e' => some '\x1b'
  | ' ' => some ' '
  | '"' => some '"'
  | '/' => some '/'
  | '\\' => some '\\'
  | 'N' => some (Char.ofNat 0x85)
  | '_' => some (Char.ofNat 0xa0)
  | 'L' => some (Char.ofNat 0x2028)
  | 'P' => some (Char.ofNat 0x2029)
  | _ => none

/-- The number of hexadecimal digits behind an escape. -/
def escapeDigits? : Char → Option Nat
  | 'x' => some 2
  | 'u' => some 4
  | 'U' => some 8
  | _ => none

/-- Reads an escape behind its backslash: the character it stands for and the number of
characters it takes. -/
def readEscaped? : List Char → Option (Char × Nat)
  | [] => none
  | x :: cs =>
    match escapedChar? x with
    | some c => some (c, 1)
    | none =>
      match escapeDigits? x with
      | none => none
      | some n =>
        if cs.length < n then none
        else do
          let code ← hexDigitsValue? 0 (cs.take n)
          let c ← charOfCode? code
          return (c, n + 1)

/-- A piece of a scalar in quotes, up to a blank or a break, the closing quote or an escaped
break; `escapedBreak` tells that it ends with the last of these. -/
structure QuotedWord where
  text : List Char
  after : Cursor
  escapedBreak : Bool

/-- Reads a piece of a scalar in quotes; `text` has been read already. -/
def readQuotedWord? (single : Bool) : Nat → List Char → Cursor → Option QuotedWord
  | 0, _, _ => none
  | fuel + 1, text, c =>
    match c.rest with
    | [] => some ⟨text, c, false⟩
    | x :: cs =>
      if isBlank x || isBreak x then some ⟨text, c, false⟩
      else if single && x == '\'' && cs.head? == some '\'' then
        readQuotedWord? single fuel (text ++ ['\'']) (c.skip 2)
      else if x == (if single then '\'' else '"') then some ⟨text, c, false⟩
      else if !single && x == '\\' then
        if cs.head?.any isBreak then some ⟨text, c.next.nextLine.2, true⟩
        else
          match readEscaped? cs with
          | none => none
          | some (e, n) => readQuotedWord? single fuel (text ++ [e]) (c.skip (n + 1))
      else readQuotedWord? single fuel (text ++ [x]) c.next

/-- Reads the rest of a scalar in quotes; `text` has been read already. -/
def readQuotedFrom? (single : Bool) : Nat → List Char → Cursor → Option (List Char × Cursor)
  | 0, _, _ => none
  | fuel + 1, text, c =>
    if c.seesDocumentMarker || c.rest.isEmpty then none
    else
      match readQuotedWord? single (c.rest.length + 1) [] c with
      | none => none
      | some word =>
        let text := text ++ word.text
        let c := word.after
        if c.seesChar (if single then '\'' else '"') then some (text, c.next)
        else
          let g := if word.escapedBreak then Gap.escaped else Gap.none
          match readGap? 0 (c.rest.length + 1) g c with
          | none => none
          | some (g, c) => readQuotedFrom? single fuel (text ++ g.text) c

/-- Reads a scalar in single or double quotes. -/
def readQuoted? (single : Bool) (c : Cursor) : Option (List Char × Cursor) :=
  readQuotedFrom? single (c.rest.length + 1) [] c.next

/-- What happens to the line breaks at the end of a block. -/
inductive Chomping where
  | strip
  | clip
  | keep
  deriving DecidableEq, Repr

/-- The chomping that a sign stands for. -/
def chompingOf? : Option Char → Option Chomping
  | some '-' => some .strip
  | some '+' => some .keep
  | _ => none

/-- Reads the digit of a block's indentation, if there is one; zero is refused. -/
def readIndentDigit? (c : Cursor) : Option (Option Nat × Cursor) :=
  match c.peek with
  | some x =>
    if !x.isDigit then some (none, c)
    else if x = '0' then none
    else some (some (x.toNat - '0'.toNat), c.next)
  | none => some (none, c)

/-- Reads what follows the indicator of a block: a sign and a digit, in either order. -/
def readBlockHeader? (c : Cursor) : Option (Chomping × Option Nat × Cursor) :=
  match chompingOf? c.peek with
  | some chomping => (readIndentDigit? c.next).map fun (digit, c) => (chomping, digit, c)
  | none =>
    match readIndentDigit? c with
    | none => none
    | some (none, c) => some (.clip, none, c)
    | some (some digit, c) =>
      match chompingOf? c.peek with
      | some chomping => some (chomping, some digit, c.next)
      | none => some (.clip, some digit, c)

/-- Reads the blanks and breaks in front of a line of a block; `indent` is zero as long as it is
not known. Returns the breaks, the deepest column and the place. -/
def readBlockBreaks? (indent : Nat) :
    Nat → List Char → Nat → Cursor → Option (List Char × Nat × Cursor)
  | 0, _, _, _ => none
  | fuel + 1, breaks, deepest, c =>
    let width := if indent = 0 then c.rest.length else indent - c.column
    let c := c.skip ((c.rest.take width).takeWhile (· == ' ')).length
    let deepest := max deepest c.column
    if (indent = 0 || c.column < indent) && c.seesChar '\t' then none
    else if c.sees isBreak then
      let (newline, c) := c.nextLine
      readBlockBreaks? indent fuel (breaks ++ newline) deepest c
    else some (breaks, deepest, c)

/-- The text of a block so far: its lines, the break behind the last one, the breaks behind that,
and whether the last line began with a blank. -/
structure BlockText where
  text : List Char
  first : List Char
  more : List Char
  blankLine : Bool

/-- Adds a line to a block. In a folded block the break in front becomes a blank, if neither of
the lines around it begins with a blank. -/
def BlockText.addLine (folded : Bool) (b : BlockText) (line : List Char) : BlockText :=
  let blank := line.head?.any isBlank
  let joint :=
    if folded && b.first == ['\n'] && !b.blankLine && !blank then
      if b.more.isEmpty then [' '] else []
    else b.first
  ⟨b.text ++ joint ++ b.more ++ line, [], [], blank⟩

/-- Reads the lines of a block that is indented by `indent` columns. -/
def readBlockLines? (folded : Bool) (indent : Nat) :
    Nat → BlockText → Cursor → Option (BlockText × Cursor)
  | 0, _, _ => none
  | fuel + 1, b, c =>
    if c.column != indent || c.rest.isEmpty then some (b, c)
    else
      let (line, c) := c.takeWhile (!isBreak ·)
      let b := b.addLine folded line
      let (newline, c) := c.nextLine
      match readBlockBreaks? indent (c.rest.length + 1) [] 0 c with
      | none => none
      | some (breaks, _, c) =>
        readBlockLines? folded indent fuel { b with first := newline, more := breaks } c

/-- Reads a block behind its indicator; `parent` is the column of the collection around it, or -1
outside of all collections. -/
def readBlock? (folded : Bool) (parent : Int) (c : Cursor) : Option (List Char × Cursor) :=
  match readBlockHeader? c with
  | none => none
  | some (chomping, digit, c) =>
    let c := c.skipWhile isBlank
    let c := if c.seesChar '#' then c.skipToLineEnd else c
    if !endsLine c.peek then none
    else
      let c := c.nextLine.2
      let given := match digit with
        | some d => if 0 ≤ parent then parent.toNat + d else d
        | none => 0
      match readBlockBreaks? given (c.rest.length + 1) [] 0 c with
      | none => none
      | some (breaks, deepest, c) =>
        let indent := if given = 0 then max (max deepest (parent + 1).toNat) 1 else given
        match readBlockLines? folded indent (c.rest.length + 1) ⟨[], [], breaks, false⟩ c with
        | none => none
        | some (b, c) =>
          let tail := match chomping with
            | .strip => []
            | .clip => b.first
            | .keep => b.first ++ b.more
          some (b.text ++ tail, c)

end NoteVault.Yaml
