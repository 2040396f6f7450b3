import NoteVault.Yaml.Scalar

/-!
Tokens of documents. Most of the work is in finding where block collections begin and end: by
the columns of their entries, and, for a mapping, by a colon that turns what stands before it into
a key. Such a key has to lie within one line and within 1024 characters.
-/

namespace NoteVault.Yaml

open Text

/-- A token of a document. -/
inductive Token where
  | version (major minor : Nat)
  | tagDirective (handle stem : List Char)
  | documentStart
  | documentEnd
  | blockSequenceStart
  | blockMappingStart
  | blockEnd
  | flowSequenceStart
  | flowSequenceEnd
  | flowMappingStart
  | flowMappingEnd
  | blockEntry
  | flowEntry
  | key
  | value
  | alias (name : List Char)
  | anchor (name : List Char)
  | tag (handle suffix : List Char)
  | scalar (text : List Char) (plain : Bool)
  deriving DecidableEq, Repr

/-- What may turn out to be a key: where it stands and how many tokens come before it. A key that
stands in the column of its mapping has to turn out to be one. -/
structure PendingKey where
  required : Bool
  tokensBefore : Nat
  place : Cursor

/-- The state of reading tokens. -/
structure Lexer where
  cursor : Cursor
  /-- The tokens read, the latest first. -/
  tokens : List Token
  count : Nat
  /-- The column of the innermost block collection, or -1. -/
  indent : Int
  /-- The columns of the block collections around it. -/
  outerIndents : List Int
  /-- What may be a key inside the innermost bracket. -/
  pending : Option PendingKey
  /-- The same for the brackets around it. -/
  outerPending : List (Option PendingKey)
  keyAllowed : Bool

namespace Lexer

/-- The state at the start of a document. -/
def start (text : List Char) : Lexer := ⟨.start text, [], 0, -1, [], none, [], true⟩

/-- Whether the text is inside brackets. -/
def inFlow (l : Lexer) : Bool := !l.outerPending.isEmpty

/-- Adds a token. -/
def add (l : Lexer) (t : Token) : Lexer := { l with tokens := t :: l.tokens, count := l.count + 1 }

/-- Inserts a token behind the first `before` tokens. -/
def insert (l : Lexer) (before : Nat) (t : Token) : Lexer :=
  let later := l.count - before
  { l with tokens := l.tokens.take later ++ t :: l.tokens.drop later, count := l.count + 1 }

/-- Whether a pending key can no longer be one. -/
def isStale (l : Lexer) (k : PendingKey) : Bool :=
  k.place.line < l.cursor.line || k.place.index + 1024 < l.cursor.index

/-- Drops a pending key that can no longer be one; none if it has to be one. -/
def dropStale? (l : Lexer) : Option PendingKey → Option (Option PendingKey)
  | none => some none
  | some k => if l.isStale k then if k.required then none else some none else some (some k)

/-- Drops all pending keys that can no longer be keys. -/
def dropAllStale? (l : Lexer) : Option Lexer := do
  return { l with
    pending := ← l.dropStale? l.pending
    outerPending := ← l.outerPending.mapM l.dropStale? }

/-- Gives up the pending key of the innermost bracket; none if it has to be one. -/
def dropPending? (l : Lexer) : Option Lexer :=
  if l.pending.any (·.required) then none else some { l with pending := none }

/-- Notes that what follows may be a key. -/
def savePending? (l : Lexer) : Option Lexer :=
  if l.keyAllowed then
    l.dropPending?.map fun l =>
      { l with pending := some ⟨!l.inFlow && l.indent == l.cursor.column, l.count, l.cursor⟩ }
  else some l

/-- Opens a block collection in a column, unless one is open there; its token goes behind the
first `before` tokens. -/
def roll (l : Lexer) (column before : Nat) (t : Token) : Lexer :=
  if l.inFlow then l
  else if l.indent < column then
    { l with indent := column, outerIndents := l.indent :: l.outerIndents }.insert before t
  else l

/-- Closes the block collections whose columns lie behind the given one. -/
def unrollFrom : List Int → Int → Lexer → Lexer
  | [], _, l => l
  | outer :: rest, column, l =>
    if l.indent > column then
      unrollFrom rest column { l.add .blockEnd with indent := outer, outerIndents := rest }
    else l

/-- Closes the block collections whose columns lie behind the given one, outside of brackets. -/
def unroll (l : Lexer) (column : Int) : Lexer :=
  if l.inFlow then l else unrollFrom l.outerIndents column l

/-- Skips blanks, comments and breaks. Outside of brackets, a tab is no blank where a key may
stand, and a key may stand on a new line; `fuel` bounds the number of lines. -/
def skipToToken : Nat → Lexer → Lexer
  | 0, l => l
  | fuel + 1, l =>
    let tabs := l.inFlow || !l.keyAllowed
    let c := if l.cursor.column = 0 && l.cursor.sees isByteOrderMark then l.cursor.next
      else l.cursor
    let c := c.skipWhile fun x => x == ' ' || (tabs && x == '\t')
    let c := if c.seesChar '#' then c.skipToLineEnd else c
    if c.sees isBreak then
      skipToToken fuel
        { l with cursor := c.nextLine.2, keyAllowed := !l.inFlow || l.keyAllowed }
    else { l with cursor := c }

/-- Moves behind `n` characters and adds a token. -/
def take (l : Lexer) (n : Nat) (t : Token) : Lexer := { l with cursor := l.cursor.skip n }.add t

/-- Reads a token that begins with something that may be a key. -/
def keyLike? (l : Lexer) (read : Cursor → Option (Token × Cursor)) : Option Lexer := do
  let l ← l.savePending?
  let (t, c) ← read l.cursor
  return { l with cursor := c, keyAllowed := false }.add t

/-- Reads a mark between documents, which closes all block collections. -/
def documentMark? (l : Lexer) (t : Token) : Option Lexer := do
  let l ← (l.unroll (-1)).dropPending?
  return { l with keyAllowed := false }.take 3 t

/-- Reads an opening bracket. -/
def openFlow? (l : Lexer) (t : Token) : Option Lexer := do
  let l ← l.savePending?
  return { l with
    pending := none
    outerPending := l.pending :: l.outerPending
    keyAllowed := true }.take 1 t

/-- Reads a closing bracket. -/
def closeFlow? (l : Lexer) (t : Token) : Option Lexer := do
  let l ← l.dropPending?
  let l := match l.outerPending with
    | [] => l
    | pending :: outer => { l with pending := pending, outerPending := outer }
  return { l with keyAllowed := false }.take 1 t

/-- Reads a comma between entries in brackets. -/
def flowEntry? (l : Lexer) : Option Lexer := do
  let l ← l.dropPending?
  return { l with keyAllowed := true }.take 1 .flowEntry

/-- Reads the hyphen of an entry. -/
def blockEntry? (l : Lexer) : Option Lexer :=
  if !l.inFlow && !l.keyAllowed then none
  else do
    let l ← (l.roll l.cursor.column l.count .blockSequenceStart).dropPending?
    return { l with keyAllowed := true }.take 1 .blockEntry

/-- Reads the question mark of a key. -/
def key? (l : Lexer) : Option Lexer :=
  if !l.inFlow && !l.keyAllowed then none
  else do
    let l ← (l.roll l.cursor.column l.count .blockMappingStart).dropPending?
    return { l with keyAllowed := !l.inFlow }.take 1 .key

/-- Reads the colon of a value. -/
def value? (l : Lexer) : Option Lexer :=
  match l.pending with
  | some k =>
    let l := (l.insert k.tokensBefore .key).roll k.place.column k.tokensBefore .blockMappingStart
    some ({ l with pending := none, keyAllowed := false }.take 1 .value)
  | none =>
    if !l.inFlow && !l.keyAllowed then none
    else
      let l := l.roll l.cursor.column l.count .blockMappingStart
      some ({ l with keyAllowed := !l.inFlow }.take 1 .value)

/-- Reads a block of text. -/
def block? (l : Lexer) (folded : Bool) : Option Lexer := do
  let l ← l.dropPending?
  let (text, c) ← readBlock? folded l.indent l.cursor.next
  return { l with cursor := c, keyAllowed := true }.add (.scalar text false)

/-- Reads a plain scalar. -/
def plain? (l : Lexer) : Option Lexer := do
  let l ← l.savePending?
  let p ← readPlain? l.inFlow (l.indent + 1).toNat l.cursor
  return { l with cursor := p.after, keyAllowed := p.broken }.add (.scalar p.text true)

end Lexer

/-- Reads the name behind the sign of an anchor or an alias. -/
def readAnchor? (make : List Char → Token) (c : Cursor) : Option (Token × Cursor) :=
  let (name, c) := c.next.takeWhile isNameChar
  let ended := Cursor.endsWord c.peek || c.sees fun x =>
    x == '?' || x == ':' || x == ',' || x == ']' || x == '\x7d' || x == '%' || x == '@' ||
      x == '\x60'
  if name.isEmpty || !ended then none else some (make name, c)

/-- Whether a character may stand in a tag; some only between angle brackets. -/
def isTagChar (wide : Bool) (c : Char) : Bool :=
  isNameChar c || [';', '/', '?', ':', '@', '&', '=', '+', '$', '.', '!', '~', '*', '\'', '(', ')',
    '%'].contains c || (wide && [',', '[', ']'].contains c)

/-- The number of bytes of a character that begins with the given byte. -/
def utf8Width (byte : Nat) : Nat :=
  if byte < 0x80 then 1 else if byte / 0x20 = 6 then 2 else if byte / 0x10 = 14 then 3
  else if byte / 8 = 30 then 4 else 0

/-- Reads a byte written as a percent sign and two hexadecimal digits. -/
def readEscapedByte? : List Char → Option (Nat × List Char)
  | '%' :: a :: b :: cs => (hexDigitsValue? 0 [a, b]).map (·, cs)
  | _ => none

/-- Reads the bytes behind the first one of a character. -/
def readMoreBytes? : Nat → Nat → List Char → Option (Nat × List Char)
  | 0, code, cs => some (code, cs)
  | n + 1, code, cs =>
    match readEscapedByte? cs with
    | some (byte, cs) =>
      if byte / 0x40 = 2 then readMoreBytes? n (code * 64 + byte % 64) cs else none
    | none => none

/-- Reads a character written by its bytes. -/
def readEscapedBytes? (cs : List Char) : Option (Char × List Char) := do
  let (byte, rest) ← readEscapedByte? cs
  let width := utf8Width byte
  if width = 0 then none
  else
    let bits := if width = 1 then 7 else 7 - width
    let (code, rest) ← readMoreBytes? (width - 1) (byte % (1 <<< bits)) rest
    return (← charOfCode? code, rest)

/-- Resolves the escapes of a tag; `fuel` bounds the number of characters. -/
def unescapeTag? : Nat → List Char → Option (List Char)
  | 0, _ => none
  | _, [] => some []
  | fuel + 1, '%' :: cs =>
    match readEscapedBytes? ('%' :: cs) with
    | some (c, rest) => (unescapeTag? fuel rest).map (c :: ·)
    | none => none
  | fuel + 1, c :: cs => (unescapeTag? fuel cs).map (c :: ·)

/-- Reads the characters of a tag. -/
def readTagText? (wide : Bool) (c : Cursor) : Option (List Char × Cursor) :=
  let (taken, c) := c.takeWhile (isTagChar wide)
  (unescapeTag? (taken.length + 1) taken).map (·, c)

/-- Reads the handle of a tag: an exclamation mark, which may be followed by a name and another
exclamation mark. -/
def readHandle (c : Cursor) : List Char × Cursor :=
  let (name, c) := c.next.takeWhile isNameChar
  if c.seesChar '!' then ('!' :: name ++ ['!'], c.next) else ('!' :: name, c)

/-- Whether a handle ends with the exclamation mark that makes it one. -/
def isHandle (handle : List Char) : Bool := 1 < handle.length && handle.getLast? == some '!'

/-- Reads a tag without checking what follows. -/
def readTagParts? (c : Cursor) : Option (List Char × List Char × Cursor) :=
  if c.peekSecond == some '<' then do
    let (text, c) ← readTagText? true (c.skip 2)
    if text.isEmpty || !c.seesChar '>' then none else return ([], text, c.next)
  else do
    let (handle, c) := readHandle c
    let (suffix, c) ← readTagText? false c
    if isHandle handle then
      if suffix.isEmpty then none else return (handle, suffix, c)
    else
      let suffix := handle.drop 1 ++ suffix
      if suffix.isEmpty then return ([], ['!'], c) else return (['!'], suffix, c)

/-- Reads a tag. -/
def readTag? (inFlow : Bool) (c : Cursor) : Option (Token × Cursor) := do
  let (handle, suffix, c) ← readTagParts? c
  if Cursor.endsWord c.peek || (inFlow && c.seesChar ',') then return (.tag handle suffix, c)
  else none

/-- Reads a number of a version, of at most nine digits. -/
def readVersionNumber? (c : Cursor) : Option (Nat × Cursor) :=
  let (digits, c) := c.takeWhile Char.isDigit
  if digits.length ≤ 9 then (natural? digits).map (·, c) else none

/-- Reads the value of a version directive. -/
def readVersion? (c : Cursor) : Option (Token × Cursor) := do
  let (major, c) ← readVersionNumber? (c.skipWhile isBlank)
  if c.seesChar '.' then
    let (minor, c) ← readVersionNumber? c.next
    return (.version major minor, c)
  else none

/-- Reads the value of a tag directive. -/
def readTagDirective? (c : Cursor) : Option (Token × Cursor) := do
  let c := c.skipWhile isBlank
  if !c.seesChar '!' then none
  else
    let (handle, c) := readHandle c
    if !(isHandle handle || handle == ['!']) || !c.sees isBlank then none
    else
      let (stem, c) ← readTagText? true (c.skipWhile isBlank)
      if stem.isEmpty || !Cursor.endsWord c.peek then none
      else return (.tagDirective handle stem, c)

/-- Reads a directive with its line. -/
def readDirective? (c : Cursor) : Option (Token × Cursor) := do
  let (name, c) := c.next.takeWhile isNameChar
  let (t, c) ←
    if !Cursor.endsWord c.peek then none
    else if name = "YAML".toList then readVersion? c
    else if name = "TAG".toList then readTagDirective? c
    else none
  let c := c.skipWhile isBlank
  let c := if c.seesChar '#' then c.skipToLineEnd else c
  if Cursor.endsLine c.peek then return (t, c.nextLine.2) else none

namespace Lexer

/-- Reads a directive, which closes all block collections. -/
def directive? (l : Lexer) : Option Lexer := do
  let l ← (l.unroll (-1)).dropPending?
  let (t, c) ← readDirective? l.cursor
  return { l with cursor := c, keyAllowed := false }.add t

/-- Whether a character cannot begin a plain scalar, or only in front of another one. -/
def isIndicator (c : Char) : Bool :=
  ['-', '?', ':', ',', '[', ']', '\x7b', '\x7d', '#', '&', '*', '!', '|', '>', '\'', '"', '%', '@',
    '\x60', '\t'].contains c

/-- Reads the token that begins with a character. -/
def token? (l : Lexer) (x : Char) : Option Lexer :=
  let spaced := Cursor.endsWord l.cursor.peekSecond
  if l.cursor.column = 0 ∧ x = '%' then l.directive?
  else if l.cursor.seesMarker '-' then l.documentMark? .documentStart
  else if l.cursor.seesMarker '.' then l.documentMark? .documentEnd
  else if x = '[' then l.openFlow? .flowSequenceStart
  else if x = '\x7b' then l.openFlow? .flowMappingStart
  else if x = ']' then l.closeFlow? .flowSequenceEnd
  else if x = '\x7d' then l.closeFlow? .flowMappingEnd
  else if x = ',' then l.flowEntry?
  else if x = '-' ∧ spaced then l.blockEntry?
  else if x = '?' ∧ (l.inFlow ∨ spaced) then l.key?
  else if x = ':' ∧ (l.inFlow ∨ spaced) then l.value?
  else if x = '*' then l.keyLike? (readAnchor? .alias)
  else if x = '&' then l.keyLike? (readAnchor? .anchor)
  else if x = '!' then l.keyLike? (readTag? l.inFlow)
  else if x = '|' ∧ !l.inFlow then l.block? false
  else if x = '>' ∧ !l.inFlow then l.block? true
  else if x = '\'' then
    l.keyLike? fun c => (readQuoted? true c).map fun (text, c) => (.scalar text false, c)
  else if x = '"' then
    l.keyLike? fun c => (readQuoted? false c).map fun (text, c) => (.scalar text false, c)
  else if !isIndicator x ∨ x = '-' ∨ ((x = '?' ∨ x = ':') ∧ !l.inFlow) then l.plain?
  else none

/-- Closes what is open at the end of a document. -/
def finish? (l : Lexer) : Option Lexer := (l.unroll (-1)).dropPending?

/-- Reads tokens to the end; `fuel` bounds their number. -/
def run? : Nat → Lexer → Option (List Token)
  | 0, _ => none
  | fuel + 1, l =>
    match (skipToToken (l.cursor.rest.length + 1) l).dropAllStale? with
    | none => none
    | some l =>
      let l := l.unroll l.cursor.column
      match l.cursor.peek with
      | none => l.finish?.map (·.tokens.reverse)
      | some x =>
        match l.token? x with
        | some l => run? fuel l
        | none => none

end Lexer

/-- Whether a character may stand in a document at all. -/
def isAllowed (c : Char) : Bool :=
  let n := c.toNat
  n == 9 || n == 10 || n == 13 || (32 ≤ n && n ≤ 126) || n == 0x85 ||
    (0xa0 ≤ n && n ≤ 0xfffd) || 0x10000 ≤ n

/-- The tokens of a text; a byte order mark in front is skipped. -/
def tokens? (text : List Char) : Option (List Token) :=
  let body := match text with
    | c :: cs => if isByteOrderMark c then cs else text
    | [] => text
  if body.all isAllowed then (Lexer.start body).run? (body.length + 1) else none

end NoteVault.Yaml
