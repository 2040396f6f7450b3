import NoteVault.Pattern.Bracket

/-!
Reading patterns. A reader walks through the characters with a stack of the groups that are open;
a text that is not a pattern, is nested too deep or stands for too large a pattern gives none.
-/

namespace NoteVault.Pattern

open Unicode Text

/-- A part of a pattern, with the height of its nesting. -/
structure Term where
  regex : Regex
  height : Nat

namespace Term

/-- A part that holds no other parts. -/
def leaf (r : Regex) : Term := ⟨r, 0⟩

/-- One part after another; a missing part is a change of switches, which takes a place but matches
nothing of its own. -/
def sequence : List (Option Term) → Term
  | [] => leaf .empty
  | [item] => item.getD (leaf .empty)
  | items =>
    ⟨items.foldr (fun item r => match item with
        | none => r
        | some t => .cat t.regex r) .empty,
      items.foldr (fun item h => match item with
        | none => h
        | some t => max t.height h) 0 + 1⟩

/-- A choice between parts. -/
def choice : List Term → Term
  | [] => leaf .empty
  | [t] => t
  | t :: ts =>
    ⟨ts.foldl (fun r t => .alt r t.regex) t.regex,
      ts.foldl (fun h t => max h t.height) t.height + 1⟩

/-- A part that is repeated. -/
def repeatedBy (t : Term) (least : Nat) (most : Option Nat) : Term :=
  ⟨.repeated t.regex least most, t.height + 1⟩

end Term

/-- A group that is open: the switches in front of it, the choices read so far and the parts of
the current one, both with the latest first. -/
structure OpenGroup where
  before : Flags
  choices : List Term
  items : List (Option Term)

namespace OpenGroup

/-- A group that has just been opened. -/
def start (before : Flags) : OpenGroup := ⟨before, [], []⟩

/-- Adds a part. -/
def add (g : OpenGroup) (t : Term) : OpenGroup := { g with items := some t :: g.items }

/-- Begins another choice. -/
def nextChoice (g : OpenGroup) : OpenGroup :=
  { g with choices := .sequence g.items.reverse :: g.choices, items := [] }

/-- The pattern inside a group. -/
def close (g : OpenGroup) : Term := .choice g.nextChoice.choices.reverse

end OpenGroup

/-- What has been read of a pattern. -/
structure Progress where
  flags : Flags
  /-- The names given to groups. -/
  names : List (List Char)
  group : OpenGroup
  outer : List OpenGroup

namespace Progress

/-- Adds a part to the group being read. -/
def add (p : Progress) (t : Term) : Progress := { p with group := p.group.add t }

/-- Opens a group whose inside starts with the given switches. -/
def openGroup (p : Progress) (inside : Flags) : Progress :=
  { p with flags := inside, group := .start p.flags, outer := p.group :: p.outer }

/-- Closes the group being read; there has to be one around it. -/
def closeGroup? (p : Progress) : Option Progress :=
  match p.outer with
  | [] => none
  | around :: outer =>
    let inside := p.group.close
    some { p with
      flags := p.group.before
      group := around.add { inside with height := inside.height + 1 }
      outer := outer }

/-- Repeats the last part, which has to be there. -/
def repeatLast? (p : Progress) (least : Nat) (most : Option Nat) : Option Progress :=
  match p.group.items with
  | some t :: items =>
    some { p with group := { p.group with items := some (t.repeatedBy least most) :: items } }
  | _ => none

end Progress

/-- Turns a switch on or off. -/
def Flags.switch? (flags : Flags) (letter : Char) (on : Bool) : Option Flags :=
  match letter with
  | 'i' => some { flags with ignoreCase := on }
  | 'm' => some { flags with multiLine := on }
  | 's' => some { flags with dotNewline := on }
  | 'U' => some { flags with lazyFirst := on }
  | 'u' => some { flags with unicode := on }
  | 'x' => some { flags with verbose := on }
  | 'R' => some { flags with carriageReturn := on }
  | _ => none

/-- Reads switches up to a colon or a closing parenthesis. A hyphen turns the switches behind it
off; nothing may be written twice, and a hyphen may not come last. `seen` is what has been read,
the latest first. -/
def readSwitches? : List Char → Flags → List Char → Option (Flags × List Char × List Char)
  | _, _, [] => none
  | seen, flags, c :: cs =>
    if c = ':' ∨ c = ')' then
      if seen.head? = some '-' then none else some (flags, seen, c :: cs)
    else if seen.contains c then none
    else if c = '-' then readSwitches? ('-' :: seen) flags cs
    else
      match flags.switch? c (!seen.contains '-') with
      | some flags => readSwitches? (c :: seen) flags cs
      | none => none

/-- Whether a name may begin with a character. -/
def isNameStart (c : Char) : Bool := c == '_' || isAlphabetic c

/-- Whether a name may go on with a character. -/
def isNamePart (c : Char) : Bool :=
  c == '_' || c == '.' || c == '[' || c == ']' || isAlphanumeric c

/-- Reads the name of a group behind its opening angle bracket. -/
def readName? (cs : List Char) : Option (List Char × List Char) :=
  match cutFirst '>' cs with
  | some (c :: name, rest) =>
    if isNameStart c && name.all isNamePart then some (c :: name, rest) else none
  | _ => none

/-- Adds a group with a name, which may not have been given before. -/
def openNamed? (p : Progress) (cs : List Char) : Option (Progress × List Char) :=
  match readName? cs with
  | some (name, rest) =>
    if p.names.contains name then none
    else some ({ p with names := name :: p.names }.openGroup p.flags, rest)
  | none => none

/-- Reads what follows an opening parenthesis: a group, with or without a name or switches of its
own, or switches for the rest of the group around. Looking around is refused. -/
def readOpening? (p : Progress) (cs : List Char) : Option (Progress × List Char) :=
  match skipBlanks p.flags cs with
  | '?' :: '=' :: _ | '?' :: '!' :: _ | '?' :: '<' :: '=' :: _ | '?' :: '<' :: '!' :: _ => none
  | '?' :: 'P' :: '<' :: rest => openNamed? p rest
  | '?' :: '<' :: rest => openNamed? p rest
  | '?' :: rest =>
    match readSwitches? [] p.flags rest with
    | some (flags, _, ':' :: rest) => some (p.openGroup flags, rest)
    | some (flags, seen, _ :: rest) =>
      if seen.isEmpty then none
      else some ({ p with flags, group := { p.group with items := none :: p.group.items } }, rest)
    | _ => none
  | rest => some (p.openGroup p.flags, rest)

/-- Takes digits in front, with blanks between them. -/
def takeDigits (flags : Flags) : Nat → List Char → List Char × List Char
  | 0, cs => ([], cs)
  | fuel + 1, cs =>
    match cs with
    | [] => ([], [])
    | c :: rest =>
      if c.isDigit then
        let (digits, rest) := takeDigits flags fuel (skipBlanks flags rest)
        (c :: digits, rest)
      else ([], cs)

/-- Reads a number with white space around it; the digits may be missing. -/
def readCount (flags : Flags) (cs : List Char) : Option Nat × List Char :=
  let (digits, rest) := takeDigits flags (cs.length + 1) (cs.dropWhile isSpace)
  (unsigned? largest32 digits, rest.dropWhile isSpace)

/-- Reads the bounds of a repetition behind its opening brace. -/
def readBounds? (flags : Flags) (cs : List Char) :
    Option (Nat × Option Nat × List Char) := do
  let (first, rest) := readCount flags (skipBlanks flags cs)
  let least ← first
  match rest with
  | '}' :: rest => return (least, some least, rest)
  | ',' :: rest =>
    match skipBlanks flags rest with
    | '}' :: rest => return (least, none, rest)
    | rest =>
      let (second, rest) := readCount flags rest
      let most ← second
      match rest with
      | '}' :: rest => if least ≤ most then return (least, some most, rest) else none
      | _ => none
  | _ => none

/-- Drops a question mark, which only says in which order matches are tried. -/
def dropLazy : List Char → List Char
  | '?' :: cs => cs
  | cs => cs

/-- The condition that `^` stands for. -/
def startLook (flags : Flags) : Look :=
  if flags.multiLine then if flags.carriageReturn then .lineStartReturn else .lineStart
  else .textStart

/-- The condition that `$` stands for. -/
def endLook (flags : Flags) : Look :=
  if flags.multiLine then if flags.carriageReturn then .lineEndReturn else .lineEnd
  else .textEnd

/-- The set that `.` stands for. -/
def dotSet (flags : Flags) : CharSet :=
  if flags.dotNewline then .property .any
  else if flags.carriageReturn then .compl (.union (.single '\n') (.single '\r'))
  else .compl (.single '\n')

/-- A set as a part of a pattern. Without Unicode a set has to be within ASCII, which leaves out
every complement. -/
def setTerm? (flags : Flags) (s : CharSet) : Option Regex :=
  if flags.unicode || !s.usesComplement then some (.set s) else none

/-- The part of a pattern that an escape stands for. -/
def escapeTerm? (flags : Flags) : Escape → Option Regex
  | .char c byte =>
    if byte && !flags.unicode && 128 ≤ c.toNat then none
    else some (.set (foldIf flags (.single c)))
  | .set s => setTerm? flags s
  | .look l => some (.look l)

/-- Reads a part that is a single character, condition or escape. -/
def readLeaf? (flags : Flags) : Char → List Char → Option (Regex × List Char)
  | '\\', cs => do
    let (e, rest) ← readEscape? flags cs
    return (← escapeTerm? flags e, rest)
  | '.', cs => if flags.unicode then some (.set (dotSet flags), cs) else none
  | '^', cs => some (.look (startLook flags), cs)
  | '$', cs => some (.look (endLook flags), cs)
  | c, cs => some (.set (foldIf flags (.single c)), cs)

/-- Reads on from a character. -/
def readNext? (p : Progress) (c : Char) (cs : List Char) : Option (Progress × List Char) :=
  match c with
  | '(' => readOpening? p cs
  | ')' => p.closeGroup?.map (·, cs)
  | '|' => some ({ p with group := p.group.nextChoice }, cs)
  | '[' => do
    let (part, rest) ← readBracket? p.flags cs
    return (p.add ⟨← setTerm? p.flags part.set, part.height⟩, rest)
  | '?' => (p.repeatLast? 0 (some 1)).map (·, dropLazy cs)
  | '*' => (p.repeatLast? 0 none).map (·, dropLazy cs)
  | '+' => (p.repeatLast? 1 none).map (·, dropLazy cs)
  | '{' => do
    let (least, most, rest) ← readBounds? p.flags cs
    return (← p.repeatLast? least most, dropLazy (skipBlanks p.flags rest))
  | _ => (readLeaf? p.flags c cs).map fun (r, rest) => (p.add (.leaf r), rest)

/-- Reads a pattern to its end; `fuel` bounds the number of parts. -/
def readAll? : Nat → Progress → List Char → Option Term
  | 0, _, _ => none
  | fuel + 1, p, cs =>
    match skipBlanks p.flags cs with
    | [] => if p.outer.isEmpty then some p.group.close else none
    | c :: rest =>
      match readNext? p c rest with
      | some (p, rest) => readAll? fuel p rest
      | none => none

/-- The greatest height of nesting. -/
def greatestHeight : Nat := 250

/-- The greatest weight of a pattern. -/
def greatestWeight : Nat := 10 <<< 20

/-- The pattern that a text writes, for a search that ignores case. -/
def Regex.parse? (text : String) : Option Regex := do
  let cs := text.toList
  let t ← readAll? (cs.length + 1) ⟨.search, [], .start .search, []⟩ cs
  if t.height ≤ greatestHeight && t.regex.weight ≤ greatestWeight then some t.regex else none

end NoteVault.Pattern
