import NoteVault.Pattern.Escape

/-!
Sets in brackets. A reader walks through the characters with a stack of the brackets that are
open; each of them holds the union read so far and the operator that waits for it.
-/

namespace NoteVault.Pattern

open Unicode Text

/-- An operator between the parts of a set in brackets. -/
inductive SetOperator where
  | intersection
  | difference
  | symmetricDifference
  deriving DecidableEq, Repr

/-- A part of a set in brackets, with the height of its nesting. -/
structure Part where
  set : CharSet
  height : Nat

/-- A bracket that is open: the parts read so far, and the part and operator in front of them. -/
structure OpenBracket where
  negated : Bool
  parts : List Part
  waiting : Option (Part × SetOperator)

namespace OpenBracket

/-- Adds a part. -/
def add (b : OpenBracket) (part : Part) : OpenBracket := { b with parts := part :: b.parts }

/-- Adds a set that is not nested. -/
def addSet (b : OpenBracket) (s : CharSet) : OpenBracket := b.add ⟨s, 0⟩

/-- The union of the parts read since the last operator. -/
def union (b : OpenBracket) : Part :=
  match b.parts with
  | [] => ⟨.empty, 0⟩
  | [part] => part
  | parts =>
    ⟨parts.foldl (fun s part => .union part.set s) .empty,
      parts.foldl (fun h part => max h part.height) 0 + 1⟩

/-- The union of the parts, joined with what waits in front of it. -/
def joined (flags : Flags) (b : OpenBracket) : Part :=
  let right := b.union
  match b.waiting with
  | none => right
  | some (left, op) =>
    let l := foldIf flags left.set
    let r := foldIf flags right.set
    let s := match op with
      | .intersection => CharSet.inter l r
      | .difference => .diff l r
      | .symmetricDifference => .symmDiff l r
    ⟨s, max left.height right.height + 1⟩

/-- The parts so far become what waits for an operator's right side. -/
def operator (flags : Flags) (b : OpenBracket) (op : SetOperator) : OpenBracket :=
  { b with parts := [], waiting := some (b.joined flags, op) }

/-- The finished set of a bracket. -/
def close (flags : Flags) (b : OpenBracket) : Part :=
  let part := b.joined flags
  ⟨negateIf b.negated (foldIf flags part.set), part.height + 1⟩

end OpenBracket

/-- Reads the hyphens at the beginning of a bracket, which stand for themselves. -/
def readHyphens (flags : Flags) : Nat → OpenBracket → List Char → OpenBracket × List Char
  | fuel + 1, b, '-' :: cs =>
    readHyphens flags fuel (b.addSet (.single '-')) (skipBlanks flags cs)
  | _, b, cs => (b, cs)

/-- Reads the beginning of a bracket behind `[`: a negation, hyphens, and a closing bracket in
front of everything else, which stands for itself. -/
def openBracket? (flags : Flags) (cs : List Char) : Option (OpenBracket × List Char) :=
  let cs := skipBlanks flags cs
  let (negated, cs) := match cs with
    | '^' :: rest => (true, skipBlanks flags rest)
    | _ => (false, cs)
  let (b, cs) := readHyphens flags cs.length ⟨negated, [], none⟩ cs
  match cs with
  | [] => none
  | ']' :: rest =>
    if b.parts.isEmpty then
      match skipBlanks flags rest with
      | [] => none
      | rest => some (b.addSet (.single ']'), rest)
    else some (b, cs)
  | _ => some (b, cs)

/-- Reads a named set such as `[:alpha:]` behind its first bracket. -/
def readNamedSet? (flags : Flags) : List Char → Option (CharSet × List Char)
  | ':' :: cs =>
    let (negated, cs) := match cs with
      | '^' :: rest => (true, rest)
      | _ => (false, cs)
    let name := cs.takeWhile (· != ':')
    match cs.dropWhile (· != ':') with
    | ':' :: ']' :: rest =>
      (CharSet.asciiNamed? (String.ofList name)).map fun s =>
        (negateIf negated (foldIf flags s), rest)
    | _ => none
  | _ => none

/-- Reads one end of a range, or a part on its own. -/
def readSetItem? (flags : Flags) : List Char → Option (Escape × List Char)
  | [] => none
  | '\\' :: cs => readEscape? flags cs
  | c :: cs => some (.char c false, cs)

/-- The character that an escape stands for in a set; without Unicode, it has to be ASCII. -/
def setChar? (flags : Flags) : Escape → Option Char
  | .char c _ => if flags.unicode || c.toNat < 128 then some c else none
  | _ => none

/-- The set that an escape stands for inside brackets. -/
def setOfEscape? (flags : Flags) : Escape → Option CharSet
  | .set s => some s
  | .look _ => none
  | e => (setChar? flags e).map .single

/-- Reads a part of a set in brackets: a range, a character or a class. -/
def readSetPart? (flags : Flags) (cs : List Char) : Option (CharSet × List Char) := do
  let (first, rest) ← readSetItem? flags cs
  let rest := skipBlanks flags rest
  match rest with
  | [] => none
  | '-' :: more =>
    let next := (skipBlanks flags more).head?
    if next == some ']' || next == some '-' then return (← setOfEscape? flags first, rest)
    else
      let (last, rest) ← readSetItem? flags (skipBlanks flags more)
      let lo ← setChar? flags first
      let hi ← setChar? flags last
      if lo ≤ hi then return (.range lo hi, rest) else none
  | _ => return (← setOfEscape? flags first, rest)

/-- Reads a set in brackets behind its opening bracket; `outer` are the brackets around the one
being read, and `fuel` bounds the number of parts. -/
def readBracketFrom? (flags : Flags) :
    Nat → List OpenBracket → OpenBracket → List Char → Option (Part × List Char)
  | 0, _, _, _ => none
  | fuel + 1, outer, b, cs =>
    match skipBlanks flags cs with
    | [] => none
    | '[' :: rest =>
      match readNamedSet? flags rest with
      | some (s, rest) => readBracketFrom? flags fuel outer (b.addSet s) rest
      | none =>
        match openBracket? flags rest with
        | some (inner, rest) => readBracketFrom? flags fuel (b :: outer) inner rest
        | none => none
    | ']' :: rest =>
      match outer with
      | [] => some (b.close flags, rest)
      | around :: outer => readBracketFrom? flags fuel outer (around.add (b.close flags)) rest
    | '&' :: '&' :: rest =>
      readBracketFrom? flags fuel outer (b.operator flags .intersection) rest
    | '-' :: '-' :: rest => readBracketFrom? flags fuel outer (b.operator flags .difference) rest
    | '~' :: '~' :: rest =>
      readBracketFrom? flags fuel outer (b.operator flags .symmetricDifference) rest
    | cs =>
      match readSetPart? flags cs with
      | some (s, rest) => readBracketFrom? flags fuel outer (b.addSet s) rest
      | none => none

/-- Reads a set in brackets behind its opening bracket. -/
def readBracket? (flags : Flags) (cs : List Char) : Option (Part × List Char) := do
  let (b, rest) ← openBracket? flags cs
  readBracketFrom? flags (rest.length + 1) [] b rest

end NoteVault.Pattern
