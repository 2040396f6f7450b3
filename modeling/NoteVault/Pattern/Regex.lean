import NoteVault.Pattern.CharSet

/-!
Patterns as values, and where they match. A set of places in a text is a list of truth values,
one for each place, the place behind the last character included; a pattern takes the places
where a match may begin to the places where it may end.
-/

namespace NoteVault.Pattern

open Unicode

/-- A condition on a place in a text. -/
inductive Look where
  | textStart
  | textEnd
  | lineStart
  | lineEnd
  /-- Line ends may also be written with a carriage return. -/
  | lineStartReturn
  | lineEndReturn
  | wordBoundary (ascii : Bool)
  | notWordBoundary (ascii : Bool)
  | wordStart (ascii : Bool)
  | wordEnd (ascii : Bool)
  | wordStartHalf (ascii : Bool)
  | wordEndHalf (ascii : Bool)
  deriving DecidableEq, Repr

/-- Whether there is a word character next to a place. -/
def isWordAt (ascii : Bool) : Option Char → Bool
  | none => false
  | some c => if ascii then c.isAlphanum || c == '_' else isWordChar c

/-- Whether a condition holds between two neighbouring characters; at the ends of the text one
of them is missing. -/
def Look.holds (look : Look) (before after : Option Char) : Bool :=
  match look with
  | .textStart => before.isNone
  | .textEnd => after.isNone
  | .lineStart => before.isNone || before == some '\n'
  | .lineEnd => after.isNone || after == some '\n'
  | .lineStartReturn =>
    before.isNone || before == some '\n' || (before == some '\r' && after != some '\n')
  | .lineEndReturn =>
    after.isNone || after == some '\r' || (after == some '\n' && before != some '\r')
  | .wordBoundary ascii => isWordAt ascii before != isWordAt ascii after
  | .notWordBoundary ascii => isWordAt ascii before == isWordAt ascii after
  | .wordStart ascii => !isWordAt ascii before && isWordAt ascii after
  | .wordEnd ascii => isWordAt ascii before && !isWordAt ascii after
  | .wordStartHalf ascii => !isWordAt ascii before
  | .wordEndHalf ascii => !isWordAt ascii after

/-- A pattern. -/
inductive Regex where
  /-- Matches the empty text. -/
  | empty
  /-- Matches one character of a set. -/
  | set (s : CharSet)
  /-- Matches the empty text where a condition holds. -/
  | look (l : Look)
  | cat (a b : Regex)
  | alt (a b : Regex)
  /-- Between `least` and `most` matches in a row. -/
  | repeated (r : Regex) (least : Nat) (most : Option Nat)
  deriving Repr

namespace Regex

/-- Moves each place past the next character, if that is in the set. -/
def advance (s : CharSet) : List Char → List Bool → List Bool
  | c :: cs, here :: rest => (here && s.contains c) :: advance s cs rest
  | _, _ => []

/-- Keeps the places where a condition holds; `before` is the character in front of the first
place. -/
def keepWhere (l : Look) : Option Char → List Char → List Bool → List Bool
  | _, _, [] => []
  | before, [], here :: rest => (here && l.holds before none) :: rest
  | before, c :: cs, here :: rest =>
    (here && l.holds before (some c)) :: keepWhere l (some c) cs rest

/-- The union of two sets of places. -/
def eitherPlace (a b : List Bool) : List Bool := List.zipWith (· || ·) a b

/-- Applies a step a number of times, or until it changes nothing. -/
def iterate (step : List Bool → List Bool) : Nat → List Bool → List Bool
  | 0, places => places
  | n + 1, places =>
    let next := step places
    if next = places then places else iterate step n next

/-- The places where a match that begins at one of the given places may end. A repetition needs
no more rounds than the text has places, because a round that moves no place changes nothing. -/
def ends (text : List Char) : Regex → List Bool → List Bool
  | .empty, places => places
  | .set s, places => false :: advance s text places
  | .look l, places => keepWhere l none text places
  | .cat a b, places => ends text b (ends text a places)
  | .alt a b, places => eitherPlace (ends text a places) (ends text b places)
  | .repeated r least most, places =>
    let rounds := text.length + 1
    let required := iterate (ends text r) (min least rounds) places
    let optional := match most with
      | none => rounds
      | some m => min (m - least) rounds
    iterate (fun p => eitherPlace p (ends text r p)) optional required

/-- Whether a pattern matches some part of a text. -/
def isMatch (r : Regex) (text : List Char) : Bool :=
  (ends text r (List.replicate (text.length + 1) true)).any id

/-- Whether a pattern can only match the empty text. -/
def onlyEmpty : Regex → Bool
  | .empty | .look _ => true
  | .set _ => false
  | .cat a b | .alt a b => a.onlyEmpty && b.onlyEmpty
  | .repeated r _ most => r.onlyEmpty || most == some 0

/-- The number of copies of a pattern that a repetition stands for. -/
def copies (least : Nat) : Option Nat → Nat
  | none => max least 1
  | some most => max least most

/-- The weight of a pattern: about the number of bytes it takes with its repetitions written
out. A repetition of the empty text counts once. -/
def weight : Regex → Nat
  | .empty | .look _ => 32
  | .set s => 64 + s.weight
  | .cat a b => a.weight + b.weight
  | .alt a b => a.weight + b.weight + 32
  | .repeated r least most =>
    let n := copies least most
    (if r.onlyEmpty then min n 1 else n) * r.weight + 32

end Regex

end NoteVault.Pattern
