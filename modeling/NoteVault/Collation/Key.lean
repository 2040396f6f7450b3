import NoteVault.Collation.Basic
import NoteVault.Collation.Table
import NoteVault.Unicode.Alphabet
import NoteVault.Unicode.Lowercase
import NoteVault.Unicode.Script
import NoteVault.Unicode.Trait

/-!
A collator by tables. A text has a key, and texts are compared by their keys: first by their base
characters, then by their accents; case does not count. Only the outermost layer chooses this
collator; nothing else depends on it.
-/

namespace NoteVault.Collation

open Unicode

/-- What a character contributes to a key. -/
inductive Weight where
  | base (primary : Nat)
  | accent (secondary : Nat)
  deriving DecidableEq, Repr

/-- The number of code points. -/
def codePoints : Nat := 0x110000

/-- The primary weight behind a rank: there is room for a number of groups of characters, and in
each of them for all code points. -/
def primaryBehind (rank group point : Nat) : Nat := (rank * 0x100 + group) * codePoints + point

/-- Each script, the rank after which its letters stand, and its place among the scripts that stand
there. -/
def scriptPlaces : List (Char × Nat × Nat) :=
  scriptGroups.flatMap fun (rank, names) =>
    names.zipIdx.filterMap fun (name, place) =>
      (scriptNamed? name).map fun script => (script, rank, place)

/-- Whether a character is in an extension of the first block of Han characters. -/
def isHanExtension (point : Nat) : Bool :=
  (0x3400 ≤ point && point < 0x4dc0) || 0x20000 ≤ point

/-- The weight of a letter that the tables do not list: scripts stand in their order, the letters of
one script in the order of their code points, and Han characters come last, those of the first
block before its extensions. -/
def unlistedLetter (c : Char) : Weight :=
  match scriptPlaces.lookup (scriptOf c) with
  | some (rank, place) =>
    let group := if isHanExtension c.toNat then place + 1 else place
    .base (primaryBehind rank group c.toNat)
  | none => .base (primaryBehind lastAlphabeticRank 0 c.toNat)

/-- The weight of a character that the tables do not list: symbols follow the listed symbols,
letters stand where their script does, and characters that are not assigned come last. Controls
have no weight, nor have marks that are no letters. -/
def unlistedWeights (c : Char) : List Weight :=
  match Category.of c with
  | .control | .format => []
  | .nonspacingMark | .enclosingMark | .spacingMark =>
    if isAlphabetic c then [unlistedLetter c] else []
  | .unassigned | .privateUse | .surrogate => [.base (primaryBehind (rankCount + 1) 0 c.toNat)]
  | .lowercaseLetter | .modifierLetter | .otherLetter | .titlecaseLetter | .uppercaseLetter
  | .decimalNumber | .letterNumber | .otherNumber => [unlistedLetter c]
  | _ => [.base (primaryBehind lastSymbolRank 0 c.toNat)]

/-- The weight of a listed base character or accent. -/
def listedWeight? (point : Nat) : Option Weight :=
  match rank? point with
  | some rank => some (.base (primaryBehind rank 0 0))
  | none => (accentRank? point).map .accent

/-- The listed characters that a character sorts as: the ones it expands to, the one it is like,
or itself. -/
def likeness? (c : Char) : Option (List Weight) :=
  let point := c.toNat
  match if point < 128 then none else expansion? point with
  | some points => points.mapM listedWeight?
  | none =>
    match if point < 128 then none else likenessRuns.findSome? (·.image? point) with
    | some other => (listedWeight? other).map ([·])
    | none => (listedWeight? point).map ([·])

/-- The weights of a character; one that is not listed is looked up in lower case. -/
def weights (c : Char) : List Weight :=
  (likeness? c).getD ((likeness? (lowercaseChar c)).getD (unlistedWeights c))

/-- The letter that a letter and the mark behind it sort as. -/
def joined? (c : Char) (mark : Char) : Option Nat :=
  match c.toNat, mark.toNat with
  | 0x6c, 0xb7 | 0x4c, 0xb7 => some 0x140
  | 0x438, 0x306 | 0x418, 0x306 => some 0x439
  | 0x627, 0x653 => some 0x622
  | 0x627, 0x654 => some 0x623
  | 0x648, 0x654 => some 0x624
  | 0x627, 0x655 => some 0x625
  | 0x64a, 0x654 => some 0x626
  | _, _ => none

/-- The vowels that are written before the consonant that they follow in order. -/
def isLeadingVowel (c : Char) : Bool :=
  (traitSet? "logicalorderexception").any (·.contains c.toNat)

/-- Whether a vowel is written before a letter of its script that it follows in order. -/
def leads (vowel c : Char) : Bool :=
  isLeadingVowel vowel && Category.of c == .otherLetter && scriptOf c == scriptOf vowel &&
    !isLeadingVowel c

/-- The weights of a text: a letter and its mark may be one letter, and a leading vowel and its
consonant change places. -/
def textWeights : List Char → List Weight
  | [] => []
  | [c] => weights c
  | c :: d :: cs =>
    match joined? c d with
    | some letter => weights (Char.ofNat letter) ++ textWeights cs
    | none =>
      if leads c d then weights d ++ weights c ++ textWeights cs
      else weights c ++ textWeights (d :: cs)

/-- What a weight is in the first comparison. -/
def Weight.primary? : Weight → Option Nat
  | .base primary => some primary
  | .accent _ => none

/-- What a weight is in the second comparison: a base character counts less than any accent. -/
def Weight.secondary : Weight → Nat
  | .base _ => 0
  | .accent secondary => secondary + 1

/-- What texts are compared by. -/
structure Key where
  primaries : List Nat
  secondaries : List Nat
  deriving DecidableEq, Repr

/-- The key of a text. -/
def key (text : String) : Key :=
  let ws := textWeights text.toList
  ⟨ws.filterMap Weight.primary?, ws.map Weight.secondary⟩

/-- Compares lists of numbers; at the first difference the smaller number decides, and a list
comes before those that continue it. -/
def compareLists : List Nat → List Nat → Ordering
  | [], [] => .eq
  | [], _ :: _ => .lt
  | _ :: _, [] => .gt
  | a :: as, b :: bs => (compare a b).then (compareLists as bs)

/-- Compares keys: accents decide only between texts with the same base characters. -/
def Key.compare (a b : Key) : Ordering :=
  (compareLists a.primaries b.primaries).then (compareLists a.secondaries b.secondaries)

/-- The collator that compares texts by their keys. -/
@[reducible] def byKeys : Collator := ⟨some fun a b => (key a).compare (key b)⟩

end NoteVault.Collation
