import NoteVault.Unicode.Alphabet
import NoteVault.Unicode.Space
import NoteVault.Unicode.Lowercase
import NoteVault.Unicode.Folding
import NoteVault.Unicode.Script
import NoteVault.Unicode.Trait

/-!
Sets of characters, as patterns write them, and membership.
-/

namespace NoteVault.Pattern

open Unicode

/-- A named property of characters. -/
inductive Property where
  | any
  | ascii
  | assigned
  | category (group : Category.Group)
  | script (label : Char)
  | alphabetic
  | lowercase
  | uppercase
  | cased
  | caseIgnorable
  | space
  | word
  | digit
  | identifierStart
  | identifierPart
  /-- Beginning an identifier in every equivalent form. -/
  | stableStart
  /-- Following in an identifier in every equivalent form. -/
  | stablePart
  | extending
  | clusterBase
  /-- Changing when put in lower case. -/
  | lowerable
  /-- Any other property that is given by a table. -/
  | listed (set : FlipSet)
  deriving DecidableEq, Repr

/-- Whether a character has a property. -/
def Property.holds (property : Property) (c : Char) : Bool :=
  match property with
  | .any => true
  | .ascii => c.toNat < 128
  | .assigned => Category.of c != .unassigned
  | .category group => group.contains (Category.of c)
  | .script label => scriptOf c == label
  | .alphabetic => isAlphabetic c
  | .lowercase =>
    Category.of c == .lowercaseLetter || (otherCased.contains c.toNat && lowercaseChar c == c)
  | .uppercase =>
    Category.of c == .uppercaseLetter || (otherCased.contains c.toNat && lowercaseChar c != c)
  | .cased => isCased c
  | .caseIgnorable => isCaseIgnorable c
  | .space => isSpace c
  | .word => isWordChar c
  | .digit => isDecimal c
  | .identifierStart => isIdentifierStart c
  | .identifierPart => isIdentifierPart c
  | .stableStart => isIdentifierStart c && !unstableStart.contains c.toNat
  | .stablePart => isIdentifierPart c && !unstablePart.contains c.toNat
  | .extending => isExtending c
  | .clusterBase => isClusterBase c
  | .lowerable => lowercaseAt [] c [] != [c]
  | .listed set => set.contains c.toNat

/-- The weight of a property: about the number of bytes that a table of its ranges takes. -/
def Property.weight : Property → Nat
  | .any | .ascii | .space => 200
  | .digit => 5000
  | .listed set => 30 * set.flips.size
  | _ => 60000

/-- A set of characters. -/
inductive CharSet where
  | empty
  /-- The characters from `first` to `last`, both included. -/
  | range (first last : Char)
  | property (p : Property)
  | union (a b : CharSet)
  | inter (a b : CharSet)
  | diff (a b : CharSet)
  | symmDiff (a b : CharSet)
  | compl (a : CharSet)
  /-- The characters of a set together with all their case variants. -/
  | folded (a : CharSet)
  /-- The characters of a set together with the other case of their ASCII letters. -/
  | asciiFolded (a : CharSet)
  deriving Repr

namespace CharSet

/-- The set of one character. -/
def single (c : Char) : CharSet := .range c c

/-- Whether a character is in a set. -/
def contains : CharSet → Char → Bool
  | .empty, _ => false
  | .range first last, c => first ≤ c && c ≤ last
  | .property p, c => p.holds c
  | .union a b, c => a.contains c || b.contains c
  | .inter a b, c => a.contains c && b.contains c
  | .diff a b, c => a.contains c && !b.contains c
  | .symmDiff a b, c => a.contains c != b.contains c
  | .compl a, c => !a.contains c
  | .folded a, c => a.contains c || (caseVariants c).any a.contains
  | .asciiFolded a, c => a.contains c || a.contains c.toLower || a.contains c.toUpper

/-- Whether a complement occurs in the way a set is written. -/
def usesComplement : CharSet → Bool
  | .empty | .range _ _ | .property _ => false
  | .compl _ => true
  | .union a b | .inter a b | .diff a b | .symmDiff a b =>
    a.usesComplement || b.usesComplement
  | .folded a | .asciiFolded a => a.usesComplement

/-- The weight of a set: about the number of bytes that a table of its ranges takes. -/
def weight : CharSet → Nat
  | .empty => 0
  | .range _ last => if last.toNat < 128 then 8 else 200
  | .property p => p.weight
  | .union a b | .inter a b | .diff a b | .symmDiff a b => a.weight + b.weight
  | .compl a => a.weight + 200
  | .folded a | .asciiFolded a => a.weight

/-- The union of ranges. -/
def ofRanges : List (Char × Char) → CharSet
  | [] => .empty
  | [(a, b)] => .range a b
  | (a, b) :: rest => .union (.range a b) (ofRanges rest)

/-- The sets named between `[:` and `:]`. -/
def asciiNamed? : String → Option CharSet
  | "alnum" => some (ofRanges [('0', '9'), ('A', 'Z'), ('a', 'z')])
  | "alpha" => some (ofRanges [('A', 'Z'), ('a', 'z')])
  | "ascii" => some (ofRanges [('\x00', '\x7f')])
  | "blank" => some (ofRanges [('\t', '\t'), (' ', ' ')])
  | "cntrl" => some (ofRanges [('\x00', '\x1f'), ('\x7f', '\x7f')])
  | "digit" => some (ofRanges [('0', '9')])
  | "graph" => some (ofRanges [('!', '~')])
  | "lower" => some (ofRanges [('a', 'z')])
  | "print" => some (ofRanges [(' ', '~')])
  | "punct" => some (ofRanges [('!', '/'), (':', '@'), ('[', '\x60'), ('\x7b', '~')])
  | "space" => some (ofRanges [('\t', '\r'), (' ', ' ')])
  | "upper" => some (ofRanges [('A', 'Z')])
  | "word" => some (ofRanges [('0', '9'), ('A', 'Z'), ('_', '_'), ('a', 'z')])
  | "xdigit" => some (ofRanges [('0', '9'), ('A', 'F'), ('a', 'f')])
  | _ => none

end CharSet

end NoteVault.Pattern
