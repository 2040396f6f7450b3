import NoteVault.Unicode.Segments

/-!
The general category of each code point, and the names by which categories and groups of
categories are asked for.
-/

namespace NoteVault.Unicode

/-- The thirty general categories of the character database. -/
inductive Category where
  | control
  | format
  | unassigned
  | privateUse
  | surrogate
  | lowercaseLetter
  | modifierLetter
  | otherLetter
  | titlecaseLetter
  | uppercaseLetter
  | spacingMark
  | enclosingMark
  | nonspacingMark
  | decimalNumber
  | letterNumber
  | otherNumber
  | connectorPunctuation
  | dashPunctuation
  | closePunctuation
  | finalPunctuation
  | initialPunctuation
  | otherPunctuation
  | openPunctuation
  | currencySymbol
  | modifierSymbol
  | mathSymbol
  | otherSymbol
  | lineSeparator
  | paragraphSeparator
  | spaceSeparator
  deriving DecidableEq, Repr

namespace Category

/-- The category that a label of the table stands for. -/
def ofLabel : Char → Category
  | 'a' => .control
  | 'b' => .format
  | 'd' => .privateUse
  | 'e' => .surrogate
  | 'f' => .lowercaseLetter
  | 'g' => .modifierLetter
  | 'h' => .otherLetter
  | 'i' => .titlecaseLetter
  | 'j' => .uppercaseLetter
  | 'k' => .spacingMark
  | 'l' => .enclosingMark
  | 'm' => .nonspacingMark
  | 'n' => .decimalNumber
  | 'o' => .letterNumber
  | 'p' => .otherNumber
  | 'q' => .connectorPunctuation
  | 'r' => .dashPunctuation
  | 's' => .closePunctuation
  | 't' => .finalPunctuation
  | 'u' => .initialPunctuation
  | 'v' => .otherPunctuation
  | 'w' => .openPunctuation
  | 'x' => .currencySymbol
  | 'y' => .modifierSymbol
  | 'z' => .mathSymbol
  | 'A' => .otherSymbol
  | 'B' => .lineSeparator
  | 'C' => .paragraphSeparator
  | 'D' => .spaceSeparator
  | _ => .unassigned

/-- Where the segments of constant category start. -/
def segmentStarts : Array Nat := readStarts
  "0 w 1 3 1 3 1 1 1 1 1 1 2 a 2 3 2 q 1 1 1 1 1 1 q 1 1 1 1 x 1 1 4 1 1 1 1 1 1 1 1 1 1 1 1 2 1 1
    2 1 1 1 1 3 1 n 1 7 o 1 8 1 1 1 1 1 1 1 1 1 1 1 1 1 1 1 1 1 1 1 1 1 1 1 1 1 1 1 1 1 1 1 1 1 1
    1 1 1 1 1 1 1 1 1 1 1 1 1 1 1 1 1 1 1 1 1 2 1 1 1 1 1 1 1 1 1 1 1 1 1 1 1 2 1 1 1 1 1 1 1 1 1
    1 1 1 1 1 1 1 1 1 1 1 1 1 1 1 1 1 1 1 1 1 1 1 1 1 1 1 1 1 1 1 1 1 1 1 1 1 2 1 1 1 1 3 2 1 1 1
    2 1 3 2 4 1 2 1 3 3 2 1 2 1 1 1 1 1 2 1 1 2 1 1 2 1 3 1 1 1 2 2 1 1 3 4 1 1 1 1 1 1 1 1 1 1 1
    1 1 1 1 1 1 1 1 1 1 1 1 1 2 1 1 1 1 1 1 1 1 1 1 1 1 1 1 1 1 1 2 1 1 1 1 1 3 1 1 1 1 1 1 1 1 1
    1 1 1 1 1 1 1 1 1 1 1 1 1 1 1 1 1 1 1 1 1 1 1 1 1 1 1 1 1 1 1 1 1 1 1 1 1 1 1 1 1 1 1 1 1 1 1
    1 1 7 2 1 2 2 1 1 4 1 1 1 1 1 1 1 1 1x 1 r i 4 c e 5 7 1 1 1 h 34 1 1 1 1 1 1 1 1 2 1 3 1 1 4
    2 1 1 3 1 1 1 2 1 h 1 9 z 1 2 3 3 1 1 1 1 1 1 1 1 1 1 1 1 1 1 1 1 1 1 1 1 1 1 1 5 1 1 1 1 1 2
    2 1f 1c 1 1 1 1 1 1 1 1 1 1 1 1 1 1 1 1 1 1 1 1 1 1 1 1 1 1 1 1 1 1 1 1 1 1 1 5 2 1 1 1 1 1 1
    1 1 1 1 1 1 1 1 1 1 1 1 1 1 1 1 1 1 1 1 1 1 1 1 1 1 1 1 1 1 1 1 1 1 1 1 1 1 1 1 1 1 1 1 1 1 1
    1 2 1 1 1 1 1 1 1 1 1 1 1 1 2 1 1 1 1 1 1 1 1 1 1 1 1 1 1 1 1 1 1 1 1 1 1 1 1 1 1 1 1 1 1 1 1
    1 1 1 1 1 1 1 1 1 1 1 1 1 1 1 1 1 1 1 1 1 1 1 1 1 1 1 1 1 1 1 1 1 1 1 1 1 1 1 1 1 1 1 1 1 1 1
    1 1 1 1 1 1 1 1 1 1 1 1 1 1 1 1 1 1 12 2 1 6 15 1 1 2 2 1 1 19 1 1 1 2 1 2 1 1 8 r 4 4 2 b 6 3
    2 1 2 2 b 1 1 3 w 1 a l a 4 2 1 2r 1 1 7 1 1 6 2 2 1 4 2 a 3 2 1 e 1 1 1 1 u r 2 2h b 1 e a x
    9 2 1 3 1 2 1 2 m 4 1 9 1 3 1 5 2 f 1 p 3 2 1 1 b 5 o 1 6 1 2 5 9 15 1 o 1 w 1 1i 1 1 1 1 3 8
    4 1 2 1 7 a 2 2 a 1 1 f 1 2 1 8 2 2 2 m 1 7 1 1 3 4 2 1 1 3 4 2 2 2 2 1 1 8 1 4 2 1 3 2 2 a 2
    2 6 1 1 1 1 1 2 2 1 1 6 4 2 2 m 1 7 1 2 1 2 1 2 2 1 1 3 2 4 2 2 3 3 1 7 4 1 1 7 a 2 3 1 1 a 2
    1 1 9 1 3 1 m 1 7 1 2 1 5 2 1 1 3 5 1 2 1 1 2 1 2 1 f 2 2 2 a 1 1 7 1 6 1 1 2 1 8 2 2 2 m 1 7
    1 2 1 5 2 1 1 1 1 1 4 2 2 2 2 1 7 2 1 4 2 1 3 2 2 a 1 1 6 a 1 1 1 6 3 3 1 4 3 2 1 1 1 2 3 2 3
    3 3 c 4 2 1 2 3 3 1 3 1 2 1 6 1 e a 3 6 1 1 5 1 3 1 8 1 3 1 n 1 g 2 1 1 3 4 1 3 1 4 7 2 1 3 2
    1 2 2 2 2 a 7 1 7 1 1 1 2 1 8 1 3 1 n 1 a 1 5 2 1 1 1 1 5 1 1 2 1 2 2 7 2 6 2 1 2 2 2 a 1 2 1
    c 2 2 9 1 3 1 15 2 1 3 4 1 3 1 3 1 1 1 4 3 1 7 3 2 2 a 9 1 6 1 1 2 1 i 3 o 1 9 1 1 2 7 3 1 4 3
    3 1 1 1 8 6 a 2 2 1 c 1c 1 2 7 4 1 6 1 8 1 a 2 11 2 1 1 1 5 1 o 1 1 1 a 1 2 9 1 2 5 1 1 1 7 1
    a 2 4 w 1 3 f 1 1 3 2 6 a a 1 1 1 1 1 1 1 1 1 1 2 8 1 10 4 e 1 5 1 2 5 b 1 10 1 8 1 6 1 2 5 4
    2 11 17 2 4 1 6 1 2 2 2 1 a 6 6 2 2 4 3 1 3 2 7 3 4 d 1 2 2 6 1 1 1 a 3 1 2 12 1 1 5 1 2 17 1
    1 3 95 1 4 2 7 1 1 1 4 2 15 1 4 2 x 1 4 2 7 1 1 1 4 2 f 1 1l 1 4 2 1v 2 3 9 k 3 g a 6 2e 2 6 2
    1 h8 1 1 h 1 q 1 1 3 23 3 3 8 7 i 3 1 9 j 2 1 2 9 i 2 c d 1 3 1 2 c 1g 2 1 7 8 1 2 b 3 1 3 1 1
    1 2 a 6 a 6 6 1 4 3 1 1 a 6 z 1 1h 7 5 2 y 1 1 5 1y a v 1 3 4 2 3 4 2 1 6 3 4 1 3 2 a u 2 5 b
    18 4 q 6 a 1 3 y n 2 2 1 2 2 1h 1 1 1 7 1 1 1 1 2 8 6 a 2 1 a 6 a 6 7 1 6 2 e 1 g 1d 4 1 1b 1
    1 5 1 1 5 1 2 8 1 2 a 7 a 9 9 3 2 1 u 1 4 2 2 1 3 2 a 18 1 1 2 3 1 1 3 2 8 4 10 8 8 2 2 3 5 a
    3 3 a u 6 2 9 1 1 5 17 2 3 8 8 3 1 d 1 7 4 1 6 1 2 1 2 1 5 18 1r d 1 y 11 1s 1 1 1 1 1 1 1 1 1
    1 1 1 1 1 1 1 1 1 1 1 1 1 1 1 1 1 1 1 1 1 1 1 1 1 1 1 1 1 1 1 1 1 1 1 1 1 1 1 1 1 1 1 1 1 1 1
    1 1 1 1 1 1 1 1 1 1 1 1 1 1 1 1 1 1 1 1 1 1 1 1 1 1 1 1 1 1 1 1 1 1 1 1 1 1 1 1 1 1 1 1 1 1 1
    1 1 1 1 1 1 1 1 1 1 1 1 1 1 1 1 1 1 1 1 1 1 1 1 1 1 1 1 1 1 1 1 1 1 1 1 1 1 1 1 1 1 1 1 1 1 9
    1 1 1 1 1 1 1 1 1 1 1 1 1 1 1 1 1 1 1 1 1 1 1 1 1 1 1 1 1 1 1 1 1 1 1 1 1 1 1 1 1 1 1 1 1 1 1
    1 1 1 1 1 1 1 1 1 1 1 1 1 1 1 1 1 1 1 1 1 1 1 1 1 1 1 1 1 1 1 1 1 1 1 1 1 1 1 1 1 1 1 1 1 1 1
    1 1 1 9 8 6 2 6 2 8 8 8 8 6 2 6 2 8 1 1 1 1 1 1 1 1 8 8 e 2 8 8 8 8 8 8 5 1 2 4 1 1 1 3 3 1 2
    4 1 3 4 2 2 4 1 3 8 5 3 2 3 1 2 4 1 2 1 b 5 6 2 1 1 1 2 1 1 1 8 1 1 5 1 9 1 1 4 2 3 1 1 1 b 1
    1 1 a 1 5 1 a 1 1 2 6 3 1 1 1 a 3 1 1 1 d 3 x f d 4 1 3 c f 2 1 4 1 2 1 3 2 3 1 1 1 2 1 5 6 1
    1 1 1 1 1 4 1 1 4 1 4 1 2 2 2 5 1 4 1 1 2 1 1 g z 1 1 4 1 2 4 5 5 2 4 1 2 1 2 1 7 1 v 2 2 1 1
    1 v 7g 8 1 1 1 1 k 2 7 1 1 29 1 u p 14 6 20 m b l 1o 26 m 53 1 9 1 1i 8 33 1 6w 1 1 1 1 1 1 1
    1 1 1 1 1 1 1 u 18 5 1 1 v 1 1 1 1 1 1 1 1 1 1 g 74 3n 1 1 1 1 1 1 1 1 1 1 1 1 1 1 1 1 1 1 1 1
    1 1 1r 1 1 1 1 w 1 1 76 1c l 2 6 13 2 w 1 2x 1c 1c 1 1 3 2 1 1 1 1 1 1 4 1 1 2 1 6 2 3 1 1 1 1
    1 1 1 1 1 1 1 1 1 1 1 1 1 1 1 1 1 1 1 1 1 1 1 1 1 1 1 1 1 1 1 1 1 1 1 1 1 1 1 1 1 1 1 1 1 1 1
    1 1 1 1 1 1 1 1 1 1 1 1 1 1 1 1 1 1 1 1 1 1 1 1 1 1 1 1 1 1 1 1 1 1 1 1 1 1 1 1 1 1 1 1 1 1 1
    2 6 1 1 1 1 3 1 1 5 4 1 2 12 1 1 5 1 2 1k 7 1 1 e 1 n 9 7 1 7 1 7 1 7 1 7 1 7 1 7 1 7 1 w 2 1
    1 1 1 3 1 1 1 1 1 9 1 2 1 1 1 1 2 1 1 1 1 1 1 1 1 1 1 5 1 a 2 4 1 1 1 d 2 3 1 1 1 1 1 1 1 1 1
    y q 1 2h c 5y q g 1 3 1 1 1 1 1 1 1 1 1 1 1 1 1 1 2 1 1 1 1 1 1 1 1 1 1 2 1 9 4 2 1 5 2 3 1 1
    1 2 1 2e 2 2 2 2 1 1 2i 1 3 1 5 17 1 2m 1 2 4 a w 12 9 1 g v 1 a u 8 1 f w a 13 f 8w 534 1s
    g7p 1 vr 3 1j 9 14 6 2 7g 1 3 g a 2 k 1 1 1 1 1 1 1 1 1 1 1 1 1 1 1 1 1 1 1 1 1 1 1 1 1 1 1 1
    1 1 1 1 1 1 1 1 1 1 1 1 1 1 1 1 1 1 1 1 3 1 a 1 1 1 1 1 1 1 1 1 1 1 1 1 1 1 1 1 1 1 1 1 1 1 1
    1 1 1 1 1 1 2 2 1y a 2 6 8 n 9 2 1 1 1 1 1 1 1 1 1 1 1 1 1 3 1 1 1 1 1 1 1 1 1 1 1 1 1 1 1 1 1
    1 1 1 1 1 1 1 1 1 1 1 1 1 1 1 1 1 1 1 1 1 1 1 1 1 1 1 1 1 1 1 1 1 1 1 1 1 1 1 1 1 1 1 1 1 1 8
    1 1 1 1 2 1 1 1 1 1 1 1 1 1 1 2 1 1 1 1 1 1 1 1 3 1 1 1 1 1 1 1 1 1 1 1 1 1 1 1 1 1 1 1 1 5 1
    5 1 1 1 1 1 1 1 1 1 1 1 1 1 1 1 4 1 1 1 2 1 2 1 1 1 1 1 1 1 1 1 1 1 1 1 l 3 1 1 1 2 1 7 1 3 1
    4 1 n 2 2 1 4 1 3 6 2 1 1 6 1g 4 8 2 1e g 2 8 2 a 6 i 6 3 1 1 2 1 a s 8 2 n b 2 b 1 t 3 3 1 1b
    1 2 4 2 2 3 d 1 1 a 4 2 5 1 1 9 a 5 1 15 6 2 2 2 2 9 3 1 8 1 1 2 a 2 4 g 1 6 3 1 1 1 1 1e 1 1
    3 2 2 5 2 1 1 1 o 2 1 2 b 1 2 2 2 1 2 1 1 a 6 2 6 2 6 9 7 1 7 1 17 1 4 9 1 2 4 28 z 2 1 2 1 2
    1 1 1 2 a 6 8mc c n 4 1d 4 1kw 4xs a6 2 2y 12 7 c 5 5 1 1 a 1 d 1 5 1 1 1 2 1 2 1 30 h g a3 1
    1 g 1s 2 1i 7 1 w c 1 3 g 7 1 1 1 6 g 1 2 2 1 1 1 1 1 1 1 1 1 1 1 1 1 1 1 1 2 1 1 4 3 3 1 4 1
    1 1 1 1 1 1 3 1 1 3 1 1 1 2 4 5 1 3r 2 1 1 3 1 3 1 1 1 1 1 1 2 a 2 3 2 q 1 1 1 1 1 1 q 1 1 1 1
    1 1 1 1 1 2 a 1 19 2 v 3 6 2 6 2 6 2 3 3 2 1 1 1 2 1 1 4 2 a 3 2 2 c 1 q 1 j 1 2 1 f 2 e y 3f
    5 3 4 19 3 9 1h 4 h 2 3 1 d 3 1 1b 19 1 3m t 3 1d f 1 r 4 w 4 9 k 1 8 1 5 12 5 5 u 1 1 10 4 8
    1 5 16 14 14 26 2 a 6 10 4 10 4 14 8 1g b 1 b 1 f 1 7 1 2 1 b 1 f 1 7 1 2 3 1g c 8n 9 m a 8 o
    6 1 16 1 9 1x 6 2 1 1 18 1 2 3 1 2 n 1 1 8 n 2 7 v 8 9 1c j 1 2 5 5 m 6 3 1 q 5 1 1s 1k 4 2 2
    g 2 1a 1 3 1 2 5 4 4 1 3 1 t 2 3 4 1 9 7 9 7 t 2 1 t 3 w 8 1 s 2 4 5 7 9 1i 3 7 m 2 8 j 5 8 i
    7 4 c 7 28 21 1j 1f d 1f 7 6 10 4 8 a 6 a 4 1 1 m 3 5 1 1 m 8 2 5s v 1 16 1 2 1 2 2 g 3 1j 4 t
    a 1 8 m b 4 5 m i 4 4 12 l 7 k n 9 1 1 1 1h f 7 4 k a 1 2 2 1 9 3 1 19 3 4 2 2 2 1 4 1 a 1 2 p
    7 a 6 3 10 5 1 8 1 a 4 1 2 1 8 z 1 2 1 9 2 1 1c 3 9 2 4 4 4 1 1 1 a 1 1 1 3 1 k b i 1 p 3 3 2
    1 1 2 6 1 2 1 1q 7 1 1 1 4 1 f 1 a 1 6 1b 1 3 8 5 a 6 2 2 1 8 2 2 2 m 1 7 1 2 1 5 1 2 1 2 1 4
    2 2 2 3 2 1 6 1 5 5 2 2 7 3 5 b a 1 1 2 1 1 12 1 1 3 6 1 1 2 1 1 4 1 2 1 1 1 1 1 1 2 1 2 8 2 t
    1h 3 8 2 3 1 1 4 5 a 2 1 1 1 3 u 1c 3 6 1 1 4 2 1 2 2 1 1 8 a 4m 1b 3 4 2 4 2 1 2 n 4 2 y 1c 3
    8 2 1 1 2 3 1 b a 6 d j 17 1 1 1 2 6 1 1 1 1 6 a 6 k s r 2 1 1 1 2 4 1 5 4 a 2 3 1 7 55 18 3 9
    1 2 1 2s w w a 9 c 8 2 1 2 8 1 2 1 o 6 1 2 2 2 1 1 1 1 1 1 1 3 9 a 1y 8 2 13 3 4 2 2 4 1 1 1 1
    1 r 1 a 14 6 1 1 4 8 1 8 1 6 2 3 1a d 1 2 3 1 5 d 21 7 a 52 x 1 e a 6 9 1 11 1 7 1 6 1 1 1 5 a
    a j 3 2 u 2 m 1 1 7 1 2 1 2 21 7 1 2 1 12 6 3 1 1 2 1 7 1 1 8 a 6 6 1 2 1 w 5 1 2 1 2 1 1 1 1
    7 a 8m j 2 2 2 7 2 1 1 d 1 y 2 5 3 2 1 1 1 d a 1 2d 1 f l 8 4 h d 1 pm 2u 33 1 5 b 5g 218 2p 2
    d ts g 1 6 f a 32z 5 g7 5a1 u c 3 3 a 1c6 ft 7 v 1 a 4 2 27 1 a 6 u 2 5 1 a 1c 7 5 4 4 1 1 a a
    1 7 1 l 5 j c0 3 14 2 3 a 5i w w n 4 2t 23 4 1 1 1j 7 4 d 1s 2 1 1 1 b 2 e 4qg 8 ye 15 a 6w7 4
    1 7 1 2 1 83 f 1 t 3 2 1 e 4 8 b0 1s4 2z 5 d 3 9 7 a 2 1 2 1 4 318 6o a 6 c4 24 1a 2 n 9 38 1o
    6u a 13 2 1o 2 3 3 6 8 8 2 7 u 4 1p l 1u 3 1 3e k c k c 2f 9 p 3r q q q 7 1 i q q 1 1 2 2 1 2
    2 2 4 1 8 4 1 1 1 7 1 b q q 2 1 4 2 8 1 7 1 q 2 1 4 1 5 1 1 3 7 1 q q q q q q q q q q q q s 2
    p 1 p 1 6 p 1 p 1 6 p 1 p 1 6 p 1 p 1 6 p 1 p 1 6 1 1 2 1e e8 1j 4 1e 8 1 e 1 2 5 f 5 1 f uo a
    1 k 6 6 5x 7 1 h 2 7 1 2 1 5 5 1q x 1 34 19 3 7 7 2 a 4 1 1 8w u 1 h 18 4 a 5 1 cw r 1 4 a 5y
    u 2 1 a 4 1 dc 7 1 4 1 2 1 f 1 5h 2 9 7 15 y y 7 1 4 a 4 2 lt 1n 1 3 1 4 24 19 1 f 5e 4 1 r 1
    2 1 1 2 1 1 a 1 4 1 1 1 1 6 1 4 1 1 1 1 1 1 3 1 2 1 1 2 1 1 1 1 1 1 1 1 1 1 2 1 1 2 4 1 7 1 4
    1 4 1 1 1 a 1 h 5 3 1 5 1 h 1g 2 7i 18 4 2s c f 2 f 1 f 1 11 a d 4h 1k t d 18 4 9 7 2 e 6 4a
    6z 5 k8 4 h 3 d 3 3b 4 2n 6 c 4 1 f c 4 1k 8 a 6 14 8 u 2 c 4 2 1q 9g c e 2 d 3 a 5 1k 7 f 2 b
    6 9 7 43 1 2k a sm wyo w 37e 6 66 2 4g2 e 5rl f ha 1wi f2 15u 3t7 5 38g f975 1 u 2o 3k 6o 1e6o
    1eke 2 1eke"

/-- The labels of the segments. -/
def segmentLabels : Array Char := readLabels
  "aDvxvwsvzvrvnvzvjwvsyqyfwzszaDvxAvyAhuzbAyAzpyfvyphtpvjzjfzfjfjfjfjfjfjfjfjfjfjfjfjfjfjfjfjfj
    fjfjfjfjfjfjfjfjfjfjfjfjfjfjfjfjfjfjfjfjfjfjfjfjfjfjfjfjfjfjfjfjfjfjfjfjfjfjfjfjfjfjfjfjfjfj
    fjfjfjfjfjfjfjfjfjfjfjfjfjfjfjfjfjfhjfhjifjifjifjfjfjfjfjfjfjfjfjfjfjfjfjfjfjfjfjfjifjfjfjfj
    fjfjfjfjfjfjfjfjfjfjfjfjfjfjfjfjfjfjfjfjfjfjfjfjfjfjfjfjfjfjfjfjfjfjfjfhfgygygygygymjfjfgyjf
    cgfvjcyjvjcjcjfjcjfjfjfjfjfjfjfjfjfjfjfjfjfjfjfjfzjfjfjfjfjfjfjfjfjfjfjfjfjfjfjfjfjfjfjfjfAm
    ljfjfjfjfjfjfjfjfjfjfjfjfjfjfjfjfjfjfjfjfjfjfjfjfjfjfjfjfjfjfjfjfjfjfjfjfjfjfjfjfjfjfjfjfjfj
    fjfjfjfjfjfjfjfjfjfjfjfjfjfjfjfjfjfjfjfjfjfjfjfjfjfjfjfjfjfjfjfjfjfjfjfjfcjcgvfvrcAxcmrmvmvm
    vmchchvcbzvxvAmvbvhghmnvhmhvhmbAmgmAmhnhAhvcbhmhmchmhcnhmgAvgcmxhmgmgmgmcvchmcvchchyhcbcmhgm
    bmkhmkmhkmkmkhmhmvnvghmkchchchchchchcmhkmckckmhckchchmcnhxpAxhvmcmkchchchchchchchcmckmcmcmcm
    chchcnmhmvcmkchchchchchchcmhkmcmkckmchchmcnvxchmcmkchchchchchchcmhkmkmckckmcmkchchmcnAhpcmhc
    hchchchchchchchchckmkckckmchckcnpAxAcmkmhchchchcmhmkcmcmcmchchchmcncvpAhmkvhchchchchcmhkmkcm
    kckmckchchmcnchkcmkhchchmhkmckckmhAchkphmcnpAhcmkchchchchchcmckmcmckcnckvchmhmcxhgmvnvchchch
    chchchmhmhchcgcmcnchchAvAvAmAnpAmAmAmwswskhchcmkmvmhmcmcAmAcAvAvchkmkmkmkmhnvhkmhmhkhkhmhmkm
    kmhknkmAjcjcjcfvgfhchchchchchchchchchchchchchchchcmvpchAcjcfcrhAvhDhwschvohchmkchmkvchmchchc
    mchmkmkmkmvgvxhmcncpcvrvmbmnchghchmhmhchchcmkmkckmkmcAcvnhchchchcnpcAhmkmcvhkmkmcmkmkmkmcmnc
    ncvgvcmlmcmkhmkmkmkmkhcvnvAmAvmkhkmkmkmhnhmkmkmkmkcvhkmkmcvnchnhgvfjfcjcjvcmvmkmhmhmhkmhcfgf
    gfgmjfjfjfjfjfjfjfjfjfjfjfjfjfjfjfjfjfjfjfjfjfjfjfjfjfjfjfjfjfjfjfjfjfjfjfjfjfjfjfjfjfjfjfjf
    jfjfjfjfjfjfjfjfjfjfjfjfjfjfjfjfjfjfjfjfjfjfjfjfjfjfjfjfjfjfjfjfjfjfjfjfjfjfjfjfjfjfjfjfjfjf
    jfjfjfjfjfjfjfjfjfjfjfjfjfjfjfjfjfjfjfjfjfjfjfjfjfjfjfjfjfjfjfjfjfjfjfcjcfjfjfcjcfcjcjcjcjfj
    fcfifififcfjiyfyfcfjiyfcfjcyfjycfcfjiycDbrvutwutwuvBCbDvutvqvzwsvzvqvDbcbpgcpzwsgpzwscgcxcml
    mlmcAjAjAfjfjfAjAzjAjAjAjAjAfjfhfAfjzjfAzAfApojfopAczAzAzAzAzAzAzAzAzAzAwswsAzAwsAzAzAzAcAcp
    ApAzAzAzAzAwswswswswswswspAzwszwswswswswszAzwswswswswswswswswswswszwswszwszAzAzAcAcAjfjfjfjf
    jfjfjfjfjfgjfjfjfjfjfjfjfjfjfjfjfjfjfjfjfjfjfjfjfjfjfjfjfjfjfjfjfjfjfjfjfjfjfjfjfjfjfjfjfjfj
    fjfjfjfjfjfjfjfjfjfAjfjfmjfcvpvfcfcfchcgvcmhchchchchchchchchcmvututvutvutvrvrvutvutwswswswsv
    gvrvrvwvAvwswswswsrcAcAcAcADvAghowswswswswsAwswswswsrwsAomkrgAoghvAchcmyghrhvghchchcApAhAcAh
    AcpApApApApAhAhghcAchgvhgvhnhcjfjfjfjfjfjfjfjfjfjfjfjfjfjfjfjfjfjfjfjfjfjfjfhmlvmvgjfjfjfjfj
    fjfjfjfjfjfjfjfjfjfgmhomvcygyjfjfjfjfjfjfjfjfjfjfjfjfjfjfjfjfjfjfjfjfjfjfjfjfjfjfjfjfjfjfjfj
    fjfjfjfjfjfjfgfjfjfjfjfjfjfjfgyjfjfhjfjfjfjfjfjfjfjfjfjfjfjfjfjfjfjfjfjfjfjfjfjfjfjfcjfcfcfj
    fjfjfjcgjfhgfhmhmhmhkmkAmcpAxAchvckhkmcvncmhvhvhmnhmvhmkcvhcmkhmkmkmkvcgncvhmghnhchmkmkmchmh
    mkcncvhghAhkmkhmhmhmhmhmhchgvhkmkvhgkmchchchchchcfygfgycfhkmkmkvkmcnchchchcedhchcfcfchmhzhch
    chchchchychswAhchcAchxAmvwsvcmvrqwswswswswswswswsvwsvqvcvrwswswsvzrzcvxvchchcbcvxvwsvzvrvnvz
    vjwvsyqyfwzszwsvwsvhghghchchchchcxzyAxcAzAcbAchchchchchchchcvcpcAopApAcAcAcAmchchcmpchpchoho
    chmchcvhchvocjfhcncjcfchchcvjcjcjcjcfcfcfcfchchchchcgcgcgchchchchchchcvphAphcpchchcphpcvhcvc
    hcphpcphmcmcmhchchcmcmpcvchpvhpchAhmcpvchcvhcphcphcvcpchcjcfcphmcncnhghjcmrgfczcpchcmrchchcm
    hphchmpvchmvchpchckmkhmvcpnmhmhcmkhkmkmvbvmcbchcncmhmkmcnvhkhchmvhcmkhkmkhvmvkmnhvhvcpchchkm
    kmkmvmhmchchchchchvchmkmcncmkchchchchchchcmhkmkckckchckchkcmcmchchchchchkmckckckckmkmhmhvcvc
    mchkmkmkmhvnvcvmhchkmkmkmkmhvhcnchkmckmkmvhmchkmkmkmvhcncvchmkmkmkmhvcncnchcmkmkmkmcnpvAhchk
    mkmvcjfnpchchchchchkckcmkmhkhkmvcnchchkmcmkmhvhkchmhmkhmvmchmkmhmkmvhvchcvchvcnchchkmcmkmhvc
    npcvhcmckmkmkmchchchmcmcmcmhmcnchchchkcmckmkmhcnchmkvcmhkhchkmckmkmvnmchcpAxAcvhcocvchchvchb
    mhmchchchmkmnchchcncvhcnchcmvchmvAgvAcncpchchcghgvncjfpvchcmhkcmgcgvgmckchchchcgcgcgchchchch
    chchchchchchcAmvbcAncAcmcmcAcAcAcAkmAkbmAmAmAcAmAcpcpcAcpcjfjfcfjfjcjcjcjcjcjfcfcfcfjfjcjcjc
    jcfjcjcjcjcjcfjfjfjfjfjfjfcjzfzfjzfzfjzfzfjzfzfjzfzfjfcnAmAmAmAmAvcmcmcfhfcfcmcmcmcmcmcgcmch
    cmgcnchAchmchmncxchgmnchmhncvchchchchchcpmcjfmgcncvcpApxpcpApchchchchchchchchchchchchchchchc
    hchchchchchchchchchchchchchchchchchczcAcAcAcAcAcAcpAcAcAcAcAcAcAyAcAcAcAcAcAcAcAcAcAcAcAcAcA
    cAcAcAcAcAcAcAcAcAcAnchchchchchchchchchcbcbcmcdcdc"

/-- The table of categories. -/
def table : SegmentMap := ⟨segmentStarts, segmentLabels⟩

/-- The general category of a character. -/
def of (c : Char) : Category := ofLabel (table.label c.toNat)

/-- Whether a category is a letter. -/
def isLetter : Category → Bool
  | .lowercaseLetter | .modifierLetter | .otherLetter | .titlecaseLetter | .uppercaseLetter => true
  | _ => false

/-- Whether a category is a letter with case. -/
def isCasedLetter : Category → Bool
  | .lowercaseLetter | .titlecaseLetter | .uppercaseLetter => true
  | _ => false

/-- Whether a category is a mark. -/
def isMark : Category → Bool
  | .spacingMark | .enclosingMark | .nonspacingMark => true
  | _ => false

/-- Whether a category is a number. -/
def isNumber : Category → Bool
  | .decimalNumber | .letterNumber | .otherNumber => true
  | _ => false

/-- Whether a category is punctuation. -/
def isPunctuation : Category → Bool
  | .connectorPunctuation | .dashPunctuation | .closePunctuation | .finalPunctuation
  | .initialPunctuation | .otherPunctuation | .openPunctuation => true
  | _ => false

/-- Whether a category is a symbol. -/
def isSymbol : Category → Bool
  | .currencySymbol | .modifierSymbol | .mathSymbol | .otherSymbol => true
  | _ => false

/-- Whether a category is a separator. -/
def isSeparator : Category → Bool
  | .lineSeparator | .paragraphSeparator | .spaceSeparator => true
  | _ => false

/-- Whether a category is one of the others. -/
def isOther : Category → Bool
  | .control | .format | .unassigned | .privateUse | .surrogate => true
  | _ => false

/-- A category or a group of categories that has a name. -/
inductive Group where
  | one (category : Category)
  | letter
  | casedLetter
  | mark
  | number
  | punctuation
  | symbol
  | separator
  | other
  deriving DecidableEq, Repr

/-- Whether a category belongs to a group. -/
def Group.contains : Group → Category → Bool
  | .one category, c => category == c
  | .letter, c => c.isLetter
  | .casedLetter, c => c.isCasedLetter
  | .mark, c => c.isMark
  | .number, c => c.isNumber
  | .punctuation, c => c.isPunctuation
  | .symbol, c => c.isSymbol
  | .separator, c => c.isSeparator
  | .other, c => c.isOther

/-- The group with a given name; names are lower case, without blanks, `-` and `_`. -/
def Group.named? : String → Option Group
  | "c" | "other" => some .other
  | "cc" | "control" | "cntrl" => some (.one .control)
  | "cf" | "format" => some (.one .format)
  | "cn" | "unassigned" => some (.one .unassigned)
  | "co" | "privateuse" => some (.one .privateUse)
  | "cs" | "surrogate" => some (.one .surrogate)
  | "l" | "letter" => some .letter
  | "lc" | "casedletter" => some .casedLetter
  | "ll" | "lowercaseletter" => some (.one .lowercaseLetter)
  | "lm" | "modifierletter" => some (.one .modifierLetter)
  | "lo" | "otherletter" => some (.one .otherLetter)
  | "lt" | "titlecaseletter" => some (.one .titlecaseLetter)
  | "lu" | "uppercaseletter" => some (.one .uppercaseLetter)
  | "m" | "mark" | "combiningmark" => some .mark
  | "mc" | "spacingmark" => some (.one .spacingMark)
  | "me" | "enclosingmark" => some (.one .enclosingMark)
  | "mn" | "nonspacingmark" => some (.one .nonspacingMark)
  | "n" | "number" => some .number
  | "nd" | "decimalnumber" | "digit" => some (.one .decimalNumber)
  | "nl" | "letternumber" => some (.one .letterNumber)
  | "no" | "othernumber" => some (.one .otherNumber)
  | "p" | "punctuation" | "punct" => some .punctuation
  | "pc" | "connectorpunctuation" => some (.one .connectorPunctuation)
  | "pd" | "dashpunctuation" => some (.one .dashPunctuation)
  | "pe" | "closepunctuation" => some (.one .closePunctuation)
  | "pf" | "finalpunctuation" => some (.one .finalPunctuation)
  | "pi" | "initialpunctuation" => some (.one .initialPunctuation)
  | "po" | "otherpunctuation" => some (.one .otherPunctuation)
  | "ps" | "openpunctuation" => some (.one .openPunctuation)
  | "s" | "symbol" => some .symbol
  | "sc" | "currencysymbol" => some (.one .currencySymbol)
  | "sk" | "modifiersymbol" => some (.one .modifierSymbol)
  | "sm" | "mathsymbol" => some (.one .mathSymbol)
  | "so" | "othersymbol" => some (.one .otherSymbol)
  | "z" | "separator" => some .separator
  | "zl" | "lineseparator" => some (.one .lineSeparator)
  | "zp" | "paragraphseparator" => some (.one .paragraphSeparator)
  | "zs" | "spaceseparator" => some (.one .spaceSeparator)
  | _ => none

end Category

end NoteVault.Unicode
