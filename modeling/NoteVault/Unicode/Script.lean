import NoteVault.Unicode.Segments

/-!
The script of each code point, and the names of scripts.
-/

namespace NoteVault.Unicode

/-- Where the segments of constant script start. -/
def scriptStarts : Array Nat := readStarts
  "0 1t q 6 q 1b 1 f 1 5 n 1 v 1 ch 13 5 5 2 k 34 4 1 3 2 4 1 1 4 1 1 1 1 3 1 1 1 k 1 1r e g 3p 2
    4p 1 12 2 1e 2 3 1 1j 8 r 4 6 b 5 1 6 1 e 1 3 1 w 1 a b q 1 30 1 y e 1 1o 2 3 1c 1e e 1n 2 3
    1a 2 f 1 s 2 1 1 b 5 v 1 2 5 23 1 t 29 4 f 2 q 4 1 8 2 2 2 m 1 7 1 1 3 4 2 9 2 2 2 4 8 1 4 2 1
    5 2 p 2 3 1 6 4 2 2 m 1 7 1 2 1 2 1 2 2 1 1 5 4 2 2 3 3 1 7 4 1 1 7 h a 3 1 9 1 3 1 m 1 7 1 2
    1 5 2 a 1 3 1 3 2 1 f 4 2 c 7 7 1 3 1 8 2 2 2 m 1 7 1 2 1 5 2 9 2 2 2 3 7 3 4 2 1 5 2 i a 2 1
    6 3 3 1 4 3 2 1 1 1 2 3 2 3 3 3 c 4 5 3 3 1 4 2 1 6 1 e l 5 d 1 3 1 n 1 g 2 9 1 3 1 4 7 2 1 3
    2 1 2 4 2 a 7 9 d 1 3 1 n 1 a 1 5 2 9 1 3 1 4 7 2 6 2 1 4 2 a 1 3 c d 1 3 1 1f 1 3 1 6 4 g 2 q
    1 3 1 i 3 o 1 9 1 1 2 7 3 1 4 6 1 1 1 8 6 a 2 3 c 1m 4 1 s 11 2 1 1 1 5 1 o 1 1 1 n 2 5 1 1 1
    7 1 a 2 4 w 20 1 10 4 13 1 10 1 f 1 7 4 2 11 4g 12 1 1 5 1 2 17 1 4 74 21 1 4 2 7 1 1 1 4 2 15
    1 4 2 x 1 4 2 7 1 1 1 4 2 f 1 1l 1 4 2 1v 2 w 3 q 6 2e 2 6 2 hs t 3 23 3 b 7 m 9 1 l 2 9 k c d
    1 3 1 2 c 2m 2 a 6 a 6 2 2 1 1 k 6 2h 7 17 5 1y a v 1 c 4 c 4 1 3 c u 2 5 b 18 4 q 6 b 3 2 w s
    2 2 1r 1 t 2 b 6 a 6 e 2 v 1d 25 1 1e 1s 1g 8 4 1k 3 f 3 3 1c b 5 17 2 3 8 8 3 1 d 1 7 4 1 6 1
    3 2 1 5 12 5 1 1d 5 4 5 d 1 1y 1 1s 74 m 2 6 2 12 2 6 2 8 1 1 1 1 1 1 1 v 2 1h 1 f 1 e 2 6 1 j
    2 3 1 9 1 c 2 2f 1 b 1 2 b 1 f 1 d 3 x f x f 12 1 3 2 6 1 r 1 h 15 3 4 ii m b l ps 74 hg 2 w 1
    2x 2o w 38 5 7 12 1 1 5 1 2 1k 7 2 e 1 n 9 7 1 7 1 7 1 7 1 7 1 7 1 7 1 7 1 w 2m y q 1 2h c 5y
    q l 1 1 1 p 9 4 2 8 4 4 1 2e 2 2 2 3 1 2i 2 3 5 17 1 2m 1 g w 12 9 1 g v 1 1s v 29 1b 1 2g 4o
    534 1s g74 wd 3 1j 9 1c 8c k 2o 2g 8 y 2u 3 1v 2 2 1 1 1 8 l e 19 3 a 6 1k 8 1y 8 c 6 w 1a 1 1
    10 b 1 t 3 26 1 1 a 4 2 v 1 1j 9 e 2 a 2 4 w 1v o 5 n a 6 2 6 2 6 9 7 1 7 1 17 1 9 1 4 2 4 28
    1a 2 a 6 8mc c n 4 1d 6is a6 2 2y 12 7 c 5 5 q 1 5 1 1 1 2 1 2 1 a 37 g a3 2 28 2 1i 7 1 w g g
    a 6 e 2 z 1 j 1 4 4 5 1 3r 2 1 1 w q 6 q b a 1 19 2 v 3 6 2 6 2 6 2 3 3 7 1 7 a 5 2 c 1 q 1 j
    1 2 1 f 2 e y 3f 5 3 4 19 3 9 27 1 d 3 1 1b 19 1 3m t 3 1d f 1 r 4 10 9 3 r 5 17 5 u 1 1 10 4
    e 16 28 1c u 2 a 6 10 4 10 4 14 8 1g b 1 b 1 f 1 7 1 2 1 b 1 f 1 7 1 2 3 1g c 8n 9 m a 8 o 6 1
    16 1 9 1x 6 2 1 1 18 1 2 3 1 2 1 m 1 9 w v 8 9 1c j 1 2 5 5 s 3 1 q 5 1 1s w o 4 k 2 1a 4 1 2
    5 8 1 3 1 t 2 3 4 a 7 9 7 w w w 13 4 c 9 1i 3 7 m 2 8 j 5 8 i 7 4 c 7 28 21 1j 1f d 1f 7 6 14
    8 a 6 12 3 t 8 2 5s v 1 16 1 3 2 2 g 3 1j 4 14 8 16 m q 12 s k n 9 26 4 10 9 1 1v a 1 2 p 7 a
    6 1h 1 i 8 13 9 2o 1 k b i 1 1b 1q 7 1 1 1 4 1 f 1 b 6 1n 5 a 6 4 1 8 2 2 2 m 1 7 1 2 1 5 1 1
    9 2 2 2 3 2 1 6 1 5 7 2 7 3 5 b a 1 1 2 1 1 12 1 a 1 1 2 1 1 4 1 a 1 2 8 2 t 2k 1 5 u 20 8 a
    4m 1i 2 12 y 1x b a 6 d j 1m 6 a 6 k s r 2 f 4 n 55 1o 2s 2b c 1 7 2 1 2 8 1 2 1 u 1 2 2 c 9 a
    1y 8 2 1a 2 b r 20 8 2b d g 1l 7 a 52 y e a 6 9 1 19 1 e a t 3 w 2 m 1 e 21 7 1 2 1 18 3 1 1 2
    1 9 8 a 6 6 1 2 1 11 1 2 1 6 7 a 8m p 7 h 1 15 3 t 2d 1 f 1e d 1 pm 2u 33 1 5 b 5g 218 2r d uu
    a 32z 5 g7 5a1 1m 1c6 ft 7 v 1 a 4 2 27 1 a 6 u 2 6 a 1y a a 1 7 1 l 5 j c0 1m 5i 2j 2t 23 4
    1l 7 h 1s 1 1 2 1 b 2 e 4qg 8 lc d2 15 1 9 6w7 4 1 7 1 2 1 1 7z 3 f 1 t 3 2 1 e 4 8 b0 1s4 2z
    5 d 3 9 7 a 2 4 4 318 6y 6 c4 24 1a 2 n 9 38 1o 6u a 13 2 1q 3 h 8 2 7 u 4 1p l 1y 3e k c k c
    2f 9 p 3r 2d 1 1z 1 2 2 1 2 2 2 4 1 c 1 1 1 7 1 1t 1 4 2 8 1 7 1 s 1 4 1 5 1 1 3 7 1 9g 2 84 2
    1e i4 f 5 1 f uo v 6 6 5x 7 1 h 2 7 1 2 1 5 5 1q x 1 34 19 3 e 2 a 4 2 8w v h 1m 5 1 cw 16 5y
    17 4 1 dc 7 1 4 1 2 1 f 1 5h 2 g 15 24 4 a 4 2 lt 1w 24 1p 5e 4 1 r 1 2 1 1 2 1 1 a 1 4 1 1 1
    1 6 1 4 1 1 1 1 1 1 3 1 2 1 1 2 1 1 1 1 1 1 1 1 1 1 2 1 1 2 4 1 7 1 4 1 4 1 1 1 a 1 h 5 3 1 5
    1 h 1g 2 7i 18 4 2s c f 2 f 1 f 1 11 a 4u 1k q 1 2 d 18 4 9 7 2 e 6 4a rc 4 h 3 d 3 3b 4 2n 6
    c 4 1 f c 4 1k 8 a 6 14 8 u 2 c 4 2 1q 9g c e 2 d 3 a 5 1k 7 f 2 b 6 9 7 43 1 2u sm wyo w 37e
    6 66 2 4g2 e 5rl f ha 1wi f2 15u 3t7 5 38g f975 1 u 2o 3k 6o"

/-- The labels of the segments. -/
def scriptLabels : Array Char := readLabels
  "OÈOÈOÈOÈOÈOÈOÈOÈOCOthOhĞhOhĞhOhOhĞhĞhĞhPhTtTĞ4Ğ4Ğ4ĞqĞqĞqĞ3O3O3O3O3O3t3t3O3ČĞČĞČ3ėĞçĞçĀĞĀĞÓĞÓĞ
    ČĞ3Ğ3Ğ3O3VtVOVAĞAĞAĞAĞAĞAĞAĞAĞAĞAĞAĞAĞAĞAĞkĞkĞkĞkĞkĞkĞkĞkĞkĞkĞkĞkĞkĞkĞkĞkĞiĞiĞiĞiĞiĞiĞiĞiĞiĞ
    iĞiĞiĞiĞiĞõĞõĞõĞõĞõĞõĞõĞõĞõĞõĞõĞõĞõĞõĞēĞēĞēĞēĞēĞēĞēĞēĞēĞēĞēĞēĞēĞēĞēĞēĞĖĞĖĞĖĞĖĞĖĞĖĞĖĞĖĞĖĞĖĞĖĞ
    ĖĞĖyĞyĞyĞyĞyĞyĞyĞyĞyĞyĞyĞyĞyĞÒĞÒĞÒĞÒĞÒĞÒĞÒĞĆĞĆĞĆĞĆĞĆĞĆĞĆĞĆĞĆĞĆĞĆĞĆĞĘĞOĘĞÇĞÇĞÇĞÇĞÇĞÇĞÇĞÇĞÇĞÇĞ
    ÇĞęĞęĞęĞęĞęĞęOęĞádĞdĞdĞdOdmcĞcĞcĞcĞcĞcĞcĞcĞcĞcĞcĞcĞcĞcĞcĞcĞcĞcĞMĞMĞHêĞÿOÿĞčĞčoOĞGĞĎĞĎĞĎĞÄĞÄĞ
    ÄĞÞOÞOÞĞÞĞÞĞHĞÊĞÊĞÊĞÊĞÊďĞďĞåĞåĞåĞåÄFĞFĐĞĐĞĐĞĐĞĐĞtĞ6Ğ6Ċ9Ğ9ÉĞÉĞÉëTĞdĞdĊĞtOtOtOtOtOtOĞÈhTÈhÈhÈT
    ÈhtÈhĞhĞhĞhĞhĞhĞhĞhĞhĞhĞhĞhĞhĞhĞhĞhĞOtOĞOÈĞOÈOĞÈĞOĞtĞOhOÈOÈOÈOÈOĞOĞOĞOEOĞOĞOeÈPĞPdĞdĞdĞĚĞĚĞĚ
    cĞcĞcĞcĞcĞcĞcĞcĞcĞTOĞlĞlĞlĞOlOlOltmOlOĞrĞtOrOzOzĞCĞmĞOCOĞOzmĞOmOzOzOlOlĤĞĤĞÍğĞT7ĞOÈOÈĞÈĞÈĞÈĞ
    ÈċĞOĞûĞāĞāĞVÁOÁþĞþmĞwĞOwĞwáĞLĞLĞLĞLáđĞđØĞcĞcĞcĞcĞcĞÈOÈhÈOĞMØĞØĞmĞmĞmĞlĞlĞÈĞ4ĞqĞqĞqĞqĞqĞq3Ğ3O
    3Ğ3Ğ3Ğ3tOĞtTOĞOĞOĞ3Ğ3ĞOĞOÈOÈOzOzOmĞmĞmĞmĞmĞOĞOĞOĞÌĞÌĞÌĞÌĞÌĞÌĞÌĞOĞOĞOhĞOĞhĞOtĞÎĞIĞtOĞíĞífĞïĞĝ
    ĞĝðĞðĞUă÷Ğ÷ĞöĞöĞaĞJĞJĠĞĠĞĠĞĠĞĠĞĠĞĠĞĠĞīĞËĞËĞËĞÈĞÈĞÈĞRĞRĞRĞRĞRĞRsĞsùâĞâĞpĞpĞpüĞüÏĞÏĞÛÚĞÚĞÚÂĞÂĞ
    ÂĞÂĞÂĞÂĞÂĞÂĞòîĞÔĞÔĞ5Ğ5vĞvuĞuýĞýĞýĞóĞìĞìĞìnĞnĞĦĞĦĞĦĞ3ĞģĞģĞģĞ3Ğ3ñĞćĞôĞNĞbĞDĞDĞDxĞxĞĈĞĈĞKĞKĞÐĞĂ
    ĞĆĞÅĞÅĞàĞàĞàĞàĞàĞÆĞÆĞgĞgĞgĞgĞgĞgĞgĞtgĞgĞgĞgĞgĞgĞgĞgĞĬĞĬĞĬĞĬĞĬĞĬĞĬĞĬĞĬĞĬĞĬĞæĞæĞěĞěĞĄĞĄĞÝĞÝĞÞĞ
    ĒĞĒĞáĞ1Ğ1Ğ1ĞXĞĢĞĢWĞWĞWĞWĞWĞWĞWĞWĞäĞäĞäĞĥĞĉĞHúĞVĞĪĞĪĞBĞBĞBĞBĞÕĞÕĞÕĞÖĞÖĞÖĞÖĞÖĞÖĞÖĞjĞjĞjĞjĞjĞjĞ
    ÑĞÀĞÀĞÀĞÍĞēĞēQĞQĞQĞQĞSĞZĞZĞ2ĞħĞ7ĞßĞßĞßĔĞĔĞ8Ğ8ĞøĞøĞøĞøĞøĞĨĞ×ĞÜĞÜĞÜĞĕèlÃĞlĞĕĞĕÃĞÃĕĞzĞzĞzĞzrzĞr
    ĞrĞzĞzĞèĞYĞYĞYĞYĞYOĞOĞOĞtĞtĞOĞOĞOĞOtOtOtOtOĞhĞOĞOĞOĞOĞOĞOĞOĞOĞOĞOĞOĞOĞOĞOĞOĞOĞOĞOĞOĞOĞOĞOĞOĞ
    OĞOąĞąĞąĞÈĞÈĞeĞeĞeĞeĞeĞTĞTĞéĞéĞéĞéĞĜĞġĞġĞãĞĩĞĩĞcĞcĞcĞcĞÙĞÙĞ0Ğ0Ğ0ĞOĞOĞ3Ğ3Ğ3Ğ3Ğ3Ğ3Ğ3Ğ3Ğ3Ğ3Ğ3Ğ3
    Ğ3Ğ3Ğ3Ğ3Ğ3Ğ3Ğ3Ğ3Ğ3Ğ3Ğ3Ğ3Ğ3Ğ3Ğ3Ğ3Ğ3Ğ3Ğ3Ğ3Ğ3Ğ3ĞOĞOĞOĞOĞOĞOĞOĞOrOĞOĞOĞOĞOĞOĞOĞOĞOĞOĞOĞOĞOĞOĞOĞO
    ĞOĞOĞOĞOĞOĞOĞOĞOĞOĞOĞOĞOĞOĞlĞlĞlĞlĞlĞlĞlĞlĞlĞOĞOĞtĞ"

/-- The table of scripts. -/
def scriptTable : SegmentMap := ⟨scriptStarts, scriptLabels⟩

/-- The label of the script of a character. -/
def scriptOf (c : Char) : Char := scriptTable.label c.toNat

/-- The label of the script with a given name; names are lower case, without blanks, `-` and
`_`. -/
def scriptNamed? : String → Option Char
  | "adlm" | "adlam" => some '0'
  | "ahom" => some '1'
  | "hluw" | "anatolianhieroglyphs" => some '2'
  | "arab" | "arabic" => some '3'
  | "armn" | "armenian" => some '4'
  | "avst" | "avestan" => some '5'
  | "bali" | "balinese" => some '6'
  | "bamu" | "bamum" => some '7'
  | "bass" | "bassavah" => some '8'
  | "batk" | "batak" => some '9'
  | "beng" | "bengali" => some 'A'
  | "bhks" | "bhaiksuki" => some 'B'
  | "bopo" | "bopomofo" => some 'C'
  | "brah" | "brahmi" => some 'D'
  | "brai" | "braille" => some 'E'
  | "bugi" | "buginese" => some 'F'
  | "buhd" | "buhid" => some 'G'
  | "cans" | "canadianaboriginal" => some 'H'
  | "cari" | "carian" => some 'I'
  | "aghb" | "caucasianalbanian" => some 'J'
  | "cakm" | "chakma" => some 'K'
  | "cham" => some 'L'
  | "cher" | "cherokee" => some 'M'
  | "chrs" | "chorasmian" => some 'N'
  | "zyyy" | "common" => some 'O'
  | "copt" | "coptic" | "qaac" => some 'P'
  | "xsux" | "cuneiform" => some 'Q'
  | "cprt" | "cypriot" => some 'R'
  | "cpmn" | "cyprominoan" => some 'S'
  | "cyrl" | "cyrillic" => some 'T'
  | "dsrt" | "deseret" => some 'U'
  | "deva" | "devanagari" => some 'V'
  | "diak" | "divesakuru" => some 'W'
  | "dogr" | "dogra" => some 'X'
  | "dupl" | "duployan" => some 'Y'
  | "egyp" | "egyptianhieroglyphs" => some 'Z'
  | "elba" | "elbasan" => some 'a'
  | "elym" | "elymaic" => some 'b'
  | "ethi" | "ethiopic" => some 'c'
  | "gara" | "garay" => some 'Ħ'
  | "geor" | "georgian" => some 'd'
  | "glag" | "glagolitic" => some 'e'
  | "goth" | "gothic" => some 'f'
  | "gran" | "grantha" => some 'g'
  | "grek" | "greek" => some 'h'
  | "gujr" | "gujarati" => some 'i'
  | "gong" | "gunjalagondi" => some 'j'
  | "guru" | "gurmukhi" => some 'k'
  | "gukh" | "gurungkhema" => some 'ħ'
  | "hani" | "han" => some 'l'
  | "hang" | "hangul" => some 'm'
  | "rohg" | "hanifirohingya" => some 'n'
  | "hano" | "hanunoo" => some 'o'
  | "hatr" | "hatran" => some 'p'
  | "hebr" | "hebrew" => some 'q'
  | "hira" | "hiragana" => some 'r'
  | "armi" | "imperialaramaic" => some 's'
  | "zinh" | "inherited" | "qaai" => some 't'
  | "phli" | "inscriptionalpahlavi" => some 'u'
  | "prti" | "inscriptionalparthian" => some 'v'
  | "java" | "javanese" => some 'w'
  | "kthi" | "kaithi" => some 'x'
  | "knda" | "kannada" => some 'y'
  | "kana" | "katakana" => some 'z'
  | "kawi" => some 'À'
  | "kali" | "kayahli" => some 'Á'
  | "khar" | "kharoshthi" => some 'Â'
  | "kits" | "khitansmallscript" => some 'Ã'
  | "khmr" | "khmer" => some 'Ä'
  | "khoj" | "khojki" => some 'Å'
  | "sind" | "khudawadi" => some 'Æ'
  | "krai" | "kiratrai" => some 'Ĩ'
  | "laoo" | "lao" => some 'Ç'
  | "latn" | "latin" => some 'È'
  | "lepc" | "lepcha" => some 'É'
  | "limb" | "limbu" => some 'Ê'
  | "lina" | "lineara" => some 'Ë'
  | "linb" | "linearb" => some 'Ì'
  | "lisu" => some 'Í'
  | "lyci" | "lycian" => some 'Î'
  | "lydi" | "lydian" => some 'Ï'
  | "mahj" | "mahajani" => some 'Ð'
  | "maka" | "makasar" => some 'Ñ'
  | "mlym" | "malayalam" => some 'Ò'
  | "mand" | "mandaic" => some 'Ó'
  | "mani" | "manichaean" => some 'Ô'
  | "marc" | "marchen" => some 'Õ'
  | "gonm" | "masaramgondi" => some 'Ö'
  | "medf" | "medefaidrin" => some '×'
  | "mtei" | "meeteimayek" => some 'Ø'
  | "mend" | "mendekikakui" => some 'Ù'
  | "merc" | "meroiticcursive" => some 'Ú'
  | "mero" | "meroitichieroglyphs" => some 'Û'
  | "plrd" | "miao" => some 'Ü'
  | "modi" => some 'Ý'
  | "mong" | "mongolian" => some 'Þ'
  | "mroo" | "mro" => some 'ß'
  | "mult" | "multani" => some 'à'
  | "mymr" | "myanmar" => some 'á'
  | "nbat" | "nabataean" => some 'â'
  | "nagm" | "nagmundari" => some 'ã'
  | "nand" | "nandinagari" => some 'ä'
  | "talu" | "newtailue" => some 'å'
  | "newa" => some 'æ'
  | "nkoo" | "nko" => some 'ç'
  | "nshu" | "nushu" => some 'è'
  | "hmnp" | "nyiakengpuachuehmong" => some 'é'
  | "ogam" | "ogham" => some 'ê'
  | "olck" | "olchiki" => some 'ë'
  | "hung" | "oldhungarian" => some 'ì'
  | "ital" | "olditalic" => some 'í'
  | "narb" | "oldnortharabian" => some 'î'
  | "perm" | "oldpermic" => some 'ï'
  | "xpeo" | "oldpersian" => some 'ð'
  | "sogo" | "oldsogdian" => some 'ñ'
  | "sarb" | "oldsoutharabian" => some 'ò'
  | "orkh" | "oldturkic" => some 'ó'
  | "ougr" | "olduyghur" => some 'ô'
  | "onao" | "olonal" => some 'ĩ'
  | "orya" | "oriya" => some 'õ'
  | "osge" | "osage" => some 'ö'
  | "osma" | "osmanya" => some '÷'
  | "hmng" | "pahawhhmong" => some 'ø'
  | "palm" | "palmyrene" => some 'ù'
  | "pauc" | "paucinhau" => some 'ú'
  | "phag" | "phagspa" => some 'û'
  | "phnx" | "phoenician" => some 'ü'
  | "phlp" | "psalterpahlavi" => some 'ý'
  | "rjng" | "rejang" => some 'þ'
  | "runr" | "runic" => some 'ÿ'
  | "samr" | "samaritan" => some 'Ā'
  | "saur" | "saurashtra" => some 'ā'
  | "shrd" | "sharada" => some 'Ă'
  | "shaw" | "shavian" => some 'ă'
  | "sidd" | "siddham" => some 'Ą'
  | "sgnw" | "signwriting" => some 'ą'
  | "sinh" | "sinhala" => some 'Ć'
  | "sogd" | "sogdian" => some 'ć'
  | "sora" | "sorasompeng" => some 'Ĉ'
  | "soyo" | "soyombo" => some 'ĉ'
  | "sund" | "sundanese" => some 'Ċ'
  | "sunu" | "sunuwar" => some 'Ī'
  | "sylo" | "sylotinagri" => some 'ċ'
  | "syrc" | "syriac" => some 'Č'
  | "tglg" | "tagalog" => some 'č'
  | "tagb" | "tagbanwa" => some 'Ď'
  | "tale" | "taile" => some 'ď'
  | "lana" | "taitham" => some 'Đ'
  | "tavt" | "taiviet" => some 'đ'
  | "takr" | "takri" => some 'Ē'
  | "taml" | "tamil" => some 'ē'
  | "tnsa" | "tangsa" => some 'Ĕ'
  | "tang" | "tangut" => some 'ĕ'
  | "telu" | "telugu" => some 'Ė'
  | "thaa" | "thaana" => some 'ė'
  | "thai" => some 'Ę'
  | "tibt" | "tibetan" => some 'ę'
  | "tfng" | "tifinagh" => some 'Ě'
  | "tirh" | "tirhuta" => some 'ě'
  | "todr" | "todhri" => some 'ī'
  | "toto" => some 'Ĝ'
  | "tutg" | "tulutigalari" => some 'Ĭ'
  | "ugar" | "ugaritic" => some 'ĝ'
  | "zzzz" | "unknown" => some 'Ğ'
  | "vaii" | "vai" => some 'ğ'
  | "vith" | "vithkuqi" => some 'Ġ'
  | "wcho" | "wancho" => some 'ġ'
  | "wara" | "warangciti" => some 'Ģ'
  | "yezi" | "yezidi" => some 'ģ'
  | "yiii" | "yi" => some 'Ĥ'
  | "zanb" | "zanabazarsquare" => some 'ĥ'
  | _ => none

end NoteVault.Unicode
