import NoteVault.Unicode.Segments

/-!
Tables for the order of characters: base characters in their order, characters that sort as
another one or as several others, and accents in their order.
-/

namespace NoteVault.Collation

open Unicode

/-- A run of consecutive base characters with consecutive ranks. -/
structure RankRun where
  count : Nat
  rank : Nat
  deriving Inhabited

/-- Groups numbers into the starts of runs, each a distance from the one before, and the runs. -/
def readRankRuns : Nat → List Nat → List (Nat × RankRun)
  | before, distance :: count :: rank :: rest =>
    (before + distance, ⟨count, rank⟩) :: readRankRuns (before + distance) rest
  | _, _ => []

/-- The runs of base characters. -/
def rankRuns : List (Nat × RankRun) := readRankRuns 0 (readNumbers (String.toList
  "9 5 0 n 1 8 1 1 11 1 1 1u 1 1 4h 1 1 3d3 1 1 4i 1 1 4f 1 1 1n 1 2 24 2 1 49 1 1 bv 1 1 o 1 1
    c 1 1 19 1 1 4d 1 a 3e3 a 1 y 1 1 v 1 3 bz 3 1 14 1 1 48 r 1 26 1 1 4e 1 1 27 1 1 5k 1 1 a 1
    1 5h 1 1 3ed 1 1 3ej 1 1 3eq 1 1 3ey 1 1 3f6 1 1 3fk 1 1 3fq 1 1 3fz 1 1 3gb 1 1 3gj 1 1 3gp
    1 1 3gw 1 1 3hc 1 1 3hh 1 1 3hq 1 1 3i0 1 1 3i9 1 1 3ig 1 1 3iw 1 1 3j7 1 1 3jg 1 1 3jr 1 1
    3jy 1 1 3k2 1 1 3k4 1 1 3ka 1 1 28 1 1 c3 1 1 29 1 1 c5 7 1 5 s 1 12 1 1 3d2 1 1 3d4 1 1 3d1
    1 1 3d5 1 1 c4 1 1 45 1 1 5o 1 1 7r 2 1 22 1 1 c2 2 1 7t 1 1 5l 1 1 7i 1 1 bw 3 1 5i 2 1 46 1
    1 1c 1 1 5r 3 1 23 4 1 15 o 1 by w 1 bx 7 1 3kn 1f 1 3gc 7 1 3if j 1 3hp s 1 3j8 p 1 3el 3 1
    3eo 2 1 3l2 3 1 3eu 4 1 3f2 6 1 3fn 3 1 3g1 4 1 3gq 1 1 3h0 1 1 3ha 3 1 3hk 5 1 3fy 2 1 3i3 3
    1 3l0 2 1 3j4 1 1 3ja 2 1 3jb 7 1 3k7 2 1 3kb 3 2 3kk 2 1 3kw 2 1 3l1 2 1 3kq 1 4 3lj t 1 3f9
    8 1 3ft 1k 1 3k9 4 1 3f3 2 1 3hz 2 1 3kd f 1 3h6 1 1 3hn 1 1 3jd 1 1 3gk 5 1 3er 3 1 3j0 1 1
    3kg 2 1 3l4 5 1 3f7 2 1 3gl 2 1 3ie 2 1 3ij 2 1 3k6 1 3 3eg 3 1 3en 1 1 3hs 1 1 3ev 1 2 3f0 2
    1 3fd 1 1 3fb 1 1 3fe 1 1 3fc 1 3 3ff 3 1 3gn 1 1 3fu 1 2 3fr 2 1 3fx 1 1 3fj 1 1 3jk 1 1 3g3
    1 1 3g8 1 1 3gg 1 1 3gi 1 1 3gd 1 3 3h2 3 1 3h8 1 1 3jn 1 1 3jp 1 1 3hd 1 1 3hj 1 1 3hm 1 1
    3hi 1 1 3hv 1 1 3hr 1 1 3hx 1 1 3i7 1 3 3ik 3 4 3io 4 1 3ih 1 1 3is 1 1 3iz 1 1 3j3 1 1 3go 1
    2 3j5 2 1 3jf 1 1 3jc 1 1 3jh 1 1 3jq 1 1 3jt 1 1 3jx 1 1 3k1 1 1 3hb 1 1 3k5 1 2 3ke 2 1 3kj
    1 1 3km 1 1 3l3 1 1 3lc 1 1 3li 1 2 3ln 2 1 3ek 1 1 3fi 1 1 3fv 1 1 3g0 1 1 3gm 1 1 3gv 1 1
    3gx 1 1 3id 1 2 3lg b 2 3lp 2 2 3jl b 1 5y 1 1 60 1 1 3g9 1 1 3l6 1 1 3ga 1 1 3l8 1 1 3ld 1 1
    3l5 1 1 3le 1 e 61 e 2 3cr 2 6 6f 6 2 5m 2 1 5p 1 1 5s 1 1 5j 1 1 5q 1 2 6l 7 9 6n 9 1 3l7 1
    h 6w 3m 1 3m0 2 1 3ms 2 1 5z 2 1 3lx 4 1 3mj 1 1 3mi 1 1 3mk 1g 5 3lr 5 1 3lz 1 3 3m1 3 7 3m5
    7 1 3mf 1 1 3mh 2 6 3ml l 1 3me 2 1 3ly 2 1 3lw 2 1 3md 2 1 3mr 2 1 3mu 2 1 3mv 2 1 3mw 2 1
    3mx 2 1 3my 2 1 3mz 2 1 3n0 4 1 3m4 3 1 bq 2 1 3mt 3 1 3mc 1 1 3mg 1g 1 3n1 1 3 3n4 3 1 3nb 1
    1 3ng 1 1 3ni 1 1 3nl 1 1 3nr 1 1 3nu 1 1 3nw 1 1 3o4 1 1 3oc 1 1 3oe 1 1 3on 1 1 3op 1 1 3ot
    1 1 3ow 1 1 3oz 1 1 3p3 1 2 3p7 2 1 3pi 1 1 3pk 1 5 3ps 5 3 3pz 5 1 3nd 2 1 3nh 1 1 3no 1 1
    3nt 2 1 3nv 1 1 3o9 1 1 3ol 1 1 3p2 4 1 3pr 2 1 3pe 2 1 3py 2 1 3q3 2 1 3q4 2 1 3q6 2 1 3q5 2
    1 3q7 2 1 3q8 2 1 3q9 2 1 3qa 2 1 3qb 4 1 3p6 2 1 3ph 2 1 3pg 2 1 3pf 2 1 3os 1 1 7j 9 1 3ns
    2 1 3px 2 1 3ou 4 1 3n7 2 1 3n9 2 1 3nk 2 1 3nf 2 1 3nx 2 1 3o1 2 1 3o0 2 1 3nz 2 1 3oh 2 1
    3ok 2 1 3or 2 1 3qc 2 1 3oy 2 1 3p1 2 1 3p4 2 1 3p5 2 1 3pb 2 1 3pj 2 1 3pm 2 1 3po 2 1 3pc 2
    1 3pp 2 1 3pq 5 1 3ny 2 1 3o5 2 1 3oi 2 1 3og 2 1 3pn 2 1 3od 1 1 3qe 6 1 3n3 4 1 3n2 8 1 3np
    8 1 3oo e 1 3na 4 1 3n8 2 1 3p9 2 1 3pa 2 1 3nc 2 1 3ne 2 1 3nm 2 1 3nq 2 1 3oa 2 1 3om 2 1
    3ox 2 1 3p0 2 1 3nn 2 1 3o7 2 1 3ob 2 1 3ov 2 1 3q2 2 1 3o3 2 1 3qd 2 1 3o2 2 1 3o8 2 1 3oj 2
    1 3oq 2 1 3pd 2 1 3of 2 1 3nj 2 1 3pl 2 1 3o6 16 1 3tx 1 2 58 2 1 13 1 1 p 1 1 16 1 1 5a 1 1
    3su 1 1 3st 1 k 3sv k h 3tg i 1 3tf 1 1 z 1 1 d 3 2 7k 2 1 3d6 1b 1 5b 2 1 5c 3 1 5d 3 1 5e a
    b 3ty c 2 3u9 3 1 3ub 2 3 3uc 4 1 3uf 2 4 3ug c 2 5f j 1 ci 1 1 ck 1 1 7m 1 1 4l 1 1 4n 1 1
    3d7 1 2 q 2 2 7n d 1 w 3 1 10 1 1 17 1 1 3yg 1 3 3uk 3 2 3up 2 2 3us 2 1 3uv 1 3 3uz 3 1 3v7
    1 2 3vd 2 2 3vi 2 2 3vu 2 2 3w6 2 2 3wc 2 2 3wh 2 2 3wk 2 2 3xc 2 3 3yd 4 1 3wo 1 1 3ww 1 1
    3wz 1 1 3xe 1 2 3xj 2 1 3xq 1 1 3xw 1 2 3y6 x 1 4j 1 2 s 2 1 4c 1 1 3uu 1 1 3wv 2 1 3uo 1 1
    3un 1 1 3ur 6 2 3v2 2 1 3uw 1 2 3v4 2 1 3ux 1 1 3v6 1 1 3uy 1 2 3vf 2 2 3v8 2 1 3vh 1 1 3va 1
    1 3vc 1 9 3vk 9 9 3vw 9 3 3w8 3 2 3we 2 1 3wj 1 1 3wm 1 6 3wp 6 2 3wx 2 c 3x0 c 4 3xf 4 1 3xp
    1 4 3xl 4 1 3xr 1 1 3vb 2 1 3xs 2 1 3xt 1 8 3xx 8 3 3y8 3 1 3y5 1 2 3yb 2 1 3yh 2 1 1a 1 1
    3xv 9 1 7p b 1 7q 5 1 3vt 1 1 3w5 b 1 3wb 1 1 3wg 1 1 3wn 3 1 3xu 1wh 1 3qg 1 1 3qi 1 1 3qk 1
    1 3qm 1 1 3qo 1 1 3qq 1 1 3qs 1 1 3qw 1 1 3qy 1 1 3r0 1 1 3r2 1 1 3r4 1 1 3r6 1 1 3ra 1 1 3rc
    1 1 3re 1 1 3rg 1 1 3ri 1 1 3rk 1 1 3ro 1 1 3rq 1 1 3rs 1 1 3ru 1 1 3rw 1 1 3ry 1 1 3s0 1 1
    3s2 1 1 3s4 1 1 3s6 1 1 3s8 1 1 3sa 1 1 3se 1 1 3sg 1 1 3qu 1 1 3r8 1 1 3rm 1 1 3sc 1 1 3si 2
    1 3sl 6 1 3sq 3 1 3qf 1 1 3qh 1 1 3qj 1 1 3ql 1 1 3qn 1 1 3qp 1 1 3qr 1 1 3qv 1 1 3qx 1 1 3qz
    1 1 3r1 1 1 3r3 1 1 3r5 1 1 3r9 1 1 3rb 1 1 3rd 1 1 3rf 1 1 3rh 1 1 3rj 1 1 3rn 1 1 3rp 1 1
    3rr 1 1 3rt 1 1 3rv 1 1 3rx 1 1 3rz 1 1 3s1 1 1 3s3 1 1 3s5 1 1 3s7 1 1 3s9 1 1 3sd 1 1 3sf 1
    1 3qt 1 1 3r7 1 1 3rl 1 1 3sb 1 1 3sh 1 2 3sj 2 3 3sm 3 1 1d 2 1 3sp 1 2 3sr 2ou 2 3j1 3 1
    3f5 2m 1 3jw 2 1 3k8 5a 1 5t 3 1 5v 1q 1 5u i 1 e 2 4 f 4 1 40 1 1 b 1 4 1o 4 4 1v 4 4 4o 7 1
    4s 1 2 6 8 1 4k 1 1 4m 1 1 4w 3 1 4x 3 1 50 1 2 1s 2 1 51 2 1 18 1 1 9 1 1 52 1 1 54 1 2 56 2
    1 4t 1 1 cb 1 2 2a 5 1 4g 1 1 47 1 2 4u 2 1 4a 1 1 x 1 1 55 1 1 4b 1 1 c7 1 1 j 1 1 53 1 2 1e
    3 7 1g 20 8 3d8 9 n 3dg 2j 1 7v 4 1 7w c 1 7x 3 2 7y 7 2 80 5 1 82 2 1 83 2 1 84 2 1 85 5 1
    86 c 1 87 7 4 88 9 1 8c 1 1 g6 1 1 8d 2 1 3fo 1 1 8e 1d 3 3cl 4 1 3ew 2 3 3co 4 2 8f 6 1 8h 1
    1 8j 1 1 8i 1 7 8k 9 i 8r j u 99 x 1g a3 1h 4 bj 5 2 bn 3 1 bp 1 4 br 4 1 c6 1 3 c8 3 6 cc 6
    1 cj 1 7 cl 8 1 cs 2 5 ct 7 1 cy 3 g cz h 2 df 3 2 dh 3 1 dj 2 m dk n 1 e6 2 a e7 f 2 eh 4 2
    ej 4 6 el 8 2 er 4 2 et 4 y ev 12 d ft d z g7 13 6 h6 a q hc q 4 2c 4 t i2 v 5x iv d1 8g os
    8g 8 1rv 8 1h x8 1h 3 1s3 3 q yp q 6 1rp 6 34 zf 34 2w 139 2w e 34 18 18 165 a4 3n 17d 3n m
    2i m 1r 1b0 1r 4 41 4 w 1cr w 2 2g 2 e 1dn f 2v 1e1 2y 2t 1gw 2u 47 1jp 49 w 1nw x 2x 1os 5m
    1 3h1 2 1 3i1 2 1 3ee 1 1 3j9 2 1 3g4 2 1 3gr 2 1 3kh 5 1 3ju 2 1 3k0 1 1 3jv 2 1 3g5 1 1 3i8
    1 1 3f8 1 1 3in 1 1 3hu 1 1 3fa p2 1 u 1 1 1b 1 1 4y 1 1 3ce 1 1 3ct 3 a 3i a 2 3cf 2 8 3s 8
    1 k 1 3 1z 3 1 3ch g 1 l 1 1 3cv 2 1 3cw 2 1 3cx 2 1 3ci 4 1 3cu 2 1 4z 1 2 3cj 3 1 3yi 2 1
    3yj 2 1 3yk 2 1 3yl 2 1 3ym 2 1 3yn 2 1 3yo 2 1 3yp 2 1 3yq 2 1 3yr 2 1 3ys 2 1 3yt 2 1 3yu 2
    1 3yv 2 1 3yw 2 1 3yx 2 1 3yy 2 1 3yz 3 1 3z0 2 1 3z1 2 6 3z2 8 1 3z8 3 1 3z9 3 1 3za 3 1 3zb
    3 6 3zc 7 1 3zi 2 1 3zj 2 6 3zk 7 4 3zq b 2 5w 2 1 3cy 3 1 m 2j 1 n 1 2 3cz nc4 2 7d 3 1 3l9
    2 1 3lf 2 1 3g7 4 1 3kx 2 1 3ky 2 1 3kz 1 1 3fl 1 1 3ix e 1 3ex 2 1 3gs 2 1 3gt 2 1 3gu 2 1
    3gy 2 1 3gz 2 1 3hw 2 1 3ht 4 1 3i2 2 1 3i4 2 1 3i5 2 1 3ib 2 1 3ic 2 1 3ii 2 1 3iv 2 1 3js 4
    1 3ki 2 1 3ko 2 1 3kp 2 1 3kr 2 1 3ks 2 1 3kt 2 1 3ku 2 1 3f4 1 1 3h7 1 1 3hg 1 1 3ho 1 2 3it
    2 1 3je 1 1 3kv 7 1 3fw 2 1 3h9 7 3 7f 4 1 3la 2 1 3h5 1 1 3lb 2 1 3hl 2 2 3es 2 1 3g2 2 1
    3em 2 1 3fm m 1 3ia 4 1 3k3 2 1 3ep 2 1 3hy 2 1 3ji 2 1 3ef 2 1 3gh 2 1 3jj 4 1 3jz 3 1 3kc 2
    1 3ez 2 1 3iy 18 1 3g6 1 1 3gf 3 1 3jo 1 1 3fp 1 1 3i6 1 1 3he 1 1 3ge 1 1 3hf 1ssh 18 1s6 1c
    2s 1te 34 f 1w6 h f 1wl g f 1x0 g 11 1xf 1o 3 216 y 1 7s 1q 3 219 1s 1 7u 1l q 12j 3e 6 21c
    4g lc 21i lc 60 2vh 68 d 31h g d 31u g 38 327 3k 2h 35f 2o c 37w w c 388 g 1k 38k 1s a 3a4 g
    14 3ae 1c u 3bi w 2 3cc 28 3d 2mu 3e 2a 2q7 2b 1f 2sh 1f 2c 1yg 2o e 20s g 5 2tw 8 3 2u1 8 7
    2u4 g p 2ub w 7 2v0 g 3 2v7 g 7 2va") none)

/-- Where the runs of base characters start. -/
def rankStarts : Array Nat := (rankRuns.map Prod.fst).toArray

/-- The runs of base characters, in the order of their starts. -/
def rankArray : Array RankRun := (rankRuns.map Prod.snd).toArray

/-- The rank of a base character. -/
def rank? (point : Nat) : Option Nat :=
  match startsUpTo rankStarts point with
  | 0 => none
  | n + 1 =>
    let start := rankStarts.getD n 0
    let run := rankArray.getD n default
    if point < start + run.count then some (run.rank + (point - start)) else none

/-- The number of base characters with a rank. -/
def rankCount : Nat := 5178

/-- The rank of the last symbol. -/
def lastSymbolRank : Nat := 4356

/-- The rank of the last letter before the kana. -/
def lastAlphabeticRank : Nat := 5129

/-- The order of the scripts: after which rank the letters of each stand that have no rank of their
own. -/
def scriptGroups : List (Nat × List String) := [
  (4670, ["latn"]),
  (4709, ["grek"]),
  (4716, ["copt"]),
  (4838, ["cyrl", "glag", "perm"]),
  (4924, ["geor"]),
  (4965, ["armn"]),
  (4987, ["hebr", "phnx", "samr"]),
  (5129, ["arab", "syrc", "mand", "thaa", "nkoo", "tfng", "ethi", "deva", "beng", "guru", "gujr",
    "orya", "taml", "telu", "knda", "mlym", "sinh", "mtei", "sylo", "saur", "kthi", "mahj",
    "shrd", "khoj", "sind", "mult", "gran", "tutg", "newa", "tirh", "sidd", "modi", "takr",
    "diak", "nand", "dogr", "ahom", "gonm", "gong", "sund", "brah", "khar", "bhks", "thai",
    "laoo", "tavt", "tibt", "zanb", "soyo", "marc", "lepc", "phag", "limb", "tglg", "hano",
    "buhd", "tagb", "bugi", "maka", "batk", "rjng", "kali", "mymr", "rohg", "cakm", "khmr",
    "tale", "talu", "lana", "cham", "bali", "java", "kawi", "mong", "olck", "onao", "cher",
    "osge", "cans", "ogam", "runr", "hung", "orkh", "vaii", "bamu", "bass", "mend", "medf",
    "gara", "adlm", "hang"]),
  (rankCount, ["kana", "hira", "bopo", "yiii", "lisu", "plrd", "wara", "pauc", "hmng", "hmnp",
    "toto", "wcho", "nagm", "lyci", "cari", "lydi", "ital", "goth", "dsrt", "shaw", "dupl",
    "osma", "elba", "aghb", "vith", "todr", "sora", "mroo", "tnsa", "sunu", "gukh", "krai",
    "linb", "lina", "cprt", "cpmn", "sarb", "narb", "avst", "palm", "nbat", "hatr", "armi",
    "prti", "phli", "phlp", "elym", "mani", "sogo", "sogd", "ougr", "yezi", "chrs", "ugar",
    "xpeo", "xsux", "egyp", "mero", "merc", "hluw", "tang", "nshu", "kits", "hani"])]

/-- The runs of characters that sort as another character does. -/
def likenessRuns : List Run := readRuns (readNumbers (String.toList
  "4g 1 1 w 4q 1 1 2p 4y 2 1 1e 51 1 1 qk 55 1 1 1d 56 1 1 33 j4 2 2 2w j5 1 1 h2 j7 1 1 36 j8 1
    1 hl j9 1 1 hn ja 1 1 ht jb 1 1 3b jc 1 1 3d kg 1 1 gz kh 1 1 30 ki 1 1 37 kj 1 1 3c kk 1 1
    id lq 1 1 lp lu 1 1 lp lx 1 1 lp lz 1 1 ly m0 1 1 ly m1 1 1 ly m2 1 1 lp m4 1 1 ly m5 1 1 ly
    m6 1 1 ly m7 1 1 ly m8 1 1 ly mh 1 1 ly mi 1 1 ly mj 1 1 ly mk 1 1 ly mn 1 1 ly mr 1 1 ly mv
    1 1 mu my 1 1 ly mz 1 1 ly n0 1 1 ly n1 1 1 lp n2 1 1 lp n3 1 1 lp n4 2 1 lc n7 1 1 lv na 1 1
    lp nb 1 1 ly nc 1 1 ly nd 1 1 ly ne 1 1 lp nf 1 1 lp ng 1 1 lp nh 1 1 ly ni 1 1 ly nk 1 1 lp
    nl 1 1 lp nm 1 1 lp nn 1 1 ly no 1 1 ly np 1 1 ly nq 1 1 ly nr 1 1 lp nt 1 1 ly nu 1 1 ly nv
    1 1 lp nw 1 1 ly nx 1 1 lp ny 1 1 lp nz 1 1 ly o2 1 1 ly o3 1 1 2p o4 1 1 2t o5 1 1 2x o6 1 1
    33 o7 1 1 39 o8 2 1 2r oa 1 1 2w ob 1 1 31 oc 1 1 36 od 1 1 38 oe 1 1 3a of 1 1 3c ok 1 1 jd
    oq 1 1 qh ou 1 1 1n p0 1 1 50 p3 1 1 53 qr 1 1 qq r4 1 1 qa r5 1 1 qg r6 1 1 qt r9 1 1 qu ra
    1 1 qo s0 1 1 qi s1 2 1 qp s5 1 1 qd w4 1 1 lp w5 1 1 lw w6 1 1 lv w7 1 1 lp 14q 1 1 14p 153
    1 1 14o 15n 1 1 15m 15q 2 2 15p 15w 2 2 15v 19c a 1 1c 19w 1 1 17l 1d1 1 1 18o 1d2 1 1 18q
    1dc a 1 1c 1j4 a 1 1c 1uu a 1 1c 1ye a 1 1c 21y a 1 1c 25i a 1 1c 292 a 1 1c 2cm a 1 1c 2g6 a
    1 1c 2jq a 1 1c 2na a 1 1c 2qu a 1 1c 2ts a 1 1c 2xc a 1 1c 2zk a 1 1c 37k a 1 1c 39s a 1 1c
    3cs 1 1 3bw 4ps a 1 1c 4r4 a 1 1c 4zq a 1 1c 53k a 1 1c 58g a 1 1c 58w a 1 1c 5e8 a 1 1c 5gw
    a 1 1c 5kw a 1 1c 5lc a 1 1c 69q 1 1 qh 69r 1 1 69p 6b3 1 1 2o 6bh 1 1 50 6bk 1 1 w 6bl 1 1 w
    6bm 1 1 w 6bn 1 1 w 6bo 1 1 w 6bp 1 1 w 6bq 1 1 w 6br 1 1 w 6bs 1 1 w 6bt 1 1 w 6bu 1 1 w 6c1
    1 1 6c0 6ck 1 1 1a 6cv 1 1 w 6e7 1 1 w 6eo 1 1 1c 6ep 1 1 2x 6es 6 1 1g 6ey 1 1 17 6ez 1 1
    6qa 6f0 1 1 1p 6f1 2 1 14 6f3 1 1 32 6f4 a 1 1c 6fe 1 1 17 6ff 1 1 6qa 6fg 1 1 1p 6fh 2 1 14
    6fk 1 1 2p 6fl 1 1 2t 6fm 1 1 33 6fn 1 1 3c 6fo 1 1 gp 6fp 1 1 2w 6fq 4 1 2z 6fu 1 1 34 6fv 2
    1 37 6hf 1 1 6he 6hk 1 1 mu 6hl 1 1 mu 6hm 1 1 mu 6hp 1 1 5a6 6hq 1 1 5a6 6hr 1 1 5a6 6hs 1 1
    5a6 6hu 1 1 5a6 6hv 1 1 5a6 6hw 1 1 5a6 6hx 1 1 mu 6i2 1 1 mu 6i3 1 1 mu 6i4 1 1 ly 6i5 1 1
    ly 6i6 1 1 ly 6i7 1 1 ly 6i8 1 1 lp 6iq 1 1 2r 6iv 1 1 gr 6iy 2 1 2v 6j0 1 1 2w 6j1 1 1 2w
    6j2 1 1 2w 6j4 1 1 2x 6j5 1 1 2x 6j6 1 1 30 6j7 2 2 30 6jd 3 1 34 6jg 1 1 36 6jh 1 1 36 6jo 1
    1 3e 6js 1 1 3e 6jw 2 1 2q 6jz 1 1 2t 6k0 2 1 2t 6k3 1 1 31 6k4 1 1 33 6k5 4 1 15c 6k9 1 1 2x
    6kc 1 1 qo 6kd 1 1 qb 6ke 1 1 qb 6kf 1 1 qo 6kg 1 1 6q9 6kl 1 1 2s 6km 2 1 2s 6ko 2 1 2x 6ls
    1 1 2x 6lw 1 1 3a 6m1 1 1 3c 6m4 1 1 30 6m5 2 1 2r 6m7 1 1 31 6md 1 1 1i 6y1 2 1 9hk 76o 9 1
    1d 79s q 1 2p 7ai 1 1 1c 7at 9 1 1d 7b3 1 1 1c 7sm 9 1 1d 7sw 9 1 1d 7t6 9 1 1d 8sc 1 1 2y
    8sd 1 1 3a 9hc 1 1 w 9hj 1 1 1c 9i9 9 1 1d 9iu 1 1 9hu 9j6 5 2 9j5 9k4 1 1 9k3 9l0 3 2 9kz
    9lb 1 1 9la 9lh 1 1 9jf 9li 1 1 9jl 9lt i 2 9j5 9lu 5 2 9j5 9ms 1 1 9k3 9mu 5 2 9k6 9mz 3 2
    9kb 9n6 1 1 9ki 9n9 1 1 9kl 9nc 1 1 9ko 9nf 1 1 9kr 9ni 6 1 9ku 9no 3 2 9kz 9np 5 2 9l1 9nu 5
    2 9l6 9nz 1 1 9la 9o1 2 2 9ld 9o5 1 1 9jf 9o6 1 1 9jl wtc a 1 1c x2o 1 1 x2n xcg a 1 1c xds a
    1 1c xjk a 1 1c xkg a 1 1c xn4 a 1 1c xyo a 1 1c 1edd w 1 x 1eez 10 1 2j 1efz 2 1 879 1eg1 1
    1 9he 1eg2 2 1 9ho 1eg4 1 1 9hd 1eg5 1 1 9ob 1eg6 1 1 9le 1eg7 1 1 9j5 1eg8 1 1 9j7 1eg9 1 1
    9j9 1ega 1 1 9jb 1egb 1 1 9jd 1egc 1 1 9kz 1egd 1 1 9l1 1ege 1 1 9l3 1egf 1 1 9k3 1egg 1 1
    9oc 1egh 1 1 9j5 1egi 1 1 9j7 1egj 1 1 9j9 1egk 1 1 9jb 1egl 1 1 9jd 1egm 1 1 9jf 1egn 1 1
    9jh 1ego 1 1 9jj 1egp 1 1 9jl 1egq 1 1 9jn 1egr 1 1 9jp 1egs 1 1 9jr 1egt 1 1 9jt 1egu 1 1
    9jv 1egv 1 1 9jx 1egw 1 1 9jz 1egx 1 1 9k1 1egy 1 1 9k3 1egz 1 1 9k6 1eh0 1 1 9k8 1eh1 6 1
    9ka 1eh7 1 1 9ki 1eh8 1 1 9kl 1eh9 1 1 9ko 1eha 1 1 9kr 1ehb 6 1 9ku 1ehh 1 1 9l1 1ehi 1 1
    9l3 1ehj 6 1 9l5 1ehp 1 1 9lf 1ehq 2 1 9ll 1ejk 2 1 4i 1ejm 1 1 4s 1ejn 1 1 4v 1ejo 1 1 4m
    1ejp 1 1 4l 1ejq 1 1 6g9 1ejs 1 1 7b6 1ejt 4 1 6mo 1ejx 1 1 7fk 1ejy 1 1 7gr 1fhc a 1 1c 1h68
    a 1 1c 1ht2 a 1 1c 1hww a 1 1c 1hyu a 1 1c 1i34 a 1 1c 1ib4 a 1 1c 1ikw a 1 1c 1iog a 1 1c
    1iz4 a 1 1c 1j28 a 1 1c 1j5c a 1 1c 1jhc a 1 1c 1jkg a 1 1c 1k5s a 1 1c 1kcw a 1 1c 1kf4 a 1
    1c 1zkw a 1 1c 1zrk a 1 1c 2kg0 q 1 2p 2kgq q 1 2p 2khg q 1 2p 2ki6 d 2 2p 2ki7 3 2 2q 2kif 9
    2 2y 2kiw q 1 2p 2kjm q 1 2p 2kkc 2 2 2p 2kkf 1 1 2s 2kki 1 1 2v 2kkl 2 1 2y 2kkp 4 1 32 2kku
    8 1 37 2kl2 4 1 2p 2kl7 b 2 2u 2kla 3 2 2x 2kli 5 2 35 2kls q 1 2p 2kmi q 1 2p 2kn8 2 1 2p
    2knb 4 1 2s 2knh 8 1 2y 2knq 7 1 37 2kny q 1 2p 2koo 2 1 2p 2kor 4 1 2s 2kow 5 1 2x 2kp2 1 1
    33 2kp6 7 1 37 2kpe q 1 2p 2kq4 q 1 2p 2kqu q 1 2p 2krk q 1 2p 2ksa q 1 2p 2kt0 q 1 2p 2ktq q
    1 2p 2kug q 1 2p 2kv6 q 1 2p 2kvw q 1 2p 2kwm q 1 2p 2kxc q 1 2p 2ky2 q 1 2p 2kys 1 1 8h 2kyt
    1 1 fr 2kyw h 1 q9 2kzd 1 1 qg 2kze 1 1 qq 2kzf 6 1 qs 2kzl 1 1 6pz 2kzm i 1 q9 2l04 1 1 qq
    2l05 6 1 qs 2l0b 1 1 6pu 2l0c 1 1 qd 2l0d 1 1 qg 2l0e 1 1 qi 2l0f 1 1 qu 2l0g 1 1 qp 2l0h 1 1
    qo 2l0i h 1 q9 2l0z 1 1 qg 2l10 1 1 qq 2l11 6 1 qs 2l17 1 1 6pz 2l18 i 1 q9 2l1q 1 1 qq 2l1r
    6 1 qs 2l1x 1 1 6pu 2l1y 1 1 qd 2l1z 1 1 qg 2l20 1 1 qi 2l21 1 1 qu 2l22 1 1 qp 2l23 1 1 qo
    2l24 h 1 q9 2l2l 1 1 qg 2l2m 1 1 qq 2l2n 6 1 qs 2l2t 1 1 6pz 2l2u i 1 q9 2l3c 1 1 qq 2l3d 6 1
    qs 2l3j 1 1 6pu 2l3k 1 1 qd 2l3l 1 1 qg 2l3m 1 1 qi 2l3n 1 1 qu 2l3o 1 1 qp 2l3p 1 1 qo 2l3q
    h 1 q9 2l47 1 1 qg 2l48 1 1 qq 2l49 6 1 qs 2l4f 1 1 6pz 2l4g i 1 q9 2l4y 1 1 qq 2l4z 6 1 qs
    2l55 1 1 6pu 2l56 1 1 qd 2l57 1 1 qg 2l58 1 1 qi 2l59 1 1 qu 2l5a 1 1 qp 2l5b 1 1 qo 2l5c h 1
    q9 2l5t 1 1 qg 2l5u 1 1 qq 2l5v 6 1 qs 2l61 1 1 6pz 2l62 i 1 q9 2l6k 1 1 qq 2l6l 6 1 qs 2l6r
    1 1 6pu 2l6s 1 1 qd 2l6t 1 1 qg 2l6u 1 1 qi 2l6v 1 1 qu 2l6w 1 1 qp 2l6x 1 1 qo 2l6y 1 1 rh
    2l6z 1 1 rh 2l72 a 1 1c 2l7c a 1 1c 2l7m a 1 1c 2l7w a 1 1c 2l86 a 1 1c 2n28 a 1 1c 2ne8 a 1
    1c 2onk a 1 1c 2q6j 1 1 1c 2q6k 1 1 1c 2q7f 1 1 2r 2q7g 1 1 36 2q7k q 1 2p 2q8g q 1 2p 2q9c q
    1 2p 2qa2 1 1 34 2qat 1 1 2s 2qde 1 1 9jp 2sc0 a 1 1c") none)

/-- Reads expansions: the distance to a character, the number of characters that it sorts as, and
those characters; `fuel` bounds the number of expansions. -/
def readExpansions : Nat → Nat → List Nat → List (Nat × List Nat)
  | fuel + 1, before, distance :: count :: rest =>
    (before + distance, rest.take count) ::
      readExpansions fuel (before + distance) (rest.drop count)
  | _, _, _ => []

/-- The characters that sort as several characters do. Two private code points stand for the
marks of a ligature and of a letter joined to a middle dot. -/
def expansions : List (Nat × List Nat) := readExpansions 900 0 (readNumbers (String.toList
  "58 3 1d 6dg 1g 1 3 1d 6dg 1e 1 3 1f 6dg 1g x 3 37 188w 37 1 2 2p lc 1 2 2p ld 1 2 2p le 1 2
    2p lf 1 2 2p lk 1 2 2p lm 1 3 2p 188w 2t 1 2 2r mf 1 2 2t lc 1 2 2t ld 1 2 2t le 1 2 2t lk 1
    2 2x lc 1 2 2x ld 1 2 2x le 1 2 2x lk 1 2 2s 188w 1 2 32 lf 1 2 33 lc 1 2 33 ld 1 2 33 le 1 2
    33 lf 1 2 33 lk 2 2 33 mw 1 2 39 lc 1 2 39 ld 1 2 39 le 1 2 39 lk 1 2 3d ld 2 2 3d lk 2 2 2p
    lg 2 2 2p li 2 2 2p mg 2 2 2r ld 2 2 2r le 2 2 2r lj 2 2 2r lo 2 2 2s lo 2 2 2s mt 2 2 2t lg
    2 2 2t li 2 2 2t lj 2 2 2t mg 2 2 2t lo 2 2 2v le 2 2 2v li 2 2 2v lj 2 2 2v mf 2 2 2w le 2 2
    2w mt 2 2 2x lf 2 2 2x lg 2 2 2x li 2 2 2x mg 1 2 2x lj 3 2 2x 2y 2 2 2y le 2 2 2z mf 3 2 30
    ld 2 2 30 mf 2 2 30 lo 2 2 30 188w 2 2 30 mt 2 2 32 ld 2 2 32 mf 2 2 32 lo 1 2 jg 32 4 2 33
    lg 2 2 33 li 2 2 33 ln 2 3 33 188w 2t 2 2 36 ld 2 2 36 mf 2 2 36 lo 2 2 37 ld 2 2 37 le 2 2
    37 mf 2 2 37 lo 2 2 38 mf 2 2 38 lo 4 2 39 lf 2 2 39 lg 2 2 39 li 2 2 39 lm 2 2 39 ln 2 2 39
    mg 2 2 3b le 2 2 3d le 3 2 3e ld 2 2 3e lj 2 2 3e lo 1 2 37 188x e 2 3e 3b k 2 33 m3 f 2 39
    m3 e 2 38 37 8 3 2s 3e lo 3 2 30 2y 3 2 32 2y 2 2 2p lo 2 2 2x lo 2 2 33 lo 2 2 39 lo 2 3 39
    lk lg 2 3 39 lk ld 2 3 39 lk lo 2 3 39 lk lc 3 3 2p lk lg 2 3 2p lj lg 2 4 2p 188w 2t lg 4 2
    2v lo 2 2 2z lo 2 2 33 mg 2 3 33 mg lg 2 2 ia lo 1 2 2y lo 3 2 2s 3e 2 2 2v ld 4 2 32 lc 2 3
    2p lm ld 2 4 2p 188w 2t ld 2 3 33 mw ld 2 2 2p lr 2 2 2p lt 2 2 2t lr 2 2 2t lt 2 2 2x lr 2 2
    2x lt 2 2 33 lr 2 2 33 lt 2 2 36 lr 2 2 36 lt 2 2 39 lr 2 2 39 lt 2 2 37 me 2 2 38 me 4 2 2w
    lo 8 2 2p lj 2 2 2t mf 2 3 33 lk lg 2 3 33 lf lg 2 2 33 lj 2 3 33 lj lg 2 2 3d lg 5 2 2s 2q 1
    2 35 34 2y 2 2s 3e 1 2 2s ia 1 2 2s i9 1 2 38 37 1 2 38 hv 1 2 38 gl 1 2 2u 97 1 2 30 37 1 2
    30 3e 49 2 lk ld 1t 2 4o ld b 3 qh lk ld s 2 q9 ld 1 2 qd ld 1 2 qf ld 1 2 qh ld 1 3 qt lk ld
    q 2 qh lk 1 2 qt lk 1 2 qn ld 1 2 qt ld 1 2 qx ld 5 2 qt ld 1 2 qt lk 3 3 qi q9 qh 3d 2 tx lc
    1 2 tx lk 2 2 tv ld 4 2 uu lk 5 2 u2 ld 1 2 u0 lc 1 2 ub li p 2 vp lr q 2 tv 188x 1d 2 ty li
    f 2 ts li 2 2 ts lk 4 2 tx li 4 2 yh lk 2 2 ty lk 2 2 tz lk 4 2 u0 lg 2 2 u0 lk 2 2 u6 lk 4 2
    yx lk 2 2 ul lk 2 2 ub lg 2 2 ub lk 2 2 ub ln 2 2 uf lk 4 2 uj lk 3y 2 12d 136 2w 4 15l 15g
    15h 15g 1 2 15h 15h 1 2 15h 15l 1 2 15l 15l 3n 2 17r 17l 1 2 18o 17l 1 2 1c7 17l 1 2 18q 17l
    20 2 1cl 190 2 2 1c1 190 h 2 1ci 190 16 2 17l 188x 1 2 18l 188x 4jn 2 2p md 2 2 2q lj 2 2 2q
    mb 2 2 2q mp 2 3 2r mf ld 2 2 2s lj 2 2 2s mb 2 2 2s mp 2 2 2s mf 2 2 2s ml 2 3 2t lg lc 2 3
    2t lg ld 2 2 2t ml 2 2 2t mo 2 3 2t mf li 2 2 2u lj 2 2 2v lg 2 2 2w lj 2 2 2w mb 2 2 2w lk 2
    2 2w mf 2 2 2w mm 2 2 2x mo 2 3 2x lk ld 2 2 2z ld 2 2 2z mb 2 2 2z mp 2 2 30 mb 2 3 30 mb lg
    2 2 30 mp 2 2 30 ml 2 2 31 ld 2 2 31 lj 2 2 31 mb 2 2 32 lj 2 2 32 mb 2 2 32 mp 2 2 32 ml 2 3
    33 lf ld 2 3 33 lf lk 2 3 33 lg lc 2 3 33 lg ld 2 2 34 ld 2 2 34 lj 2 2 36 lj 2 2 36 mb 2 3
    36 mb lg 2 2 36 mp 2 2 37 lj 2 2 37 mb 2 3 37 ld lj 2 3 37 lo lj 2 3 37 mb lj 2 2 38 lj 2 2
    38 mb 2 2 38 mp 2 2 38 ml 2 2 39 mc 2 2 39 mo 2 2 39 ml 2 3 39 lf ld 2 3 39 lg lk 2 2 3a lf 2
    2 3a mb 2 2 3b lc 2 2 3b ld 2 2 3b lk 2 2 3b lj 2 2 3b mb 2 2 3c lj 2 2 3c lk 2 2 3d lj 2 2
    3e le 2 2 3e mb 2 2 3e mp 1 2 2w mp 1 2 38 lk 1 2 3b lm 1 2 3d lm 1 2 2p ji 1 3 37 188x lj 6
    2 2p mb 2 2 2p ll 2 3 2p le ld 2 3 2p le lc 2 3 2p le ll 2 3 2p le lf 2 3 2p mb le 2 3 2p li
    ld 2 3 2p li lc 2 3 2p li ll 2 3 2p li lf 2 3 2p mb li 2 2 2t mb 2 2 2t ll 2 2 2t lf 2 3 2t
    le ld 2 3 2t le lc 2 3 2t le ll 2 3 2t le lf 2 3 2t mb le 2 2 2x ll 2 2 2x mb 2 2 33 mb 2 2
    33 ll 2 3 33 le ld 2 3 33 le lc 2 3 33 le ll 2 3 33 le lf 2 3 33 mb le 2 3 33 m3 ld 2 3 33 m3
    lc 2 3 33 m3 ll 2 3 33 m3 lf 2 3 33 m3 mb 2 2 39 mb 2 2 39 ll 2 3 39 m3 ld 2 3 39 m3 lc 2 3
    39 m3 ll 2 3 39 m3 lf 2 3 39 m3 mb 2 2 3d lc 2 2 3d mb 2 2 3d ll 2 2 3d lf 2 2 30 30 5 2 q9
    lv 1 2 q9 lw 1 3 q9 lv lc 1 3 q9 lw lc 1 3 q9 lv ld 1 3 q9 lw ld 1 3 q9 lv n6 1 3 q9 lw n6 9
    2 qd lv 1 2 qd lw 1 3 qd lv lc 1 3 qd lw lc 1 3 qd lv ld 1 3 qd lw ld b 2 qf lv 1 2 qf lw 1 3
    qf lv lc 1 3 qf lw lc 1 3 qf lv ld 1 3 qf lw ld 1 3 qf lv n6 1 3 qf lw n6 9 2 qh lv 1 2 qh lw
    1 3 qh lv lc 1 3 qh lw lc 1 3 qh lv ld 1 3 qh lw ld 1 3 qh lv n6 1 3 qh lw n6 9 2 qn lv 1 2
    qn lw 1 3 qn lv lc 1 3 qn lw lc 1 3 qn lv ld 1 3 qn lw ld b 2 qt lv 1 2 qt lw 1 3 qt lv lc 1
    3 qt lw lc 1 3 qt lv ld 1 3 qt lw ld 1 3 qt lv n6 1 3 qt lw n6 9 2 qx lv 1 2 qx lw 1 3 qx lv
    lc 1 3 qx lw lc 1 3 qx lv ld 1 3 qx lw ld 1 3 qx lv n6 1 3 qx lw n6 9 2 q9 lc 1 2 q9 ld 1 2
    qd lc 1 2 qd ld 1 2 qf lc 1 2 qf ld 1 2 qh lc 1 2 qh ld 1 2 qn lc 1 2 qn ld 1 2 qt lc 1 2 qt
    ld 1 2 qx lc 1 2 qx ld 3 3 q9 lv n9 1 3 q9 lw n9 1 4 q9 lv lc n9 1 4 q9 lw lc n9 1 4 q9 lv ld
    n9 1 4 q9 lw ld n9 1 4 q9 lv n6 n9 1 4 q9 lw n6 n9 9 3 qf lv n9 1 3 qf lw n9 1 4 qf lv lc n9
    1 4 qf lw lc n9 1 4 qf lv ld n9 1 4 qf lw ld n9 1 4 qf lv n6 n9 1 4 qf lw n6 n9 9 3 qx lv n9
    1 3 qx lw n9 1 4 qx lv lc n9 1 4 qx lw lc n9 1 4 qx lv ld n9 1 4 qx lw ld n9 1 4 qx lv n6 n9
    1 4 qx lw n6 n9 9 2 q9 li 1 2 q9 lg 1 3 q9 lc n9 1 2 q9 n9 1 3 q9 ld n9 2 2 q9 n6 1 3 q9 n6
    n9 a 2 4o n6 1 3 qf lc n9 1 2 qf n9 1 3 qf ld n9 2 2 qf n6 1 3 qf n6 n9 6 2 69p lc 1 2 69p ld
    1 2 69p n6 1 2 qh li 1 2 qh lg 1 3 qh lk lc 1 3 qh lk ld 3 2 qh n6 1 3 qh lk n6 6 2 6bi lc 1
    2 6bi ld 1 2 6bi n6 1 2 qt li 1 2 qt lg 1 3 qt lk lc 1 3 qt lk ld 1 2 qp lv 1 2 qp lw 1 2 qt
    n6 1 3 qt lk n6 6 2 4o lc 1 2 4o ld 4 3 qx lc n9 1 2 qx n9 1 3 qx ld n9 2 2 qx n6 1 3 qx n6
    n9 1a 2 1a 1a 1 3 1a 1a 1a d 2 6cy 6cy 1 3 6cy 6cy 6cy 2 2 6d1 6d1 1 3 6d1 6d1 6d1 5 2 x x b
    2 1r 1r 1 2 1r x 1 2 x 1r e 4 6cy 6cy 6cy 6cy 29 2 36 37 2g 3 2p 1b 2r 1 3 2p 1b 37 2 2 4w 2r
    2 3 2r 1b 33 1 3 2r 1b 39 3 2 4w 2u 6 2 2w mt 7 2 32 33 a 2 37 31 1 3 38 2t 30 1 2 38 31 p 3
    2u 2p 3c i 3 2p 1b 37 3 3 1d 6dg 1j 1 3 1d 6dg 1l 1 4 1d 6dg 1d 1c 1 3 1d 6dg 1f 1 3 1e 6dg
    1f 1 3 1d 6dg 1h 1 3 1e 6dg 1h 1 3 1f 6dg 1h 1 3 1g 6dg 1h 1 3 1d 6dg 1i 1 3 1h 6dg 1i 1 3 1d
    6dg 1k 1 3 1f 6dg 1k 1 3 1h 6dg 1k 1 3 1j 6dg 1k 1 2 1d 6dg i 2 2x 2x 1 3 2x 2x 2x 1 2 2x 3a
    2 2 3a 2x 1 3 3a 2x 2x 1 4 3a 2x 2x 2x 1 2 2x 3c 2 2 3c 2x 1 3 3c 2x 2x e 3 1c 6dg 1f h 2 6mo
    mw 1 2 6mq mw j 2 6ms mw v 2 6og mw 1 2 6ok mw 1 2 6oi mw 1h 2 6pv mw 5 2 6q0 mw 3 2 6q3 mw o
    2 6qr mw 2 2 6qt mw 6 2 6qz 6qz 1 3 6qz 6qz 6qz 2 2 6r2 6r2 1 3 6r2 6r2 6r2 h 2 6rg mw 3 2
    6rn mw 3 2 6rp mw 2 2 6rs mw n 2 1p mw 2 2 6sh mw b 2 6rx mw 1 2 1o mw 1 2 1q mw 1 2 6sk mw 1
    2 6sl mw 3 2 6sy mw 1 2 6sz mw 3 2 6t2 mw 1 2 6t3 mw 7 2 6t6 mw 1 2 6t7 mw 3 2 6te mw 1 2 6tf
    mw 3 2 6ti mw 1 2 6tj mw z 2 6ua mw 1 2 6ug mw 1 2 6uh mw 1 2 6uj mw 1d 2 6t8 mw 1 2 6t9 mw 1
    2 6tt mw 1 2 6tu mw 7 2 6uq mw 1 2 6ur mw 1 2 6us mw 1 2 6ut mw ak 2 1d 1c 1 2 1d 1d 1 2 1d
    1e 1 2 1d 1f 1 2 1d 1g 1 2 1d 1h 1 2 1d 1i 1 2 1d 1j 1 2 1d 1k 1 2 1d 1l 1 2 1e 1c 1 3 14 1d
    15 1 3 14 1e 15 1 3 14 1f 15 1 3 14 1g 15 1 3 14 1h 15 1 3 14 1i 15 1 3 14 1j 15 1 3 14 1k 15
    1 3 14 1l 15 1 4 14 1d 1c 15 1 4 14 1d 1d 15 1 4 14 1d 1e 15 1 4 14 1d 1f 15 1 4 14 1d 1g 15
    1 4 14 1d 1h 15 1 4 14 1d 1i 15 1 4 14 1d 1j 15 1 4 14 1d 1k 15 1 4 14 1d 1l 15 1 4 14 1e 1c
    15 1 2 1d 1a 1 2 1e 1a 1 2 1f 1a 1 2 1g 1a 1 2 1h 1a 1 2 1i 1a 1 2 1j 1a 1 2 1k 1a 1 2 1l 1a
    1 3 1d 1c 1a 1 3 1d 1d 1a 1 3 1d 1e 1a 1 3 1d 1f 1a 1 3 1d 1g 1a 1 3 1d 1h 1a 1 3 1d 1i 1a 1
    3 1d 1j 1a 1 3 1d 1k 1a 1 3 1d 1l 1a 1 3 1e 1c 1a 1 3 14 2p 15 1 3 14 2q 15 1 3 14 2r 15 1 3
    14 2s 15 1 3 14 2t 15 1 3 14 2u 15 1 3 14 2v 15 1 3 14 2w 15 1 3 14 2x 15 1 3 14 2y 15 1 3 14
    2z 15 1 3 14 30 15 1 3 14 31 15 1 3 14 32 15 1 3 14 33 15 1 3 14 34 15 1 3 14 35 15 1 3 14 36
    15 1 3 14 37 15 1 3 14 38 15 1 3 14 39 15 1 3 14 3a 15 1 3 14 3b 15 1 3 14 3c 15 1 3 14 3d 15
    1 3 14 3e 15 1i 2 1d 1d 1 2 1d 1e 1 2 1d 1f 1 2 1d 1g 1 2 1d 1h 1 2 1d 1i 1 2 1d 1j 1 2 1d 1k
    1 2 1d 1l 1 2 1e 1c a 2 1d 1c ht 2 1d 1c a 2 1d 1c a 2 1d 1c hl 4 6qz 6qz 6qz 6qz 2w 3 1m 1m
    1p 1 2 1p 1p 1 3 1p 1p 1p 2u 2 8gt mw 10q 2 9jr 9kx 18 2 9ip 9ll 2 2 9ir 9ll 8 2 9ku 9jt g 2
    9jf 9ll 2 2 9jh 9ll 2 2 9jj 9ll 2 2 9jl 9ll 2 2 9jn 9ll 2 2 9jp 9ll 2 2 9jr 9ll 2 2 9jt 9ll 2
    2 9jv 9ll 2 2 9jx 9ll 2 2 9jz 9ll 2 2 9k1 9ll 3 2 9k3 9ll 2 2 9k6 9ll 2 2 9k8 9ll 7 2 9kf 9ll
    1 2 9kf 9lm 2 2 9ki 9ll 1 2 9ki 9lm 2 2 9kl 9ll 1 2 9kl 9lm 2 2 9ko 9ll 1 2 9ko 9lm 2 2 9kr
    9ll 1 2 9kr 9lm n 2 9j9 9ll a 2 9lp 9ll 1 2 9l3 9l6 d 2 9jf 9ll 2 2 9jh 9ll 2 2 9jj 9ll 2 2
    9jl 9ll 2 2 9jn 9ll 2 2 9jp 9ll 2 2 9jr 9ll 2 2 9jt 9ll 2 2 9jv 9ll 2 2 9jx 9ll 2 2 9jz 9ll 2
    2 9k1 9ll 3 2 9k3 9ll 2 2 9k6 9ll 2 2 9k8 9ll 7 2 9kf 9ll 1 2 9kf 9lm 2 2 9ki 9ll 1 2 9ki 9lm
    2 2 9kl 9ll 1 2 9kl 9lm 2 2 9ko 9ll 1 2 9ko 9lm 2 2 9kr 9ll 1 2 9kr 9lm n 2 9j9 9ll 3 2 9la
    9ll 1 2 9lc 9ll 1 2 9ld 9ll 1 2 9le 9ll 4 2 9od 9ll 1 2 9jn 9k8 nca 2 38 3e a 2 2p 2p 2 2 2p
    33 2 2 2p 39 2 2 2p 3a 2 3 2p 188w 3a 2 2 2p 3d i 2 33 33 i 2 3a 3d p 2 2s 188x 2 2 2u 188x 7
    2 36 188x 2 2 37 188x 2 2 38 188x k 2 2p lk 2 2 33 lk 2 2 39 lk 2 2 2v mu 2 2 2z mu 2 2 32 mu
    2 2 36 mu 2 2 37 mu 27 2 2w mt 1 3 33 188w 2t gef 2 2u 2u 1 2 2u 2x 1 2 2u 30 1 3 2u 2u 2x 1
    3 2u 2u 30 1 3 37 188x 38 1 2 37 38 1cl6 2 1c 1a 1 2 1c 18 1 2 1d 18 1 2 1e 18 1 2 1f 18 1 2
    1g 18 1 2 1h 18 1 2 1i 18 1 2 1j 18 1 2 1k 18 1 2 1l 18 6 3 14 2p 15 1 3 14 2q 15 1 3 14 2r
    15 1 3 14 2s 15 1 3 14 2t 15 1 3 14 2u 15 1 3 14 2v 15 1 3 14 2w 15 1 3 14 2x 15 1 3 14 2y 15
    1 3 14 2z 15 1 3 14 30 15 1 3 14 31 15 1 3 14 32 15 1 3 14 33 15 1 3 14 34 15 1 3 14 35 15 1
    3 14 36 15 1 3 14 37 15 1 3 14 38 15 1 3 14 39 15 1 3 14 3a 15 1 3 14 3b 15 1 3 14 3c 15 1 3
    14 3d 15 1 3 14 3e 15 1 3 9hw 37 9hx 3 2 2r 2s 1 2 3b 3e s 2 2w 3a 1 2 31 3a 1 2 37 2s 1 2 37
    37 1 3 34 34 3a 1 2 3b 2r r 2 31 2r 1 2 31 2s 1 2 31 36 v 2 2x 2r 1 2 34 2p 1 2 37 2p 1 2 2p
    2q 1 2 3b 2r 1 2 2s 2y 1 2 2r 30 1 4 2r 33 33 30 1 4 2u 36 2t 2t 1 2 2x 2s 1 3 32 2t 3b 1 2
    32 2v 1 2 33 2z 1 3 37 33 37 1 3 39 34 x 1 2 3a 37 1 2 1f 2s 1 7 1e 32 2s w 37 2r 36 1 2 1e
    2z 1 2 1g 2z 1 2 1k 2z 1 3 1h 1a 1d 1 3 1j 1a 1d 1 4 1e 1e 1a 1e 1 3 1i 1c 34 1 4 1d 1e 1c 34
    2 2 2w 2r 1 3 2w 2s 36 1 6 2w 2x w 36 2t 37 1 8 30 33 37 37 30 2t 37 37 1 3 37 2w 3a 1 3 39
    2w 2s 1 3 3a 33 2s 2c 2 9kr 9jf 1 2 9jn 9jn i 2 9k6 9ll") none)

/-- The characters that expand. -/
def expansionStarts : Array Nat := (expansions.map Prod.fst).toArray

/-- The expansions, in the order of their characters. -/
def expansionArray : Array (List Nat) := (expansions.map Prod.snd).toArray

/-- The characters that a character expands to. -/
def expansion? (point : Nat) : Option (List Nat) :=
  match startsUpTo expansionStarts point with
  | 0 => none
  | n + 1 =>
    if expansionStarts.getD n 0 = point then some (expansionArray.getD n []) else none

/-- The accents, in their order. -/
def accents : List Nat := readNumbers (String.toList
  "mq lv lw ld lc li le lo lm n6 lk ln lf lj mw mf mg lg lp ly mu 5a6 9ll 9lm mt lh ll lr ls lt
    m3 m9 ma mb mc md me ml mm mo mp ms mx n9 ns o0 o1 w3 14g 14h 14i 14j 14k 14l 14m 14n 14o 14p
    14r 14y 14x 14s 14v 18r 18s 18t 18u 18v 18w 18x 18y 18z 190 191 19b 192 193 194 195 196 197
    198 199 19a 19s 9ii 9ij 9ik 9il 9im 9in 6hc 6hd 6he 6hg 6hh 6hi 6hj 6hn 6ho 6ht 6hy 6hz 6i0
    6i1 188w 188x") none

/-- The rank of an accent. -/
def accentRank? (point : Nat) : Option Nat := accents.idxOf? point

end NoteVault.Collation
