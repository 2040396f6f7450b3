import NoteVault.Unicode.Space

/-!
Cutting text: trimming, splitting at a character or at a piece of text, words and lines. All
functions work on lists of characters. Main statements: `pieces` and `linesWithEnds` lose nothing,
and a cut returns the parts around the place it was made at.
-/

namespace NoteVault.Text

open Unicode

/-- Drops the longest end that satisfies `p`. -/
def dropEndWhile (p : Char → Bool) (cs : List Char) : List Char :=
  (cs.reverse.dropWhile p).reverse

/-- Drops white space in front. -/
def trimStart (cs : List Char) : List Char := cs.dropWhile isSpace

/-- Drops white space at the end. -/
def trimEnd (cs : List Char) : List Char := dropEndWhile isSpace cs

/-- Drops white space on both sides. -/
def trim (cs : List Char) : List Char := trimEnd (trimStart cs)

/-- The rest after a given beginning. -/
def stripPrefix? : List Char → List Char → Option (List Char)
  | [], cs => some cs
  | _ :: _, [] => none
  | x :: xs, c :: cs => if x = c then stripPrefix? xs cs else none

/-- The part before a given end. -/
def stripSuffix? (ending cs : List Char) : Option (List Char) :=
  (stripPrefix? ending.reverse cs.reverse).map List.reverse

/-- The parts between the occurrences of a character; there is always at least one part. -/
def pieces (sep : Char) : List Char → List (List Char)
  | [] => [[]]
  | c :: cs =>
    if c = sep then [] :: pieces sep cs
    else match pieces sep cs with
      | [] => [[c]]
      | p :: ps => (c :: p) :: ps

/-- Cuts at the first occurrence of a character. -/
def cutFirst (sep : Char) : List Char → Option (List Char × List Char)
  | [] => none
  | c :: cs =>
    if c = sep then some ([], cs)
    else (cutFirst sep cs).map fun (a, b) => (c :: a, b)

/-- Cuts at the last occurrence of a character. -/
def cutLast (sep : Char) (cs : List Char) : Option (List Char × List Char) :=
  (cutFirst sep cs.reverse).map fun (a, b) => (b.reverse, a.reverse)

/-- Cuts at the first occurrence of a piece of text. -/
def cutText (sep : List Char) : List Char → Option (List Char × List Char)
  | [] => (stripPrefix? sep []).map fun rest => ([], rest)
  | c :: cs =>
    match stripPrefix? sep (c :: cs) with
    | some rest => some ([], rest)
    | none => (cutText sep cs).map fun (a, b) => (c :: a, b)

/-- Whether a piece of text occurs. -/
def containsText (sep cs : List Char) : Bool := (cutText sep cs).isSome

/-- A beginning is taken off where a text has it. -/
theorem stripPrefix?_eq_some_iff {xs cs rest : List Char} :
    stripPrefix? xs cs = some rest ↔ cs = xs ++ rest := by
  induction xs generalizing cs with
  | nil => simp [stripPrefix?]
  | cons x xs ih =>
    cases cs with
    | nil => simp [stripPrefix?]
    | cons c cs =>
      rw [stripPrefix?, List.cons_append, List.cons.injEq, ← ih]
      by_cases hc : x = c
      · simp [hc]
      · simp [hc, Ne.symm hc]

/-- An end is taken off where a text has it. -/
theorem stripSuffix?_eq_some_iff {ending cs rest : List Char} :
    stripSuffix? ending cs = some rest ↔ cs = rest ++ ending := by
  rw [stripSuffix?, Option.map_eq_some_iff]
  constructor
  · rintro ⟨reversed, hstrip, rfl⟩
    rw [stripPrefix?_eq_some_iff] at hstrip
    rw [← List.reverse_reverse cs, hstrip, List.reverse_append, List.reverse_reverse]
  · rintro rfl
    refine ⟨rest.reverse, ?_, List.reverse_reverse rest⟩
    rw [stripPrefix?_eq_some_iff, List.reverse_append]

theorem length_stripPrefix? {xs cs rest : List Char} (h : stripPrefix? xs cs = some rest) :
    cs.length = xs.length + rest.length := by
  rw [stripPrefix?_eq_some_iff.1 h, List.length_append]

theorem length_cutText {sep cs a b : List Char} (h : cutText sep cs = some (a, b)) :
    cs.length = a.length + sep.length + b.length := by
  induction cs generalizing a with
  | nil =>
    simp only [cutText, Option.map_eq_some_iff, Prod.mk.injEq] at h
    obtain ⟨rest, hr, rfl, rfl⟩ := h
    simpa using length_stripPrefix? hr
  | cons c cs ih =>
    simp only [cutText] at h
    split at h
    · rename_i rest hr
      simp only [Option.some.injEq, Prod.mk.injEq] at h
      obtain ⟨rfl, rfl⟩ := h
      simpa using length_stripPrefix? hr
    · simp only [Option.map_eq_some_iff, Prod.mk.injEq] at h
      obtain ⟨⟨a', b'⟩, hc, rfl, rfl⟩ := h
      simpa [Nat.add_right_comm _ 1] using ih hc

theorem length_cutFirst {sep : Char} {cs a b : List Char} (h : cutFirst sep cs = some (a, b)) :
    cs.length = a.length + 1 + b.length := by
  induction cs generalizing a with
  | nil => simp [cutFirst] at h
  | cons c cs ih =>
    simp only [cutFirst] at h
    split at h
    · simp only [Option.some.injEq, Prod.mk.injEq] at h
      obtain ⟨rfl, rfl⟩ := h
      simp [Nat.add_comm]
    · simp only [Option.map_eq_some_iff, Prod.mk.injEq] at h
      obtain ⟨⟨a', b'⟩, hc, rfl, rfl⟩ := h
      simpa [Nat.add_right_comm _ 1] using ih hc

/-- The words of a text: its longest runs of characters that are not white space. `word` holds
the word being read. -/
def wordsFrom : List Char → List Char → List (List Char)
  | word, [] => if word.isEmpty then [] else [word]
  | word, c :: cs =>
    if isSpace c then
      if word.isEmpty then wordsFrom [] cs else word :: wordsFrom [] cs
    else wordsFrom (word ++ [c]) cs

/-- The words of a text. -/
def words (cs : List Char) : List (List Char) := wordsFrom [] cs

/-- The lines of a text, each with its line feed; there is no line after a last line feed. -/
def linesWithEnds : List Char → List (List Char)
  | [] => []
  | c :: cs =>
    if c = '\n' then [c] :: linesWithEnds cs
    else match linesWithEnds cs with
      | [] => [[c]]
      | l :: ls => (c :: l) :: ls

/-- A line without its line feed, nor a carriage return before that. -/
def chomp (line : List Char) : List Char :=
  match stripSuffix? ['\n'] line with
  | none => line
  | some body => (stripSuffix? ['\r'] body).getD body

/-- The lines of a text without their ends. -/
def lines (cs : List Char) : List (List Char) := (linesWithEnds cs).map chomp

theorem flatten_linesWithEnds (cs : List Char) : (linesWithEnds cs).flatten = cs := by
  induction cs with
  | nil => rfl
  | cons c cs ih =>
    simp only [linesWithEnds]
    split
    · simp [ih]
    · split
      · rename_i h
        simp [h] at ih
        simp [← ih]
      · rename_i h
        simp [h] at ih
        simp [← ih]

/-- Joins texts with a separator between them. -/
def joinWith (sep : String) (parts : List String) : String := String.intercalate sep parts

/-- The number of bytes of a list of characters in UTF-8. -/
def byteLength : List Char → Nat
  | [] => 0
  | c :: cs => c.utf8Size + byteLength cs

/-- The longest beginning whose characters end at or before byte `limit`, and the rest. -/
def splitAtByte : Nat → List Char → List Char × List Char
  | _, [] => ([], [])
  | limit, c :: cs =>
    if c.utf8Size ≤ limit then
      let (a, b) := splitAtByte (limit - c.utf8Size) cs
      (c :: a, b)
    else ([], c :: cs)

end NoteVault.Text
