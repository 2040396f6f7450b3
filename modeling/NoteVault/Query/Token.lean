import NoteVault.Text.Cut

/-!
Tokens of a query: phrases in quotes, which an exclamation mark may precede, and runs of characters
that are not white space. Main statement: a cut loses nothing.
-/

namespace NoteVault.Query

open Text Unicode

/-- The characters that may stand around a phrase. -/
def isQuote (c : Char) : Bool := c == '\x22' || c == '\x27'

/-- The phrase that a quote ends, and the text behind that quote. A quote behind a backslash ends
the phrase only where no later one does. -/
def closing? (q : Char) : List Char → Option (List Char × List Char)
  | [] => none
  | [c] => if c = q then some ([], []) else none
  | c :: d :: cs =>
    if c = q then some ([], d :: cs)
    else if c = '\\' ∧ d = q then
      match closing? q cs with
      | some (phrase, rest) => some (c :: d :: phrase, rest)
      | none => some ([c], cs)
    else (closing? q (d :: cs)).map fun (phrase, rest) => (c :: phrase, rest)

theorem closing?_append {q : Char} {cs phrase rest : List Char}
    (h : closing? q cs = some (phrase, rest)) : cs = phrase ++ q :: rest := by
  fun_induction closing? q cs generalizing phrase rest with
  | case1 => simp at h
  | case2 => simp_all
  | case3 => simp at h
  | case4 d cs => simp_all
  | case5 c d cs hc hd p r hr ih => grind
  | case6 c d cs hc hd hr ih => grind
  | case7 c d cs hc hd ih =>
    obtain ⟨⟨p, r⟩, hp, he⟩ := Option.map_eq_some_iff.1 h
    cases he
    simp [ih hp]

/-- A phrase with its quotes at the beginning of a text, and the text behind it. -/
def phrase? : List Char → Option (List Char × List Char)
  | q :: cs =>
    if isQuote q then (closing? q cs).map fun (phrase, rest) => (q :: phrase ++ [q], rest)
    else none
  | [] => none

theorem phrase?_append {cs token rest : List Char} (h : phrase? cs = some (token, rest)) :
    cs = token ++ rest := by
  unfold phrase? at h
  split at h
  · split at h
    · obtain ⟨⟨p, r⟩, hp, he⟩ := Option.map_eq_some_iff.1 h
      cases he
      simp [closing?_append hp]
    · simp at h
  · simp at h

/-- A phrase at the beginning of a text, with an exclamation mark before it or not. -/
def quoted? : List Char → Option (List Char × List Char)
  | '!' :: cs => (phrase? cs).map fun (token, rest) => ('!' :: token, rest)
  | cs => phrase? cs

theorem quoted?_append {cs token rest : List Char} (h : quoted? cs = some (token, rest)) :
    cs = token ++ rest := by
  unfold quoted? at h
  split at h
  · obtain ⟨⟨p, r⟩, hp, he⟩ := Option.map_eq_some_iff.1 h
    cases he
    simp [phrase?_append hp]
  · exact phrase?_append h

theorem quoted?_ne_nil {cs token rest : List Char} (h : quoted? cs = some (token, rest)) :
    token ≠ [] := by
  rintro rfl
  simp only [quoted?, phrase?] at h
  split at h
  · simp at h
  · split at h
    · split at h <;> simp at h
    · simp at h

/-- The token at the beginning of a text that does not begin with white space, and the text behind
it. -/
def cutToken (cs : List Char) : List Char × List Char :=
  (quoted? cs).getD (cs.takeWhile (fun c => !isSpace c), cs.dropWhile fun c => !isSpace c)

theorem cutToken_append (cs : List Char) : (cutToken cs).1 ++ (cutToken cs).2 = cs := by
  unfold cutToken
  cases h : quoted? cs with
  | none => simp
  | some p => simpa using (quoted?_append h).symm

theorem cutToken_ne_nil {c : Char} (cs : List Char) (h : isSpace c = false) :
    (cutToken (c :: cs)).1 ≠ [] := by
  unfold cutToken
  cases hq : quoted? (c :: cs) with
  | none => simp [h]
  | some p => simpa using quoted?_ne_nil hq

theorem length_cutToken {c : Char} (cs : List Char) (h : isSpace c = false) :
    (cutToken (c :: cs)).2.length < (c :: cs).length := by
  have hn := List.length_pos_iff.2 (cutToken_ne_nil cs h)
  have hl := congrArg List.length (cutToken_append (c :: cs))
  simp only [List.length_append] at hl
  omega

/-- The tokens of a text. -/
def tokens (cs : List Char) : List (List Char) :=
  match cs with
  | [] => []
  | c :: cs =>
    if h : isSpace c = true then tokens cs
    else
      have := length_cutToken cs (Bool.not_eq_true _ ▸ h)
      (cutToken (c :: cs)).1 :: tokens (cutToken (c :: cs)).2
termination_by cs.length
decreasing_by
  · exact Nat.lt_succ_self _
  · exact this

end NoteVault.Query
