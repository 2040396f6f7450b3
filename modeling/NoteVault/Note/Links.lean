import NoteVault.Text.Cut

/-!
Links in the text of notes: between double brackets, and behind a bracketed text in parentheses.
-/

namespace NoteVault.Note

open Text

/-- The target of a link between double brackets: what stands before an alias or a heading,
without white space around it. -/
def wikiTarget? (inner : List Char) : Option (List Char) :=
  let target := trim ((inner.takeWhile (· != '|')).takeWhile fun c => c != '#' && c != '^')
  if target.isEmpty then none else some target

/-- The targets of the links between double brackets, in order. -/
def wikiTargets (line : List Char) : List (List Char) :=
  match _h : cutText ['[', '['] line with
  | none => []
  | some (_, after) =>
    match _h' : cutText [']', ']'] after with
    | none => []
    | some (inner, rest) => (wikiTarget? inner).toList ++ wikiTargets rest
termination_by line.length
decreasing_by
  have h₁ := length_cutText _h
  have h₂ := length_cutText _h'
  simp only [List.length_cons, List.length_nil] at h₁ h₂
  omega

/-- Replaces every escaped blank by a blank. -/
def unescapeBlanks : List Char → List Char
  | '%' :: '2' :: '0' :: cs => ' ' :: unescapeBlanks cs
  | c :: cs => c :: unescapeBlanks cs
  | [] => []

/-- Whether a target leads out of the vault. -/
def isExternal (target : List Char) : Bool :=
  containsText [':', '/', '/'] target || "mailto:".toList.isPrefixOf target

/-- The target of a link in parentheses, without a heading; none if it leads out of the vault. -/
def parenthesisTarget? (inner : List Char) : Option (List Char) :=
  let raw := dropEndWhile (· == '>') ((trim inner).dropWhile (· == '<'))
  let target := unescapeBlanks (raw.takeWhile (· != '#'))
  if isExternal raw || target.isEmpty then none else some target

/-- The targets of the links in parentheses, in order. -/
def parenthesisTargets (line : List Char) : List (List Char) :=
  match _h : cutText [']', '('] line with
  | none => []
  | some (_, after) =>
    match _h' : cutFirst ')' after with
    | none => []
    | some (inner, rest) => (parenthesisTarget? inner).toList ++ parenthesisTargets rest
termination_by line.length
decreasing_by
  have h₁ := length_cutText _h
  have h₂ := length_cutFirst _h'
  simp only [List.length_cons, List.length_nil] at h₁
  omega

/-- The targets of the links of a line: first those between brackets, then those in
parentheses. -/
def lineLinks (line : List Char) : List (List Char) := wikiTargets line ++ parenthesisTargets line

end NoteVault.Note
