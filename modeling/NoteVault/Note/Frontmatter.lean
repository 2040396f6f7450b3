import NoteVault.Text.Cut

/-!
The cut between the properties in front of a note and its body. The properties stand between a
first line of three hyphens and the next such line. Main statement: the cut loses nothing.
-/

namespace NoteVault.Note

open Text

/-- The line that opens and closes the properties. -/
def fenceLine : List Char := ['-', '-', '-']

/-- A line without the carriage returns and line feeds at its end. -/
def bareLine (line : List Char) : List Char := dropEndWhile (fun c => c == '\r' || c == '\n') line

/-- A note that has been cut: its opening line, the properties, the closing line and the body. -/
structure Cut where
  opening : List Char
  properties : List Char
  closing : List Char
  body : List Char

/-- Cuts lines at the first one of three hyphens: the lines before it, the line and the lines
behind it. -/
def cutAtFence : List (List Char) → Option (List (List Char) × List Char × List (List Char))
  | [] => none
  | line :: rest =>
    if bareLine line = fenceLine then some ([], line, rest)
    else (cutAtFence rest).map fun (before, fence, after) => (line :: before, fence, after)

/-- The opening line of the properties and what follows it. -/
def openingLine? (text : List Char) : Option (List Char × List Char) :=
  match stripPrefix? (fenceLine ++ ['\n']) text with
  | some rest => some (fenceLine ++ ['\n'], rest)
  | none =>
    (stripPrefix? (fenceLine ++ ['\r', '\n']) text).map (fenceLine ++ ['\r', '\n'], ·)

/-- Cuts a note that begins with properties. -/
def cut? (text : List Char) : Option Cut :=
  match openingLine? text with
  | none => none
  | some (opening, rest) =>
    (cutAtFence (linesWithEnds rest)).map fun (before, closing, after) =>
      ⟨opening, before.flatten, closing, after.flatten⟩

theorem cutAtFence_append {lines before after : List (List Char)} {fence : List Char}
    (h : cutAtFence lines = some (before, fence, after)) : lines = before ++ fence :: after := by
  induction lines generalizing before with
  | nil => simp [cutAtFence] at h
  | cons line rest ih =>
    simp only [cutAtFence] at h
    split at h
    · simp only [Option.some.injEq, Prod.mk.injEq] at h
      obtain ⟨rfl, rfl, rfl⟩ := h
      rfl
    · simp only [Option.map_eq_some_iff, Prod.mk.injEq] at h
      obtain ⟨⟨b, f, a⟩, hc, rfl, rfl, rfl⟩ := h
      rw [List.cons_append, ← ih hc]

theorem openingLine?_append {text opening rest : List Char}
    (h : openingLine? text = some (opening, rest)) : text = opening ++ rest := by
  simp only [openingLine?] at h
  split at h
  · rename_i hs
    simp only [Option.some.injEq, Prod.mk.injEq] at h
    obtain ⟨rfl, rfl⟩ := h
    exact stripPrefix?_eq_some_iff.1 hs
  · simp only [Option.map_eq_some_iff, Prod.mk.injEq] at h
    obtain ⟨r, hs, rfl, rfl⟩ := h
    exact stripPrefix?_eq_some_iff.1 hs

theorem cut?_append {text : List Char} {c : Cut} (h : cut? text = some c) :
    text = c.opening ++ c.properties ++ c.closing ++ c.body := by
  simp only [cut?] at h
  split at h
  · simp at h
  · rename_i opening rest ho
    simp only [Option.map_eq_some_iff] at h
    obtain ⟨⟨before, closing, after⟩, hc, rfl⟩ := h
    have hl := cutAtFence_append hc
    have hf := flatten_linesWithEnds rest
    rw [hl] at hf
    rw [openingLine?_append ho, ← hf]
    simp

end NoteVault.Note
