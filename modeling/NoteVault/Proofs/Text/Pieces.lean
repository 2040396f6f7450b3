import NoteVault.Text.Cut

/-!
# Pieces between separators

A text is cut at each occurrence of a separator (`pieces_eq_splitOn`).  No piece holds
the separator (`not_mem_of_mem_pieces`), and with separators between them the pieces are
the text again (`intercalate_pieces`); so a text that is cut into pieces of a known form
can be written down (`pieces_append_cons`, `pieces_of_not_mem`), and pieces that are
joined are found again (`pieces_intercalate`).
-/

namespace NoteVault.Text

variable {sep : Char}

theorem pieces_ne_nil (cs : List Char) : pieces sep cs ≠ [] := by
  cases cs with
  | nil => exact List.cons_ne_nil _ _
  | cons c cs =>
    rw [pieces]
    split
    · exact List.cons_ne_nil _ _
    · split <;> exact List.cons_ne_nil _ _

/-- The first piece reaches up to the first separator. -/
theorem exists_pieces_eq_cons (sep : Char) (cs : List Char) :
    ∃ ps, pieces sep cs = cs.takeWhile (· ≠ sep) :: ps := by
  induction cs with
  | nil => exact ⟨[], rfl⟩
  | cons c cs ih =>
    obtain ⟨ps, hpieces⟩ := ih
    rw [pieces, hpieces, List.takeWhile_cons]
    by_cases hc : c = sep
    · exact ⟨_, by rw [if_pos hc, if_neg (by simpa using hc)]⟩
    · exact ⟨ps, by rw [if_neg hc, if_pos (by simpa using hc)]⟩

/-- A separator cuts what is before it from what is behind it. -/
theorem pieces_append_cons (a b : List Char) :
    pieces sep (a ++ sep :: b) = pieces sep a ++ pieces sep b := by
  induction a with
  | nil => exact if_pos rfl
  | cons c a ih =>
    rw [List.cons_append, pieces, pieces, ih]
    by_cases hc : c = sep
    · rw [if_pos hc, if_pos hc]
      rfl
    · rw [if_neg hc, if_neg hc]
      cases hpieces : pieces sep a with
      | nil => exact absurd hpieces (pieces_ne_nil a)
      | cons p ps => rfl

theorem pieces_of_not_mem {cs : List Char} (h : sep ∉ cs) : pieces sep cs = [cs] := by
  induction cs with
  | nil => rfl
  | cons c cs ih =>
    rw [pieces, if_neg (List.ne_of_not_mem_cons h).symm, ih (List.not_mem_of_not_mem_cons h)]

theorem not_mem_of_mem_pieces {cs p : List Char} (h : p ∈ pieces sep cs) : sep ∉ p := by
  induction cs generalizing p with
  | nil =>
    obtain rfl := List.mem_singleton.1 h
    exact List.not_mem_nil
  | cons c cs ih =>
    rw [pieces] at h
    split at h
    · rcases List.mem_cons.1 h with rfl | h
      · exact List.not_mem_nil
      · exact ih h
    · rename_i hc
      cases hpieces : pieces sep cs with
      | nil => exact absurd hpieces (pieces_ne_nil cs)
      | cons first rest =>
        rw [hpieces] at h ih
        rcases List.mem_cons.1 h with rfl | h
        · intro hmem
          rcases List.mem_cons.1 hmem with rfl | hmem
          · exact hc rfl
          · exact ih List.mem_cons_self hmem
        · exact ih (List.mem_cons_of_mem first h)

/-- The pieces are those into which the library splits a list at an element. -/
theorem pieces_eq_splitOn (sep : Char) (cs : List Char) : pieces sep cs = cs.splitOn sep := by
  induction cs with
  | nil => rfl
  | cons c cs ih =>
    rw [pieces, List.splitOn_cons_eq_if_modifyHead, ← ih]
    by_cases hc : c = sep
    · rw [if_pos hc, if_pos (beq_iff_eq.2 hc)]
    · rw [if_neg hc, if_neg (mt beq_iff_eq.1 hc)]
      have hne : pieces sep cs ≠ [] := pieces_ne_nil cs
      obtain ⟨p, ps, hpieces⟩ := List.exists_cons_of_ne_nil hne
      rw [hpieces, List.modifyHead_cons]

/-- **Nothing is lost**: the pieces with separators between them are the text. -/
theorem intercalate_pieces (sep : Char) (cs : List Char) :
    [sep].intercalate (pieces sep cs) = cs := by
  rw [pieces_eq_splitOn]
  exact List.intercalate_splitOn sep

/-- Pieces without the separator are found again in what is joined of them. -/
theorem pieces_intercalate {ps : List (List Char)} (hne : ps ≠ []) (h : ∀ p ∈ ps, sep ∉ p) :
    pieces sep ([sep].intercalate ps) = ps := by
  rw [pieces_eq_splitOn]
  exact List.splitOn_intercalate sep h hne

/-- A text of which no piece is empty neither begins nor ends with the separator. -/
theorem no_sep_at_ends {cs : List Char} (h : [] ∉ pieces sep cs) :
    cs.head? ≠ some sep ∧ cs.getLast? ≠ some sep := by
  constructor
  · intro hhead
    obtain ⟨rest, rfl⟩ := List.head?_eq_some_iff.1 hhead
    have hcut : pieces sep (sep :: rest) = [] :: pieces sep rest := pieces_append_cons [] rest
    rw [hcut] at h
    exact h List.mem_cons_self
  · intro hlast
    obtain ⟨front, rfl⟩ := List.getLast?_eq_some_iff.1 hlast
    rw [pieces_append_cons] at h
    exact h (List.mem_append_right _ List.mem_cons_self)

end NoteVault.Text
