import NoteVault.Calendar.DayRange
import NoteVault.Proofs.Text.Trim

/-!
# The sides of a range

The dots between the sides of a range are sought from the left, and dots that have been
found are not used again.  So a text is cut into parts such that no two dots begin before
a part is over (`CutAtDots`).  Every text can be cut in exactly one way, and this is the
way in which `sides` cuts it (`sides_eq_iff`).

White space at the ends of a text is white space at the ends of its first and its last
side; so it makes no difference whether the text is trimmed before it is cut
(`map_trim_sides_trim`).
-/

namespace NoteVault.Calendar.DayRange

open Text Unicode

/-- What stands between the two sides of a range. -/
def dots : List Char := ['.', '.']

/-- The parts of a text between occurrences of two dots, which are sought from the left:
no two dots begin before a part is over. -/
inductive CutAtDots : List Char → List (List Char) → Prop
  | last {part : List Char} (h : ¬ dots <:+: part) : CutAtDots part [part]
  | cut {part rest : List Char} {parts : List (List Char)} (h : ¬ dots <:+: part ++ ['.'])
      (hrest : CutAtDots rest parts) : CutAtDots (part ++ (dots ++ rest)) (part :: parts)

variable {c : Char} {cs part rest : List Char} {parts : List (List Char)}

theorem dots_prefix_cons : dots <+: c :: cs ↔ c = '.' ∧ cs.head? = some '.' := by
  cases cs with
  | nil => simp [dots]
  | cons d cs => simp [dots, eq_comm]

theorem dots_infix_cons :
    dots <:+: c :: cs ↔ (c = '.' ∧ cs.head? = some '.') ∨ dots <:+: cs := by
  rw [List.infix_cons_iff, dots_prefix_cons]

theorem not_dots_infix_of_not_mem (h : '.' ∉ cs) : ¬ dots <:+: cs := by
  intro hdots
  exact h (hdots.subset List.mem_cons_self)

/-! ## The equations of the cut -/

theorem sides_ne_nil (cs : List Char) : sides cs ≠ [] := by
  fun_cases sides cs <;> exact List.cons_ne_nil _ _

theorem sides_dots (rest : List Char) : sides (dots ++ rest) = [] :: sides rest := rfl

/-- A character at which no two dots begin belongs to the first side. -/
theorem sides_cons (h : ¬ (c = '.' ∧ cs.head? = some '.')) (hparts : sides cs = part :: parts) :
    sides (c :: cs) = (c :: part) :: parts := by
  rw [sides, hparts]
  rintro ds rfl rfl
  exact h ⟨rfl, rfl⟩

theorem sides_of_no_dots (h : ¬ dots <:+: part) : sides part = [part] := by
  induction part with
  | nil => rfl
  | cons c part ih =>
    obtain ⟨hc, hpart⟩ := not_or.1 (mt dots_infix_cons.2 h)
    exact sides_cons hc (ih hpart)

/-- The first two dots end the first side. -/
theorem sides_append_dots (h : ¬ dots <:+: part ++ ['.']) (rest : List Char) :
    sides (part ++ (dots ++ rest)) = part :: sides rest := by
  induction part with
  | nil => exact sides_dots rest
  | cons c part ih =>
    obtain ⟨hc, hpart⟩ := not_or.1 (mt dots_infix_cons.2 h)
    have hhead : (part ++ (dots ++ rest)).head? = (part ++ ['.']).head? := by
      cases part <;> rfl
    exact sides_cons (hhead ▸ hc) (ih hpart)

/-! ## One way to cut -/

theorem cutAtDots_sides (cs : List Char) : CutAtDots cs (sides cs) := by
  fun_induction sides cs with
  | case1 => exact .last (not_dots_infix_of_not_mem List.not_mem_nil)
  | case2 cs ih =>
    have hempty : CutAtDots ([] ++ (dots ++ cs)) ([] :: sides cs) := .cut (by decide) ih
    exact hempty
  | case3 c cs hc hnil ih => exact absurd hnil (sides_ne_nil cs)
  | case4 c cs hc part parts hparts ih =>
    have hhead : ¬ (c = '.' ∧ cs.head? = some '.') := by
      rintro ⟨rfl, hcs⟩
      obtain ⟨ds, rfl⟩ := List.head?_eq_some_iff.1 hcs
      exact hc ds rfl rfl
    rw [hparts] at ih
    -- The character goes to the first part, whether that is the last one or not.
    cases ih with
    | last h => exact .last fun hdots => (dots_infix_cons.1 hdots).elim hhead h
    | cut h hrest =>
      rename_i rest
      have hfirst : (part ++ ['.']).head? = (part ++ (dots ++ rest)).head? := by
        cases part <;> rfl
      have hlonger : ¬ dots <:+: c :: part ++ ['.'] := fun hdots =>
        (dots_infix_cons.1 hdots).elim (hfirst ▸ hhead) h
      exact .cut hlonger hrest

/-- **A text is cut in exactly one way.** -/
theorem sides_eq_iff : sides cs = parts ↔ CutAtDots cs parts := by
  constructor
  · rintro rfl
    exact cutAtDots_sides cs
  · intro h
    induction h with
    | last h => exact sides_of_no_dots h
    | cut h _ ih => rw [sides_append_dots h, ih]

theorem CutAtDots.not_infix_of_mem (h : CutAtDots cs parts) (hpart : part ∈ parts) :
    ¬ dots <:+: part := by
  induction h with
  | last h => rwa [List.mem_singleton.1 hpart]
  | cut h _ ih =>
    rcases List.mem_cons.1 hpart with rfl | hpart
    · exact fun hdots => h (hdots.trans (List.infix_append_of_infix_left (List.infix_refl _)))
    · exact ih hpart

/-- Two dots make two sides. -/
theorem CutAtDots.not_infix_of_singleton (h : CutAtDots cs [part]) : ¬ dots <:+: cs := by
  cases h with
  | last h => exact h
  | cut _ hrest => cases hrest

/-! ## White space around a text -/

theorem not_dot_of_isSpace (h : isSpace c = true) : c ≠ '.' := by
  rintro rfl
  exact absurd h (by decide)

/-- White space in front of a text is in front of its first side. -/
theorem exists_sides_append_left {lead : List Char} (h : ∀ c ∈ lead, isSpace c = true)
    (cs : List Char) :
    ∃ part parts, sides cs = part :: parts ∧ sides (lead ++ cs) = (lead ++ part) :: parts := by
  induction lead with
  | nil =>
    obtain ⟨part, parts, hparts⟩ := List.exists_cons_of_ne_nil (sides_ne_nil cs)
    exact ⟨part, parts, hparts, hparts⟩
  | cons c lead ih =>
    obtain ⟨hc, hlead⟩ := List.forall_mem_cons.1 h
    obtain ⟨part, parts, hparts, happend⟩ := ih hlead
    exact ⟨part, parts, hparts, sides_cons (fun hdot => not_dot_of_isSpace hc hdot.1) happend⟩

theorem not_infix_append (hpart : ¬ dots <:+: part) {tail : List Char} (htail : '.' ∉ tail) :
    ¬ dots <:+: part ++ tail := by
  induction part with
  | nil => exact not_dots_infix_of_not_mem htail
  | cons c part ih =>
    obtain ⟨hc, hpart⟩ := not_or.1 (mt dots_infix_cons.2 hpart)
    intro hdots
    rcases dots_infix_cons.1 hdots with ⟨rfl, hhead⟩ | hdots
    · cases part with
      | nil => exact htail (List.mem_of_head? hhead)
      | cons d part => exact hc ⟨rfl, hhead⟩
    · exact ih hpart hdots

/-- White space behind a text is behind its last side. -/
theorem exists_sides_append_right {tail : List Char} (h : ∀ c ∈ tail, isSpace c = true)
    (cs : List Char) :
    ∃ parts part, sides cs = parts ++ [part] ∧ sides (cs ++ tail) = parts ++ [part ++ tail] := by
  have htail : '.' ∉ tail := fun hmem => not_dot_of_isSpace (h _ hmem) rfl
  obtain ⟨all, hcut⟩ : ∃ all, CutAtDots cs all := ⟨_, cutAtDots_sides cs⟩
  -- By the way in which the text is cut: only the last part changes.
  induction hcut with
  | last hpart =>
    exact ⟨[], _, sides_of_no_dots hpart, sides_of_no_dots (not_infix_append hpart htail)⟩
  | @cut part rest parts hpart _ ih =>
    obtain ⟨before, last, hsides, happend⟩ := ih
    refine ⟨part :: before, last, ?_, ?_⟩
    · rw [sides_append_dots hpart, hsides]
      rfl
    · rw [List.append_assoc, List.append_assoc, sides_append_dots hpart, happend]
      rfl

/-- **Trimming a text changes nothing in its sides but white space at their ends.** -/
theorem map_trim_sides_trim (cs : List Char) :
    (sides (trim cs)).map trim = (sides cs).map trim := by
  obtain ⟨lead, tail, hcs, hlead, htail⟩ := exists_trim cs
  obtain ⟨parts, last, hsides, hright⟩ := exists_sides_append_right htail (trim cs)
  obtain ⟨first, others, hbehind, hleft⟩ := exists_sides_append_left hlead (trim cs ++ tail)
  calc (sides (trim cs)).map trim
      = parts.map trim ++ [trim last] := by rw [hsides, List.map_append]; rfl
    _ = (sides (trim cs ++ tail)).map trim := by
      rw [hright, List.map_append, List.map_singleton, trim_append_right htail]
    _ = trim first :: others.map trim := by rw [hbehind]; rfl
    _ = (sides (lead ++ (trim cs ++ tail))).map trim := by
      rw [hleft, List.map_cons, trim_append_left hlead]
    _ = (sides cs).map trim := by rw [← List.append_assoc, ← hcs]

end NoteVault.Calendar.DayRange
