import NoteVault.Text.Cut

/-!
# Lines

A text is cut behind each of its line feeds (`linesWithEnds_append_newline`), so all its
lines but the last end in one (`linesWithEnds_eq_cons`).  What follows some of its lines
can be replaced without touching them (`linesWithEnds_replace`).

Lines at the beginning of a text, or at its end, are the lines of what is joined of them
(`linesWithEnds_flatten_left`, `linesWithEnds_flatten_right`).  The other way round, the
lines of two texts are those of what is joined of them, if the first text ends where a
line ends (`linesWithEnds_append`).
-/

namespace NoteVault.Text

variable {b line text : List Char} {ls ls' : List (List Char)}

theorem linesWithEnds_cons_of_ne {c : Char} (hc : c ≠ '\n') (cs : List Char) :
    linesWithEnds (c :: cs) = match linesWithEnds cs with
      | [] => [[c]]
      | l :: ls => (c :: l) :: ls :=
  if_neg hc

/-- **The first line** ends with the first line feed. -/
theorem linesWithEnds_append_newline (h : '\n' ∉ b) (rest : List Char) :
    linesWithEnds (b ++ '\n' :: rest) = (b ++ ['\n']) :: linesWithEnds rest := by
  induction b with
  | nil => exact if_pos rfl
  | cons c b ih =>
    rw [List.cons_append, linesWithEnds_cons_of_ne (List.ne_of_not_mem_cons h).symm,
      ih (List.not_mem_of_not_mem_cons h)]
    rfl

/-- A text without line feeds is one line, unless it is empty. -/
theorem linesWithEnds_of_not_mem (h : '\n' ∉ text) (hne : text ≠ []) :
    linesWithEnds text = [text] := by
  induction text with
  | nil => exact absurd rfl hne
  | cons c text ih =>
    rw [linesWithEnds_cons_of_ne (List.ne_of_not_mem_cons h).symm]
    cases text with
    | nil => rfl
    | cons d text => rw [ih (List.not_mem_of_not_mem_cons h) (List.cons_ne_nil _ _)]

/-- **A line with another one behind it** ends in a line feed. -/
theorem linesWithEnds_eq_cons (h : linesWithEnds text = line :: ls) (hne : ls ≠ []) :
    ∃ b rest, '\n' ∉ b ∧ line = b ++ ['\n'] ∧ text = b ++ '\n' :: rest ∧
      linesWithEnds rest = ls := by
  by_cases hmem : '\n' ∈ text
  · obtain ⟨b, rest, rfl, hb⟩ := List.eq_append_cons_of_mem hmem
    rw [linesWithEnds_append_newline hb] at h
    obtain ⟨rfl, rfl⟩ := List.cons.inj h
    exact ⟨b, rest, hb, rfl, rfl, rfl⟩
  · cases text with
    | nil => cases h
    | cons c text =>
      rw [linesWithEnds_of_not_mem hmem (List.cons_ne_nil _ _)] at h
      exact absurd (List.cons.inj h).2.symm hne

/-- **Lines stay as they are** when what follows them is replaced. -/
theorem linesWithEnds_replace (h : linesWithEnds text = ls ++ ls') (hne : ls' ≠ [])
    (rest : List Char) : linesWithEnds (ls.flatten ++ rest) = ls ++ linesWithEnds rest := by
  induction ls generalizing text with
  | nil => rfl
  | cons line ls ih =>
    have hbehind : ls ++ ls' ≠ [] := fun hnil => hne (List.append_eq_nil_iff.1 hnil).2
    obtain ⟨b, behind, hb, rfl, -, hlines⟩ := linesWithEnds_eq_cons h hbehind
    rw [List.flatten_cons, List.append_assoc, List.append_assoc, List.singleton_append,
      linesWithEnds_append_newline hb, ih hlines]
    rfl

/-! ## Whole lines -/

/-- A text is made of whole lines: it is empty or ends in a line feed. -/
def WholeLines (text : List Char) : Prop := ∀ c ∈ text.getLast?, c = '\n'

instance (text : List Char) : Decidable (WholeLines text) :=
  decidable_of_iff (text.getLast?.all (· == '\n') = true) <| by
    rw [Option.all_eq_true]
    exact forall₂_congr fun _ _ => beq_iff_eq

/-- Lines with another one behind them are whole. -/
theorem wholeLines_flatten (h : linesWithEnds text = ls ++ ls') (hne : ls' ≠ []) :
    WholeLines ls.flatten := by
  induction ls generalizing text with
  | nil => exact fun c hc => absurd hc (by simp)
  | cons line ls ih =>
    have hbehind : ls ++ ls' ≠ [] := fun hnil => hne (List.append_eq_nil_iff.1 hnil).2
    obtain ⟨b, rest, -, rfl, -, hlines⟩ := linesWithEnds_eq_cons h hbehind
    intro c hc
    rw [List.flatten_cons, List.getLast?_append, List.getLast?_concat] at hc
    cases hlast : ls.flatten.getLast? with
    | none =>
      rw [hlast] at hc
      exact (Option.some.inj hc).symm
    | some d =>
      rw [hlast] at hc
      obtain rfl : d = c := Option.some.inj hc
      exact ih hlines d hlast

theorem linesWithEnds_flatten_left (h : linesWithEnds text = ls ++ ls') (hne : ls' ≠ []) :
    linesWithEnds ls.flatten = ls := by
  have hlines := linesWithEnds_replace h hne []
  rwa [List.append_nil, linesWithEnds, List.append_nil] at hlines

theorem linesWithEnds_flatten_right (h : linesWithEnds text = ls ++ ls') :
    linesWithEnds ls'.flatten = ls' := by
  induction ls generalizing text with
  | nil =>
    rw [List.nil_append] at h
    rw [← h, flatten_linesWithEnds]
  | cons line ls ih =>
    by_cases hbehind : ls ++ ls' = []
    · rw [(List.append_eq_nil_iff.1 hbehind).2]
      rfl
    · obtain ⟨b, rest, -, -, -, hlines⟩ := linesWithEnds_eq_cons h hbehind
      exact ih hlines

/-- A line of a text has one line, itself. -/
theorem linesWithEnds_of_mem (h : line ∈ linesWithEnds text) : linesWithEnds line = [line] := by
  obtain ⟨before, after, hlines⟩ := List.append_of_mem h
  have hbehind : linesWithEnds (line :: after).flatten = [line] ++ after :=
    linesWithEnds_flatten_right hlines
  by_cases hafter : after = []
  · subst hafter
    rwa [List.flatten_singleton] at hbehind
  · have hline := linesWithEnds_flatten_left hbehind hafter
    rwa [List.flatten_singleton] at hline

/-- A line feed parts the lines before it from those behind it. -/
theorem linesWithEnds_part (front rest : List Char) :
    linesWithEnds (front ++ '\n' :: rest) =
      linesWithEnds (front ++ ['\n']) ++ linesWithEnds rest := by
  induction front with
  | nil => rfl
  | cons c front ih =>
    by_cases hc : c = '\n'
    · subst hc
      rw [List.cons_append, List.cons_append, linesWithEnds, linesWithEnds, if_pos rfl, if_pos rfl,
        ih, List.cons_append]
    · rw [List.cons_append, List.cons_append, linesWithEnds_cons_of_ne hc,
        linesWithEnds_cons_of_ne hc, ih]
      cases hfront : linesWithEnds (front ++ ['\n']) with
      | nil =>
        have hflat := flatten_linesWithEnds (front ++ ['\n'])
        rw [hfront] at hflat
        exact absurd hflat.symm (List.append_ne_nil_of_right_ne_nil _ (List.cons_ne_nil _ _))
      | cons line ls => rfl

/-- **Whole lines** do not run into what follows them. -/
theorem linesWithEnds_append (h : WholeLines text) (rest : List Char) :
    linesWithEnds (text ++ rest) = linesWithEnds text ++ linesWithEnds rest := by
  cases hlast : text.getLast? with
  | none =>
    rw [List.getLast?_eq_none_iff.1 hlast]
    rfl
  | some c =>
    obtain rfl : c = '\n' := h c hlast
    obtain ⟨front, rfl⟩ := List.getLast?_eq_some_iff.1 hlast
    rw [List.append_assoc]
    exact linesWithEnds_part front rest

/-- What a line with a line feed was, before its end was dropped. -/
theorem of_chomp_concat_newline (h : chomp (b ++ ['\n']) = line) :
    b = line ∨ b = line ++ ['\r'] := by
  have hstrip : stripSuffix? ['\n'] (b ++ ['\n']) = some b := stripSuffix?_eq_some_iff.2 rfl
  have hline : (stripSuffix? ['\r'] b).getD b = line := by
    rw [chomp, hstrip] at h
    exact h
  cases hreturn : stripSuffix? ['\r'] b with
  | none =>
    rw [hreturn] at hline
    exact .inl hline
  | some c =>
    rw [hreturn] at hline
    obtain rfl : c = line := hline
    exact .inr (stripSuffix?_eq_some_iff.1 hreturn)

end NoteVault.Text
