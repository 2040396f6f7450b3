import NoteVault.Note.Frontmatter
import NoteVault.Proofs.Text.Lines

/-!
# Where the body of a note begins

A note that begins with properties is made of four parts, and its lines are the lines of
these parts (`IsCut`).  The cut finds exactly these parts (`cut?_eq_some_iff_isCut`), and
it finds none only where there are no properties (`cut?_eq_none_iff`).  So the properties
and what stands behind them can be replaced without moving the cut (`IsCut.replace`,
`cut?_replace`).  Whether a note begins with properties shows in its lines
(`lines_of_openingLine?`, `openingLine?_ne_none_of_lines`).
-/

namespace NoteVault.Note

open Text

variable {text opening rest fence : List Char} {ls before after : List (List Char)} {c : Cut}

/-! ## The lines around the properties -/

/-- A text begins with properties if its first line is one of three hyphens, with an end. -/
theorem openingLine?_eq_some_iff : openingLine? text = some (opening, rest) ↔
    text = opening ++ rest ∧
      (opening = fenceLine ++ ['\n'] ∨ opening = fenceLine ++ ['\r', '\n']) := by
  rw [openingLine?]
  cases hfeed : stripPrefix? (fenceLine ++ ['\n']) text with
  | some behind =>
    obtain rfl := stripPrefix?_eq_some_iff.1 hfeed
    constructor
    · intro h
      simp only [Option.some.injEq, Prod.mk.injEq] at h
      obtain ⟨rfl, rfl⟩ := h
      exact ⟨rfl, .inl rfl⟩
    · rintro ⟨htext, rfl | rfl⟩
      · rw [List.append_cancel_left htext]
      · simp [fenceLine] at htext
  | none =>
    simp only [Option.map_eq_some_iff, stripPrefix?_eq_some_iff, Prod.mk.injEq]
    constructor
    · rintro ⟨behind, rfl, rfl, rfl⟩
      exact ⟨rfl, .inr rfl⟩
    · rintro ⟨rfl, rfl | rfl⟩
      · rw [stripPrefix?_eq_some_iff.2 rfl] at hfeed
        cases hfeed
      · exact ⟨rest, rfl, rfl, rfl⟩

theorem wholeLines_opening
    (h : opening = fenceLine ++ ['\n'] ∨ opening = fenceLine ++ ['\r', '\n']) :
    linesWithEnds opening = [opening] ∧ WholeLines opening := by
  rcases h with rfl | rfl
  · exact ⟨by decide, by decide⟩
  · exact ⟨by decide, by decide⟩

theorem linesWithEnds_of_openingLine? (h : openingLine? text = some (opening, rest)) :
    linesWithEnds text = opening :: linesWithEnds rest := by
  obtain ⟨rfl, hopening⟩ := openingLine?_eq_some_iff.1 h
  obtain ⟨hline, hwhole⟩ := wholeLines_opening hopening
  rw [linesWithEnds_append hwhole, hline, List.singleton_append]

/-- The line that opens properties is the first line of the text. -/
theorem lines_of_openingLine? (h : openingLine? text = some (opening, rest)) :
    lines text = fenceLine :: lines rest := by
  have hbare : chomp opening = fenceLine := by
    obtain ⟨-, rfl | rfl⟩ := openingLine?_eq_some_iff.1 h <;> decide
  rw [lines, linesWithEnds_of_openingLine? h, List.map_cons, hbare, lines]

/-- A first line of three hyphens opens properties if there are lines behind it. -/
theorem openingLine?_ne_none_of_lines (h : lines text = fenceLine :: ls) (hne : ls ≠ []) :
    openingLine? text ≠ none := by
  obtain ⟨line, behind, hlines, hline, hbehind⟩ := List.map_eq_cons_iff.1 h
  have hbehind' : behind ≠ [] := by
    rintro rfl
    exact hne hbehind.symm
  obtain ⟨b, rest, -, rfl, rfl, -⟩ := linesWithEnds_eq_cons hlines hbehind'
  have hopening : ∃ opening, openingLine? (b ++ '\n' :: rest) = some (opening, rest) := by
    rcases of_chomp_concat_newline hline with rfl | rfl
    · exact ⟨_, openingLine?_eq_some_iff.2 ⟨rfl, .inl rfl⟩⟩
    · exact ⟨_, openingLine?_eq_some_iff.2 ⟨rfl, .inr rfl⟩⟩
  obtain ⟨opening, hopening⟩ := hopening
  rw [hopening]
  exact nofun

/-- **The closing line** is the first one of three hyphens. -/
theorem cutAtFence_eq_some_iff : cutAtFence ls = some (before, fence, after) ↔
    ls = before ++ fence :: after ∧ bareLine fence = fenceLine ∧
      ∀ line ∈ before, bareLine line ≠ fenceLine := by
  induction ls generalizing before with
  | nil => simp [cutAtFence]
  | cons line ls ih =>
    rw [cutAtFence]
    by_cases hline : bareLine line = fenceLine
    · rw [if_pos hline]
      constructor
      · intro h
        simp only [Option.some.injEq, Prod.mk.injEq] at h
        obtain ⟨rfl, rfl, rfl⟩ := h
        exact ⟨rfl, hline, List.forall_mem_nil _⟩
      · rintro ⟨heq, -, hbefore⟩
        cases before with
        | nil =>
          obtain ⟨rfl, rfl⟩ := List.cons.inj heq
          rfl
        | cons first before =>
          obtain ⟨rfl, -⟩ := List.cons.inj heq
          exact absurd hline (hbefore line List.mem_cons_self)
    · rw [if_neg hline, Option.map_eq_some_iff]
      constructor
      · rintro ⟨⟨before', fence', after'⟩, hcut, h⟩
        simp only [Prod.mk.injEq] at h
        obtain ⟨rfl, rfl, rfl⟩ := h
        obtain ⟨rfl, hfence, hbefore⟩ := ih.1 hcut
        exact ⟨rfl, hfence, List.forall_mem_cons.2 ⟨hline, hbefore⟩⟩
      · rintro ⟨heq, hfence, hbefore⟩
        cases before with
        | nil =>
          obtain ⟨rfl, rfl⟩ := List.cons.inj heq
          exact absurd hfence hline
        | cons first before =>
          obtain ⟨rfl, rfl⟩ := List.cons.inj heq
          exact ⟨(before, fence, after), ih.2 ⟨rfl, hfence, (List.forall_mem_cons.1 hbefore).2⟩,
            rfl⟩

theorem cutAtFence_eq_none_iff :
    cutAtFence ls = none ↔ ∀ line ∈ ls, bareLine line ≠ fenceLine := by
  induction ls with
  | nil => exact iff_of_true rfl (List.forall_mem_nil _)
  | cons line ls ih =>
    rw [cutAtFence, List.forall_mem_cons]
    by_cases hline : bareLine line = fenceLine
    · rw [if_pos hline]
      exact iff_of_false (Option.some_ne_none _) fun h => h.1 hline
    · rw [if_neg hline, Option.map_eq_none_iff, ih]
      exact ⟨fun h => ⟨hline, h⟩, And.right⟩

/-- **A note that is cut** is the opening line of its properties, the lines up to the next
one of three hyphens, this line and the body. -/
theorem cut?_eq_some_iff : cut? text = some c ↔ ∃ rest before after,
    openingLine? text = some (c.opening, rest) ∧
      linesWithEnds rest = before ++ c.closing :: after ∧ bareLine c.closing = fenceLine ∧
      (∀ line ∈ before, bareLine line ≠ fenceLine) ∧
      c.properties = before.flatten ∧ c.body = after.flatten := by
  rw [cut?]
  cases hopening : openingLine? text with
  | none => simp
  | some parts =>
    obtain ⟨opening, rest⟩ := parts
    simp only [Option.map_eq_some_iff, Option.some.injEq, Prod.mk.injEq]
    constructor
    · rintro ⟨⟨before, fence, after⟩, hcut, rfl⟩
      obtain ⟨hlines, hfence, hbefore⟩ := cutAtFence_eq_some_iff.1 hcut
      exact ⟨rest, before, after, ⟨rfl, rfl⟩, hlines, hfence, hbefore, rfl, rfl⟩
    · rintro ⟨rest, before, after, ⟨rfl, rfl⟩, hlines, hfence, hbefore, hproperties, hbody⟩
      refine ⟨(before, c.closing, after), cutAtFence_eq_some_iff.2 ⟨hlines, hfence, hbefore⟩, ?_⟩
      rw [← hproperties, ← hbody]

/-! ## The parts of a note -/

/-- A text begins with properties: its first line is one of three hyphens with an end, and
there is another such line, apart from its end. -/
def HasProperties (text : List Char) : Prop :=
  ∃ opening rest, text = opening ++ rest ∧
    (opening = fenceLine ++ ['\n'] ∨ opening = fenceLine ++ ['\r', '\n']) ∧
    ∃ line ∈ linesWithEnds rest, bareLine line = fenceLine

/-- The parts of a text that begins with properties.  Its lines are the one that opens the
properties, their lines, the one that closes them and the lines of the body. -/
structure IsCut (text : List Char) (c : Cut) : Prop where
  whole : text = c.opening ++ c.properties ++ c.closing ++ c.body
  lines : linesWithEnds text =
    c.opening :: (linesWithEnds c.properties ++ c.closing :: linesWithEnds c.body)
  opening : c.opening = fenceLine ++ ['\n'] ∨ c.opening = fenceLine ++ ['\r', '\n']
  closing : bareLine c.closing = fenceLine
  closing_whole : c.body ≠ [] → WholeLines c.closing
  properties_whole : WholeLines c.properties
  properties_open : ∀ line ∈ linesWithEnds c.properties, bareLine line ≠ fenceLine

theorem cut?_eq_none_iff : cut? text = none ↔ ¬ HasProperties text := by
  constructor
  · rintro h ⟨opening, rest, rfl, hopening, line, hline, hbare⟩
    rw [cut?, openingLine?_eq_some_iff.2 ⟨rfl, hopening⟩] at h
    exact cutAtFence_eq_none_iff.1 (Option.map_eq_none_iff.1 h) line hline hbare
  · intro h
    rw [Option.eq_none_iff_forall_ne_some]
    intro c hcut
    obtain ⟨rest, before, after, hopening, hlines, hfence, -⟩ := cut?_eq_some_iff.1 hcut
    obtain ⟨htext, hends⟩ := openingLine?_eq_some_iff.1 hopening
    refine h ⟨c.opening, rest, htext, hends, c.closing, ?_, hfence⟩
    rw [hlines]
    exact List.mem_append_right _ List.mem_cons_self

/-- **The cut finds the parts** of a text, and nothing else. -/
theorem cut?_eq_some_iff_isCut : cut? text = some c ↔ IsCut text c := by
  constructor
  · intro h
    obtain ⟨rest, before, after, hopening, hlines, hfence, hbefore, hproperties, hbody⟩ :=
      cut?_eq_some_iff.1 h
    have hpropertyLines : linesWithEnds c.properties = before := by
      rw [hproperties]
      exact linesWithEnds_flatten_left hlines (List.cons_ne_nil _ _)
    have hbehind : linesWithEnds (c.closing :: after).flatten = [c.closing] ++ after :=
      linesWithEnds_flatten_right hlines
    have hbodyLines : linesWithEnds c.body = after := by
      rw [hbody]
      exact linesWithEnds_flatten_right hbehind
    refine ⟨cut?_append h, ?_, (openingLine?_eq_some_iff.1 hopening).2, hfence, fun hne => ?_, ?_,
      ?_⟩
    · rw [linesWithEnds_of_openingLine? hopening, hlines, hpropertyLines, hbodyLines]
    · have hafter : after ≠ [] := by
        rintro rfl
        exact hne hbody
      have hclosing := wholeLines_flatten hbehind hafter
      rwa [List.flatten_singleton] at hclosing
    · rw [hproperties]
      exact wholeLines_flatten hlines (List.cons_ne_nil _ _)
    · rw [hpropertyLines]
      exact hbefore
  · intro h
    have hopening : openingLine? text = some (c.opening, c.properties ++ (c.closing ++ c.body)) := by
      refine openingLine?_eq_some_iff.2 ⟨?_, h.opening⟩
      rw [h.whole, List.append_assoc, List.append_assoc]
    have hlines := (linesWithEnds_of_openingLine? hopening).symm.trans h.lines
    exact cut?_eq_some_iff.2 ⟨_, linesWithEnds c.properties, linesWithEnds c.body, hopening,
      (List.cons.inj hlines).2, h.closing, h.properties_open, (flatten_linesWithEnds _).symm,
      (flatten_linesWithEnds _).symm⟩

/-- A text has these parts in one way only. -/
theorem IsCut.unique {c' : Cut} (h : IsCut text c) (h' : IsCut text c') : c = c' :=
  Option.some.inj ((cut?_eq_some_iff_isCut.2 h).symm.trans (cut?_eq_some_iff_isCut.2 h'))

/-- **Other properties and another body** can take the place of those that are there. -/
theorem IsCut.replace (h : IsCut text c) {properties body : List Char}
    (hwhole : WholeLines properties)
    (hopen : ∀ line ∈ linesWithEnds properties, bareLine line ≠ fenceLine)
    (hclosing : body ≠ [] → WholeLines c.closing) :
    IsCut (c.opening ++ properties ++ c.closing ++ body)
      ⟨c.opening, properties, c.closing, body⟩ := by
  obtain ⟨hopeningLine, hopening⟩ := wholeLines_opening h.opening
  have hmem : c.closing ∈ linesWithEnds text := by
    rw [h.lines]
    exact List.mem_cons_of_mem _ (List.mem_append_right _ List.mem_cons_self)
  have hclosingLine := linesWithEnds_of_mem hmem
  have hbehind : linesWithEnds (c.closing ++ body) = c.closing :: linesWithEnds body := by
    by_cases hbody : body = []
    · subst hbody
      rw [List.append_nil, hclosingLine]
      rfl
    · rw [linesWithEnds_append (hclosing hbody), hclosingLine, List.singleton_append]
  refine ⟨rfl, ?_, h.opening, h.closing, hclosing, hwhole, hopen⟩
  rw [List.append_assoc, List.append_assoc, linesWithEnds_append hopening,
    linesWithEnds_append hwhole, hopeningLine, hbehind, List.singleton_append]

/-! ## Replacing the body -/

/-- A text that begins with properties closes them. -/
def PropertiesClosed (text : List Char) : Prop :=
  ∀ rest, text = fenceLine ++ '\n' :: rest ∨ text = fenceLine ++ '\r' :: '\n' :: rest →
    ∃ line ∈ linesWithEnds rest, bareLine line = fenceLine

/-- The properties in front of a text, with the lines around them. -/
def frontOf (text : List Char) : List Char :=
  match cut? text with
  | some c => c.opening ++ c.properties ++ c.closing
  | none => []

/-- What stands behind the properties of a text. -/
def bodyOf (text : List Char) : List Char :=
  match cut? text with
  | some c => c.body
  | none => text

theorem frontOf_append_bodyOf (text : List Char) : frontOf text ++ bodyOf text = text := by
  rw [frontOf, bodyOf]
  cases hcut : cut? text with
  | none => rfl
  | some c => exact (cut?_append hcut).symm

/-- Only a text that does not begin with properties is not cut, if they are closed. -/
theorem openingLine?_eq_none_of_closed (h : PropertiesClosed text) (hcut : cut? text = none) :
    openingLine? text = none := by
  rw [Option.eq_none_iff_forall_ne_some]
  rintro ⟨opening, rest⟩ hopening
  obtain ⟨htext, hends⟩ := openingLine?_eq_some_iff.1 hopening
  refine cut?_eq_none_iff.1 hcut ⟨opening, rest, htext, hends, h rest ?_⟩
  obtain rfl | rfl := hends
  · exact .inl (htext.trans (List.append_assoc _ _ _))
  · exact .inr (htext.trans (List.append_assoc _ _ _))

/-- **What stands behind the properties** can be replaced without moving the cut. -/
theorem cut?_replace (h : cut? text = some c) (hne : c.body ≠ []) (body : List Char) :
    cut? (c.opening ++ c.properties ++ c.closing ++ body) = some { c with body := body } := by
  have hparts := cut?_eq_some_iff_isCut.1 h
  exact cut?_eq_some_iff_isCut.2 (hparts.replace hparts.properties_whole hparts.properties_open
    fun _ => hparts.closing_whole hne)

end NoteVault.Note
