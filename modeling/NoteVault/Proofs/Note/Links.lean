import NoteVault.Note.Links
import NoteVault.Proofs.Text.Cut
import NoteVault.Proofs.Text.Trim

/-!
# Links between double brackets

The scan of a line goes in rounds.  Each looks for the first opening brackets, then for
the first closing ones behind them, and goes on behind these (`firstLink?_eq_some_iff`).
A round takes at least the four brackets away, so every line is scanned in finitely many
rounds (`exists_rounds`, `Rounds.length_le`).

What is read from a line are the targets of what the rounds come upon
(`Rounds.wikiTargets_eq`), so they are what a target should be (`isTarget_of_mem`).  In a
line that is written of links with plain text between them, the rounds come upon these
links and nothing else (`WrittenLink.firstLink?_text`); so their targets are read back
(`wikiTargets_written`).
-/

namespace NoteVault.Note

open Text Unicode

variable {line inner rest target last : List Char} {inners : List (List Char)}

/-! ## One round -/

/-- What stands between the first opening brackets of a line and the closing ones behind
them, and what stands behind these. -/
def firstLink? (line : List Char) : Option (List Char × List Char) :=
  (cutText ['[', '['] line).bind fun opened => cutText [']', ']'] opened.2

/-- **A round** comes upon the text between the first opening brackets and the first
closing ones behind them. -/
theorem firstLink?_eq_some_iff : firstLink? line = some (inner, rest) ↔
    ∃ before, line = before ++ (['[', '['] ++ (inner ++ ([']', ']'] ++ rest))) ∧
      ¬ ['[', '['] <:+: before ++ ['['] ∧ ¬ [']', ']'] <:+: inner ++ [']'] := by
  rw [firstLink?, Option.bind_eq_some_iff]
  constructor
  · rintro ⟨⟨before, behind⟩, hopen, hclose⟩
    obtain ⟨rfl, hbefore⟩ := (cutText_eq_some_iff (List.cons_ne_nil _ _)).1 hopen
    obtain ⟨rfl, hinner⟩ := (cutText_eq_some_iff (List.cons_ne_nil _ _)).1 hclose
    exact ⟨before, rfl, hbefore, hinner⟩
  · rintro ⟨before, rfl, hbefore, hinner⟩
    exact ⟨(before, inner ++ ([']', ']'] ++ rest)),
      (cutText_eq_some_iff (List.cons_ne_nil _ _)).2 ⟨rfl, hbefore⟩,
      (cutText_eq_some_iff (List.cons_ne_nil _ _)).2 ⟨rfl, hinner⟩⟩

theorem firstLink?_eq_none (h : ¬ ['[', '['] <:+: line) : firstLink? line = none := by
  rw [firstLink?, cutText_eq_none_iff.2 h]
  rfl

theorem length_firstLink? (h : firstLink? line = some (inner, rest)) :
    rest.length + 4 ≤ line.length := by
  obtain ⟨before, rfl, -⟩ := firstLink?_eq_some_iff.1 h
  simp only [List.length_append, List.length_cons, List.length_nil]
  omega

theorem wikiTargets_of_none (h : firstLink? line = none) : wikiTargets line = [] := by
  rw [wikiTargets]
  split
  · rfl
  · rename_i before after hopen
    rw [firstLink?, hopen] at h
    split
    · rfl
    · rename_i hclose
      rw [Option.bind_some, hclose] at h
      cases h

theorem wikiTargets_of_some (h : firstLink? line = some (inner, rest)) :
    wikiTargets line = (wikiTarget? inner).toList ++ wikiTargets rest := by
  obtain ⟨⟨before, after⟩, hopen, hclose⟩ := Option.bind_eq_some_iff.1 h
  rw [wikiTargets]
  split
  · rename_i hnone
    rw [hnone] at hopen
    cases hopen
  · rename_i before' after' hopen'
    rw [hopen'] at hopen
    obtain ⟨rfl, rfl⟩ := Prod.mk.inj (Option.some.inj hopen)
    split
    · rename_i hnone
      rw [hnone] at hclose
      cases hclose
    · rename_i inner' rest' hclose'
      rw [hclose'] at hclose
      obtain ⟨rfl, rfl⟩ := Prod.mk.inj (Option.some.inj hclose)
      rfl

/-! ## All rounds -/

/-- The rounds in which a line is scanned up to the one that comes upon nothing, by what
stands between the brackets that the others come upon. -/
inductive Rounds : List Char → List (List Char) → Prop
  | done {line : List Char} (h : firstLink? line = none) : Rounds line []
  | round {line inner rest : List Char} {inners : List (List Char)}
      (h : firstLink? line = some (inner, rest)) (behind : Rounds rest inners) :
      Rounds line (inner :: inners)

/-- **The scan of a line ends.** -/
theorem exists_rounds (line : List Char) : ∃ inners, Rounds line inners := by
  induction hlength : line.length using Nat.strong_induction_on generalizing line with
  | _ n ih =>
    cases hfirst : firstLink? line with
    | none => exact ⟨[], .done hfirst⟩
    | some link =>
      obtain ⟨inner, rest⟩ := link
      have hshorter := length_firstLink? hfirst
      obtain ⟨inners, hbehind⟩ := ih rest.length (by omega) rest rfl
      exact ⟨inner :: inners, .round hfirst hbehind⟩

namespace Rounds

/-- There are no more rounds than the brackets leave room for. -/
theorem length_le (h : Rounds line inners) : 4 * inners.length ≤ line.length := by
  induction h with
  | done => exact Nat.zero_le _
  | round hfirst _ ih =>
    have hshorter := length_firstLink? hfirst
    rw [List.length_cons]
    omega

/-- **What is read from a line** are the targets of what its rounds come upon. -/
theorem wikiTargets_eq (h : Rounds line inners) :
    wikiTargets line = inners.filterMap wikiTarget? := by
  induction h with
  | done hnone => rw [wikiTargets_of_none hnone, List.filterMap_nil]
  | round hfirst _ ih =>
    rw [wikiTargets_of_some hfirst, ih, List.filterMap_cons]
    cases wikiTarget? _ <;> rfl

/-- What a round comes upon holds no closing brackets. -/
theorem not_closed (h : Rounds line inners) : ∀ inner ∈ inners, ¬ [']', ']'] <:+: inner := by
  induction h with
  | done => exact List.forall_mem_nil _
  | round hfirst _ ih =>
    obtain ⟨before, -, -, hinner⟩ := firstLink?_eq_some_iff.1 hfirst
    refine List.forall_mem_cons.2 ⟨fun hclosed => hinner ?_, ih⟩
    exact hclosed.trans (List.prefix_append _ _).isInfix

end Rounds

/-! ## Targets -/

/-- A text can be the target of a link between double brackets. -/
structure IsTarget (target : List Char) : Prop where
  ne_nil : target ≠ []
  trimmed : Trimmed target
  no_bar : '|' ∉ target
  no_sign : '#' ∉ target
  no_caret : '^' ∉ target
  not_closed : ¬ [']', ']'] <:+: target

/-- The target of a link is what stands before the first mark, without white space around
it. -/
theorem wikiTarget?_eq (inner : List Char) :
    wikiTarget? inner =
      let target := trim (inner.takeWhile fun c => c ∉ ['|', '#', '^'])
      if target = [] then none else some target := by
  have hmarks : (inner.takeWhile (· != '|')).takeWhile (fun c => c != '#' && c != '^') =
      inner.takeWhile fun c => c ∉ ['|', '#', '^'] := by
    rw [List.takeWhile_takeWhile]
    refine congrArg (List.takeWhile · inner) (funext fun c => ?_)
    grind
  rw [wikiTarget?, hmarks]
  simp only [List.isEmpty_iff]

theorem isTarget_of_wikiTarget? (h : wikiTarget? inner = some target)
    (hinner : ¬ [']', ']'] <:+: inner) : IsTarget target := by
  rw [wikiTarget?_eq] at h
  dsimp only at h
  split at h
  · cases h
  · rename_i hne
    obtain rfl := Option.some.inj h
    have hmarks : ∀ c ∈ trim (inner.takeWhile fun c => c ∉ ['|', '#', '^']),
        c ∉ ['|', '#', '^'] := fun c hc => by
      simpa using List.mem_takeWhile_imp ((trim_infix_self _).subset hc)
    refine ⟨hne, trimmed_trim _, fun hc => hmarks _ hc (by decide),
      fun hc => hmarks _ hc (by decide), fun hc => hmarks _ hc (by decide), fun hclosed => ?_⟩
    have hpiece : inner.takeWhile (fun c => c ∉ ['|', '#', '^']) <+: inner :=
      List.takeWhile_prefix _
    exact hinner ((hclosed.trans (trim_infix_self _)).trans hpiece.isInfix)

/-- **Whatever is read from a line** can be a target. -/
theorem isTarget_of_mem (h : target ∈ wikiTargets line) : IsTarget target := by
  obtain ⟨inners, hrounds⟩ := exists_rounds line
  rw [hrounds.wikiTargets_eq, List.mem_filterMap] at h
  obtain ⟨inner, hinner, htarget⟩ := h
  exact isTarget_of_wikiTarget? htarget (hrounds.not_closed inner hinner)

/-! ## Written links -/

/-- A link as it is written, with the text before it. -/
structure WrittenLink where
  before : List Char
  target : List Char
  /-- What stands between the target and the closing brackets: an alias, a heading or a
  block, if anything. -/
  ending : List Char

namespace WrittenLink

variable {l : WrittenLink} {links : List WrittenLink}

/-- The text of a link and of what stands before it. -/
def text (l : WrittenLink) : List Char :=
  l.before ++ (['[', '['] ++ (l.target ++ l.ending ++ [']', ']']))

/-- A link can be told from the text before it, its target from what follows it, and it
closes where it should. -/
structure Legible (l : WrittenLink) : Prop where
  plain : ¬ ['[', '['] <:+: l.before
  open_end : l.before.getLast? ≠ some '['
  not_blank : ∃ c ∈ l.target, isSpace c = false
  no_mark : ∀ c ∈ l.target, c ∉ ['[', ']', '|', '#', '^']
  ending_mark : ∀ c ∈ l.ending.head?, c ∈ ['|', '#', '^']
  ending_open : ']' ∉ l.ending

instance (l : WrittenLink) : Decidable l.Legible :=
  decidable_of_iff
    (containsText ['[', '['] l.before = false ∧ l.before.getLast? ≠ some '[' ∧
      l.target.any (fun c => !isSpace c) = true ∧
      l.target.all (fun c => c ∉ ['[', ']', '|', '#', '^']) = true ∧
      l.ending.head?.all (fun c => c ∈ ['|', '#', '^']) = true ∧ ']' ∉ l.ending) <| by
    simp only [containsText_eq_false_iff, List.any_eq_true, List.all_eq_true,
      Option.all_eq_true, decide_eq_true_eq, Bool.not_eq_true']
    exact ⟨fun ⟨plain, openEnd, notBlank, noMark, endingMark, endingOpen⟩ =>
      ⟨plain, openEnd, notBlank, noMark, endingMark, endingOpen⟩,
      fun h => ⟨h.plain, h.open_end, h.not_blank, h.no_mark, h.ending_mark, h.ending_open⟩⟩

/-- A line of links with the text before each, and the text behind the last one. -/
def lineOf (links : List WrittenLink) (last : List Char) : List Char :=
  links.flatMap text ++ last

/-- **A round comes upon the first link** that is written. -/
theorem firstLink?_text (h : l.Legible) (rest : List Char) :
    firstLink? (l.text ++ rest) = some (l.target ++ l.ending, rest) := by
  have hopen : ']' ∉ l.target ++ l.ending := by
    rw [List.mem_append, not_or]
    exact ⟨fun hmem => h.no_mark _ hmem (by decide), h.ending_open⟩
  refine firstLink?_eq_some_iff.2 ⟨l.before, ?_, not_doubled_concat h.plain h.open_end, ?_⟩
  · simp only [text, List.append_assoc]
  · refine not_doubled_concat (fun hpair => hopen ?_) fun hlast => hopen ?_
    · exact hpair.subset List.mem_cons_self
    · exact List.mem_of_getLast? hlast

theorem wikiTarget?_written (h : l.Legible) :
    wikiTarget? (l.target ++ l.ending) = some (trim l.target) := by
  have hinside : ∀ c ∈ l.target, decide (c ∉ ['|', '#', '^']) = true := fun c hc =>
    decide_eq_true fun hmark =>
      h.no_mark c hc (List.mem_cons_of_mem _ (List.mem_cons_of_mem _ hmark))
  have hending : l.ending.takeWhile (fun c => c ∉ ['|', '#', '^']) = [] := by
    cases htext : l.ending with
    | nil => rfl
    | cons c cs =>
      have hmark : c ∈ ['|', '#', '^'] := h.ending_mark c (by rw [htext]; rfl)
      exact List.takeWhile_cons_of_neg fun hnot => of_decide_eq_true hnot hmark
  rw [wikiTarget?_eq, List.takeWhile_append_of_pos hinside, hending, List.append_nil]
  exact if_neg (trim_ne_nil h.not_blank)

/-- The rounds of a written line come upon its links. -/
theorem rounds_lineOf (h : ∀ l ∈ links, l.Legible) (hlast : ¬ ['[', '['] <:+: last) :
    Rounds (lineOf links last) (links.map fun l => l.target ++ l.ending) := by
  induction links with
  | nil => exact .done (firstLink?_eq_none hlast)
  | cons l links ih =>
    obtain ⟨hl, hlinks⟩ := List.forall_mem_cons.1 h
    rw [lineOf, List.flatMap_cons, List.append_assoc]
    exact .round (firstLink?_text hl _) (ih hlinks)

end WrittenLink

/-- **Links are read back as they were written**, by their targets in order, where the text
between them holds no opening brackets and does not end in one.  And the scan of any line
ends after finitely many rounds, with the targets of what these come upon, none of which
is empty, has white space at its ends, a mark or closing brackets in it. -/
theorem wikiTargets_written :
    (∀ (links : List WrittenLink) (last : List Char), (∀ l ∈ links, l.Legible) →
      ¬ ['[', '['] <:+: last →
      wikiTargets (WrittenLink.lineOf links last) = links.map fun l => trim l.target) ∧
    ∀ line, (∃ inners, Rounds line inners ∧ 4 * inners.length ≤ line.length ∧
        wikiTargets line = inners.filterMap wikiTarget?) ∧
      ∀ target ∈ wikiTargets line, IsTarget target := by
  refine ⟨fun links last h hlast => ?_, fun line => ⟨?_, fun target => isTarget_of_mem⟩⟩
  · rw [(WrittenLink.rounds_lineOf h hlast).wikiTargets_eq, List.filterMap_map,
      ← List.filterMap_eq_map]
    exact List.filterMap_congr fun l hl => WrittenLink.wikiTarget?_written (h l hl)
  · obtain ⟨inners, hrounds⟩ := exists_rounds line
    exact ⟨inners, hrounds, hrounds.length_le, hrounds.wikiTargets_eq⟩

/-- Brackets that are not doubled, that close nothing or that stand in an alias do not
shift the links around them. -/
theorem wikiTargets_written_brackets :
    let links : List WrittenLink :=
      [⟨"a [ b".toList, " Target ".toList, "|alias [[ x".toList⟩,
        ⟨"] ]] c ".toList, "img.png".toList, "#part|y".toList⟩, ⟨[], "n".toList, []⟩]
    let line := "a [ b[[ Target |alias [[ x]]] ]] c [[img.png#part|y]][[n]] ]] ["
    (∀ l ∈ links, l.Legible) ∧ WrittenLink.lineOf links " ]] [".toList = line.toList ∧
      wikiTargets line.toList = ["Target", "img.png", "n"].map String.toList := by
  intro links line
  have hlegible : ∀ l ∈ links, l.Legible := by decide +kernel
  have hline : WrittenLink.lineOf links " ]] [".toList = line.toList := by decide +kernel
  have hread := wikiTargets_written.1 links " ]] [".toList hlegible (by decide +kernel)
  rw [hline] at hread
  exact ⟨hlegible, hline, hread.trans (by decide +kernel)⟩

end NoteVault.Note
