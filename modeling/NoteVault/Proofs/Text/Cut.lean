import NoteVault.Text.Cut

/-!
# Cutting at a character or a piece of text

A text is cut at the first place of a character, or at the last one; the part on the
near side does not have the character (`cutFirst_eq_some_iff`, `cutLast_eq_some_iff`).
Or it is cut at the first place of a piece of text, which then does not begin any
earlier, not even where it would reach into the place of the cut (`cutText_eq_some_iff`).
-/

namespace NoteVault.Text

variable {sep : Char} {cs a b : List Char}

theorem cutFirst_eq_none_iff : cutFirst sep cs = none ↔ sep ∉ cs := by
  induction cs with
  | nil => exact ⟨fun _ => List.not_mem_nil, fun _ => rfl⟩
  | cons c cs ih =>
    rw [cutFirst, List.mem_cons, not_or]
    by_cases hc : c = sep
    · simp [hc]
    · rw [if_neg hc, Option.map_eq_none_iff, ih]
      exact ⟨fun h => ⟨fun hsep => hc hsep.symm, h⟩, And.right⟩

/-- **A cut at the first place** of a character. -/
theorem cutFirst_eq_some_iff : cutFirst sep cs = some (a, b) ↔ cs = a ++ sep :: b ∧ sep ∉ a := by
  induction cs generalizing a with
  | nil => simp [cutFirst]
  | cons c cs ih =>
    rw [cutFirst]
    by_cases hc : c = sep
    · subst hc
      rw [if_pos rfl]
      constructor
      · intro h
        obtain ⟨rfl, rfl⟩ := Prod.mk.inj (Option.some.inj h)
        exact ⟨rfl, List.not_mem_nil⟩
      · rintro ⟨heq, hnot⟩
        cases a with
        | nil => rw [(List.cons.inj heq).2]
        | cons d a => exact absurd (List.mem_cons.2 (Or.inl (List.cons.inj heq).1)) hnot
    · rw [if_neg hc, Option.map_eq_some_iff]
      constructor
      · rintro ⟨⟨a', b'⟩, hcut, heq⟩
        obtain ⟨rfl, rfl⟩ := Prod.mk.inj heq
        obtain ⟨rfl, hnot⟩ := ih.1 hcut
        refine ⟨rfl, fun hmem => ?_⟩
        exact (List.mem_cons.1 hmem).elim (fun hsep => hc hsep.symm) hnot
      · rintro ⟨heq, hnot⟩
        cases a with
        | nil => exact absurd (List.cons.inj heq).1 hc
        | cons d a =>
          obtain ⟨rfl, rfl⟩ := List.cons.inj heq
          exact ⟨(a, b), ih.2 ⟨rfl, fun hmem => hnot (List.mem_cons_of_mem _ hmem)⟩, rfl⟩

theorem cutLast_eq_none_iff : cutLast sep cs = none ↔ sep ∉ cs := by
  rw [cutLast, Option.map_eq_none_iff, cutFirst_eq_none_iff, List.mem_reverse]

/-- **A cut at the last place** of a character. -/
theorem cutLast_eq_some_iff : cutLast sep cs = some (a, b) ↔ cs = a ++ sep :: b ∧ sep ∉ b := by
  have hreverse : cs.reverse = b.reverse ++ sep :: a.reverse ↔ cs = a ++ sep :: b := by
    rw [List.reverse_eq_iff, List.reverse_append, List.reverse_cons, List.reverse_reverse,
      List.reverse_reverse, List.append_assoc, List.singleton_append]
  rw [← hreverse, ← List.mem_reverse, ← cutFirst_eq_some_iff, cutLast, Option.map_eq_some_iff]
  constructor
  · rintro ⟨⟨b', a'⟩, hcut, heq⟩
    obtain ⟨rfl, rfl⟩ := Prod.mk.inj heq
    rw [List.reverse_reverse, List.reverse_reverse]
    exact hcut
  · intro hcut
    exact ⟨(b.reverse, a.reverse), hcut,
      Prod.ext (List.reverse_reverse a) (List.reverse_reverse b)⟩

/-! ## At a piece of text -/

section CutText

variable {mark : List Char}

theorem stripPrefix?_eq_none_iff : stripPrefix? mark cs = none ↔ ¬ mark <+: cs := by
  rw [Option.eq_none_iff_forall_ne_some]
  simp only [ne_eq, stripPrefix?_eq_some_iff]
  exact ⟨fun h ⟨rest, hrest⟩ => h rest hrest.symm, fun h rest hrest => h ⟨rest, hrest.symm⟩⟩

theorem cutText_eq_none_iff : cutText mark cs = none ↔ ¬ mark <:+: cs := by
  induction cs with
  | nil =>
    rw [cutText, Option.map_eq_none_iff, stripPrefix?_eq_none_iff, List.prefix_nil,
      List.infix_nil]
  | cons c cs ih =>
    rw [cutText, List.infix_cons_iff, not_or, ← ih, ← stripPrefix?_eq_none_iff]
    cases stripPrefix? mark (c :: cs) with
    | some rest => exact iff_of_false (Option.some_ne_none _) fun h => Option.some_ne_none _ h.1
    | none => exact Option.map_eq_none_iff.trans (and_iff_right rfl).symm

/-- A piece of text occurs where the text can be cut at it. -/
theorem containsText_eq_false_iff : containsText mark cs = false ↔ ¬ mark <:+: cs := by
  rw [containsText, Option.isSome_eq_false_iff, Option.isNone_iff_eq_none, cutText_eq_none_iff]

/-- **A cut at the first place** of a piece of text. -/
theorem cutText_eq_some_iff (hne : mark ≠ []) :
    cutText mark cs = some (a, b) ↔ cs = a ++ (mark ++ b) ∧ ¬ mark <:+: a ++ mark.dropLast := by
  have hpositive : 0 < mark.length := List.length_pos_iff.2 hne
  have hdropped : mark.dropLast <+: mark := List.dropLast_prefix mark
  have hshown : ∀ x, x ++ mark.dropLast <+: x ++ (mark ++ b) := fun x =>
    (List.prefix_append_right_inj x).2 (hdropped.trans (List.prefix_append _ _))
  induction cs generalizing a with
  | nil =>
    have hnone : cutText mark [] = none := cutText_eq_none_iff.2 (mt List.infix_nil.1 hne)
    rw [hnone]
    refine iff_of_false nofun fun h => hne ?_
    exact (List.append_eq_nil_iff.1 (List.append_eq_nil_iff.1 h.1.symm).2).1
  | cons c cs ih =>
    rw [cutText]
    cases hstrip : stripPrefix? mark (c :: cs) with
    | some rest =>
      have hfront := stripPrefix?_eq_some_iff.1 hstrip
      constructor
      · intro h
        obtain ⟨rfl, rfl⟩ := Prod.mk.inj (Option.some.inj h)
        refine ⟨hfront, fun hearlier => ?_⟩
        have hlength := hearlier.length_le
        rw [List.nil_append, List.length_dropLast] at hlength
        omega
      · rintro ⟨heq, hfirst⟩
        cases a with
        | nil => rw [List.append_cancel_left (hfront.symm.trans heq)]
        | cons d a =>
          -- The piece of text stands at the beginning, which is before the place of the cut.
          have hlength : mark.length ≤ (d :: a ++ mark.dropLast).length := by
            rw [List.length_append, List.length_cons, List.length_dropLast]
            omega
          have hbegins : mark <+: d :: a ++ mark.dropLast :=
            List.prefix_of_prefix_length_le ⟨rest, hfront.symm.trans heq⟩ (hshown _) hlength
          exact absurd hbegins.isInfix hfirst
    | none =>
      have hnot := stripPrefix?_eq_none_iff.1 hstrip
      rw [Option.map_eq_some_iff]
      constructor
      · rintro ⟨⟨a', b'⟩, hcut, heq⟩
        obtain ⟨rfl, rfl⟩ := Prod.mk.inj heq
        obtain ⟨rfl, hfirst⟩ := ih.1 hcut
        refine ⟨rfl, fun hearlier => ?_⟩
        rcases List.infix_cons_iff.1 hearlier with hbegins | hearlier
        · exact hnot (hbegins.trans (hshown (c :: a')))
        · exact hfirst hearlier
      · rintro ⟨heq, hfirst⟩
        cases a with
        | nil => exact absurd ⟨b, heq.symm⟩ hnot
        | cons d a =>
          obtain ⟨rfl, rfl⟩ := List.cons.inj heq
          exact ⟨(a, b), ih.2 ⟨rfl, fun hearlier => hfirst (List.infix_cons hearlier)⟩, rfl⟩

/-- A character that is not doubled in a text, nor at its end, is not doubled by one more. -/
theorem not_doubled_concat {c : Char} (h : ¬ [c, c] <:+: cs) (hlast : cs.getLast? ≠ some c) :
    ¬ [c, c] <:+: cs ++ [c] := by
  rw [List.infix_concat_iff, not_or]
  refine ⟨fun hend => hlast ?_, h⟩
  obtain hnil | ⟨front, hpair, hfront⟩ := List.suffix_concat_iff.1 hend
  · cases hnil
  · obtain rfl : [c] = front := List.append_inj_left' hpair rfl
    obtain ⟨before, rfl⟩ := hfront
    exact List.getLast?_concat

end CutText

end NoteVault.Text
