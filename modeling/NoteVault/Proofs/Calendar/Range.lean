import Mathlib.Data.List.Basic
import NoteVault.Proofs.Calendar.Unit

/-!
# Two units with dots between them

A text with two dots in a row writes a range exactly when it is cut into two sides, each
of which is blank or a unit once white space is taken away (`isSome_parse?_iff`).  The
range begins with the first day of the left unit and ends with the last day of the right
one; a blank side stands for the start of 1970 or for today (`parse?_eq_some_iff`).

The text of a day in the years 0000 to 9999 is a unit and holds no dot.  So two of them
with dots between them read back as the range from the one to the other, in whatever
order they come (`parse?_text_dots_text`).
-/

namespace NoteVault.Calendar.DayRange

open Text Unicode

variable {today : Day} {left right side : List Char} {text : String} {days : DayRange}

/-! ## Sides -/

/-- The side is blank, or a unit that can be read on its own. -/
def IsSide (today : Day) (side : List Char) : Prop :=
  trim side = [] ∨ (parse? (String.ofList (trim side)) today).isSome = true

/-- The day that a side stands for: `default` if it is blank, or else the end of its unit
that `pick` takes. -/
inductive StandsFor (today default : Day) (pick : DayRange → Day) (side : List Char) : Day → Prop
  | blank (h : trim side = []) : StandsFor today default pick side default
  | unit {days : DayRange} (h : parse? (String.ofList (trim side)) today = some days) :
      StandsFor today default pick side (pick days)

/-- A side without dots is read as a unit. -/
theorem parse?_trim (h : ¬ dots <:+: side) (today : Day) :
    parse? (String.ofList (trim side)) today = ofUnit? (trim side) today := by
  have htrim : ¬ dots <:+: trim side := fun hdots => h (hdots.trans (trim_infix_self side))
  rw [parse?_of_no_dots (by rwa [String.toList_ofList]), String.toList_ofList, trim_trim]

theorem standsFor_iff {default day : Day} {pick : DayRange → Day} (h : ¬ dots <:+: side) :
    StandsFor today default pick side day ↔
      (if trim side = [] then some default else (ofUnit? (trim side) today).map pick) =
        some day := by
  have hparse := parse?_trim h today
  by_cases hblank : trim side = []
  · rw [if_pos hblank, Option.some_inj]
    rw [hblank] at hparse
    constructor
    · intro hday
      cases hday with
      | blank => rfl
      | unit hunit =>
        rw [hblank, hparse] at hunit
        cases hunit
    · rintro rfl
      exact .blank hblank
  · rw [if_neg hblank, ← hparse, Option.map_eq_some_iff]
    constructor
    · intro hday
      cases hday with
      | blank h => exact absurd h hblank
      | unit hunit => exact ⟨_, hunit, rfl⟩
    · rintro ⟨days, hunit, rfl⟩
      exact .unit hunit

theorem isSide_iff {default : Day} {pick : DayRange → Day} :
    IsSide today side ↔ ∃ day, StandsFor today default pick side day := by
  constructor
  · rintro (h | h)
    · exact ⟨_, .blank h⟩
    · obtain ⟨days, hdays⟩ := Option.isSome_iff_exists.1 h
      exact ⟨_, .unit hdays⟩
  · rintro ⟨day, hday⟩
    cases hday with
    | blank h => exact .inl h
    | unit h => exact .inr (Option.isSome_iff_exists.2 ⟨_, h⟩)

theorem startOf?_eq_ite (side : List Char) (today : Day) : startOf? side today =
    if trim side = [] then some epoch else (ofUnit? (trim side) today).map start := by
  unfold startOf?
  split
  · rename_i h
    rw [if_pos h]
  · rename_i h
    rw [if_neg h]

theorem finishOf?_eq_ite (side : List Char) (today : Day) : finishOf? side today =
    if trim side = [] then some today else (ofUnit? (trim side) today).map finish := by
  unfold finishOf?
  split
  · rename_i h
    rw [if_pos h]
  · rename_i h
    rw [if_neg h]

/-! ## Texts with dots -/

/-- The range of a text that is cut into two sides. -/
theorem parse?_of_sides (h : sides text.toList = [left, right]) (today : Day) :
    parse? text today = do return ⟨← startOf? left today, ← finishOf? right today⟩ := by
  have htrim := map_trim_sides_trim text.toList
  rw [h] at htrim
  obtain ⟨left', rest, hsides, hleft, hrest⟩ := List.map_eq_cons_iff.1 htrim
  obtain ⟨right', tail, rfl, hright, hnil⟩ := List.map_eq_cons_iff.1 hrest
  rw [List.map_eq_nil_iff.1 hnil] at hsides
  have hstart : startOf? left' today = startOf? left today := by
    rw [startOf?_eq_ite, startOf?_eq_ite, hleft]
  have hfinish : finishOf? right' today = finishOf? right today := by
    rw [finishOf?_eq_ite, finishOf?_eq_ite, hright]
  rw [parse?, hsides, ← hstart, ← hfinish]

/-- **A range begins and ends with the days that its sides stand for.** -/
theorem parse?_eq_some_iff (h : CutAtDots text.toList [left, right]) :
    parse? text today = some days ↔
      StandsFor today epoch start left days.start ∧
        StandsFor today today finish right days.finish := by
  have hleft := h.not_infix_of_mem List.mem_cons_self
  have hright := h.not_infix_of_mem (List.mem_cons_of_mem _ List.mem_cons_self)
  rw [parse?_of_sides (sides_eq_iff.2 h), between_eq_some_iff, standsFor_iff hleft,
    standsFor_iff hright, startOf?_eq_ite, finishOf?_eq_ite]

/-- A text with dots that writes a range has two sides. -/
theorem exists_sides_of_parse? (hdots : dots <:+: text.toList)
    (h : parse? text today = some days) : ∃ left right, CutAtDots text.toList [left, right] := by
  have hlength := congrArg List.length (map_trim_sides_trim text.toList)
  rw [List.length_map, List.length_map] at hlength
  rw [parse?] at h
  split at h
  · rename_i unit hsides
    rw [hsides] at hlength
    obtain ⟨part, hpart⟩ := List.length_eq_one_iff.1 hlength.symm
    exact absurd hdots (sides_eq_iff.1 hpart).not_infix_of_singleton
  · rename_i left right hsides
    rw [hsides] at hlength
    obtain ⟨left, right, hcut⟩ := List.length_eq_two.1 hlength.symm
    exact ⟨left, right, sides_eq_iff.1 hcut⟩
  · cases h

/-- **A text with dots writes a range exactly when it has two sides.** -/
theorem isSome_parse?_iff (hdots : dots <:+: text.toList) :
    (parse? text today).isSome = true ↔ ∃ left right,
      CutAtDots text.toList [left, right] ∧ IsSide today left ∧ IsSide today right := by
  constructor
  · intro h
    obtain ⟨days, hdays⟩ := Option.isSome_iff_exists.1 h
    obtain ⟨left, right, hcut⟩ := exists_sides_of_parse? hdots hdays
    obtain ⟨hstart, hfinish⟩ := (parse?_eq_some_iff hcut).1 hdays
    exact ⟨left, right, hcut, isSide_iff.2 ⟨_, hstart⟩, isSide_iff.2 ⟨_, hfinish⟩⟩
  · rintro ⟨left, right, hcut, hleft, hright⟩
    obtain ⟨first, hfirst⟩ := isSide_iff.1 hleft
    obtain ⟨last, hlast⟩ := isSide_iff.1 hright
    have hdays : parse? text today = some ⟨first, last⟩ :=
      (parse?_eq_some_iff hcut).2 ⟨hfirst, hlast⟩
    exact Option.isSome_iff_exists.2 ⟨_, hdays⟩

/-! ## Days as they are written -/

variable {d : Day}

theorem ofUnit?_text (h : d.FourDigitYear) (today : Day) :
    ofUnit? d.text.toList today = some ⟨d, d⟩ := by
  have hyear : d.year = d.year.natAbs := (Int.natAbs_of_nonneg h.1).symm
  rw [Day.toList_text h, ofUnit?_day today (Day.digits_year h) d.digits_month d.digits_day,
    digitsValue_padded, digitsValue_padded, digitsValue_padded, ofDay?,
    Day.of?_eq_some_iff.2 ⟨hyear, rfl, rfl⟩]
  rfl

theorem isDigit_of_mem_text (h : d.FourDigitYear) {c : Char} (hc : c ∈ d.text.toList) :
    c.isDigit = true ∨ c = '-' := by
  rw [Day.toList_text h] at hc
  simp only [List.mem_append, List.mem_cons] at hc
  rcases hc with hc | rfl | hc | rfl | hc
  · exact .inl ((Day.digits_year h).isDigit c hc)
  · exact .inr rfl
  · exact .inl (d.digits_month.isDigit c hc)
  · exact .inr rfl
  · exact .inl (d.digits_day.isDigit c hc)

theorem dot_not_mem_text (h : d.FourDigitYear) : '.' ∉ d.text.toList := by
  intro hmem
  rcases isDigit_of_mem_text h hmem with hdigit | hhyphen
  · exact absurd hdigit (by decide)
  · exact absurd hhyphen (by decide)

theorem isSpace_of_isDigit {c : Char} (h : c.isDigit = true) : isSpace c = false := by
  obtain ⟨hlow, hhigh⟩ := Char.isDigit_iff_toNat.1 h
  have hzero : '0'.toNat = 48 := rfl
  have hnine : '9'.toNat = 57 := rfl
  rw [isSpace, if_pos (by omega)]
  simp only [Bool.or_eq_false_iff, Bool.and_eq_false_iff, decide_eq_false_iff_not, beq_eq_false_iff_ne]
  omega

theorem trim_text (h : d.FourDigitYear) : trim d.text.toList = d.text.toList := by
  refine trim_eq_self (trimmed_of_no_space fun c hc => ?_)
  rcases isDigit_of_mem_text h hc with hdigit | rfl
  · exact isSpace_of_isDigit hdigit
  · decide

theorem text_ne_nil (h : d.FourDigitYear) : d.text.toList ≠ [] := by
  intro hnil
  have hunit := ofUnit?_text h d
  rw [hnil, ofUnit?] at hunit
  cases hunit

theorem not_infix_append_dot {part : List Char} (h : '.' ∉ part) :
    ¬ dots <:+: part ++ ['.'] := by
  intro hdots
  have hcount := hdots.sublist.count_le '.'
  rw [List.count_append, List.count_eq_zero_of_not_mem h] at hcount
  exact absurd hcount (by decide)

/-- **Two days with dots between them read back as the range from the one to the
other.** -/
theorem parse?_text_dots_text {first last : Day} (hfirst : first.FourDigitYear)
    (hlast : last.FourDigitYear) (today : Day) :
    parse? (first.text ++ ".." ++ last.text) today = some ⟨first, last⟩ := by
  have htext : (first.text ++ ".." ++ last.text).toList =
      first.text.toList ++ (dots ++ last.text.toList) := by
    rw [String.toList_append, String.toList_append, List.append_assoc]
    rfl
  have hcut : CutAtDots (first.text ++ ".." ++ last.text).toList
      [first.text.toList, last.text.toList] := by
    rw [htext]
    exact .cut (not_infix_append_dot (dot_not_mem_text hfirst))
      (.last (not_dots_infix_of_not_mem (dot_not_mem_text hlast)))
  rw [parse?_of_sides (sides_eq_iff.2 hcut), startOf?_eq_ite, finishOf?_eq_ite,
    trim_text hfirst, trim_text hlast, if_neg (text_ne_nil hfirst), if_neg (text_ne_nil hlast),
    ofUnit?_text hfirst, ofUnit?_text hlast]
  rfl

/-- **The grammar of ranges.**  A text with two dots in a row writes a range exactly when
it is cut into two sides, each of them blank or a unit that can be read on its own, such
as a word for today.  The range begins with the first day of the left unit or with the
start of 1970, and ends with the last day of the right unit or with today.  So two days
with dots between them write the range from the one to the other, which is labelled with
the two, and holds the days between them. -/
theorem range_grammar (today : Day) :
    (∀ text : String, ['.', '.'] <:+: text.toList →
      ((parse? text today).isSome = true ↔ ∃ left right,
        CutAtDots text.toList [left, right] ∧ IsSide today left ∧ IsSide today right)) ∧
    (∀ (text : String) (left right : List Char) (days : DayRange),
      CutAtDots text.toList [left, right] →
        (parse? text today = some days ↔
          StandsFor today epoch start left days.start ∧
            StandsFor today today finish right days.finish)) ∧
    (parse? "d" today = some ⟨today, today⟩ ∧ parse? "@d" today = some ⟨today, today⟩) ∧
    ∀ first last : Day, first.FourDigitYear → last.FourDigitYear →
      parse? (first.text ++ ".." ++ last.text) today = some ⟨first, last⟩ ∧
        label ⟨first, last⟩ = first.text ++ " to " ++ last.text ∧
        (∀ d, contains ⟨first, last⟩ d = true ↔ first ≤ d ∧ d ≤ last) ∧
        (¬ first ≤ last → ∀ d, contains ⟨first, last⟩ d = false) := by
  refine ⟨fun text hdots => isSome_parse?_iff hdots,
    fun text left right days hcut => parse?_eq_some_iff hcut, ⟨?_, ?_⟩, ?_⟩
  · rw [parse?_of_no_dots (by decide +kernel)]
    rfl
  · rw [parse?_of_no_dots (by decide +kernel)]
    rfl
  · intro first last hfirst hlast
    refine ⟨parse?_text_dots_text hfirst hlast today, rfl, fun d => contains_iff, ?_⟩
    intro hle d
    rw [← Bool.not_eq_true, contains_iff]
    rintro ⟨hstart, hfinish⟩
    exact hle (Int.le_trans hstart hfinish)

/-- A blank left side, a third dot that spoils the right side, and two days in the wrong
order. -/
theorem range_grammar_blank_side :
    let newYear : Day := ⟨2024, 1, 1, by decide, by decide, by decide⟩
    let eve : Day := ⟨2023, 12, 31, by decide, by decide, by decide⟩
    (CutAtDots "\t..@d".toList [['\t'], ['@', 'd']] ∧
        parse? "\t..@d" newYear = some ⟨epoch, newYear⟩) ∧
      (['.', '.'] <:+: "2024...2025".toList ∧ parse? "2024...2025" newYear = none) ∧
      newYear.FourDigitYear ∧ eve.FourDigitYear ∧ ¬ newYear ≤ eve ∧
        parse? (newYear.text ++ ".." ++ eve.text) newYear = some ⟨newYear, eve⟩ ∧
        contains ⟨newYear, eve⟩ newYear = false := by
  intro newYear eve
  obtain ⟨haccepts, hends, hwords, hdays⟩ := range_grammar newYear
  have hblank : CutAtDots "\t..@d".toList [['\t'], ['@', 'd']] := sides_eq_iff.1 (by decide)
  have hword : String.ofList (trim ['@', 'd']) = "@d" := by decide +kernel
  have htoday : StandsFor newYear newYear finish ['@', 'd'] newYear := .unit (hword ▸ hwords.2)
  have hdots : ['.', '.'] <:+: "2024...2025".toList := by decide +kernel
  have hcut : sides "2024...2025".toList = ["2024".toList, ".2025".toList] := by decide
  have hspoilt : ¬ (parse? "2024...2025" newYear).isSome = true := by
    intro h
    obtain ⟨left, right, hsides, -, hright⟩ := (haccepts _ hdots).1 h
    rw [← sides_eq_iff, hcut] at hsides
    cases hsides
    revert hright
    unfold IsSide
    decide +kernel
  have horder : ¬ newYear ≤ eve := by decide +kernel
  obtain ⟨hread, -, -, hempty⟩ := hdays newYear eve (by decide) (by decide)
  exact ⟨⟨hblank, (hends _ _ _ ⟨epoch, newYear⟩ hblank).2 ⟨.blank (by decide), htoday⟩⟩,
    ⟨hdots, Option.not_isSome_iff_eq_none.1 hspoilt⟩, by decide, by decide, horder, hread,
    hempty horder newYear⟩

end NoteVault.Calendar.DayRange
