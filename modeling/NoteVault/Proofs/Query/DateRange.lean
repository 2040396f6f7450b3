import NoteVault.Proofs.Calendar.Unit
import NoteVault.Proofs.Query.Complement

/-!
# Ranges of days are exact to the millisecond

A query for a range of days tests the day on which a file was changed.  In terms of
moments it keeps the files that were changed from the midnight of the first day on
and before the midnight that ends the last one (`onDay_contains`): the days of the
calendar follow one another without a gap, so a moment between the two has a day, and
that day is in the range.  A text that writes no range keeps nothing, and says so
(`range_exact`).
-/

namespace NoteVault

open Calendar

/-- Whether a file was changed from one moment on and before another. -/
def FileRecord.changedWithin (file : FileRecord) (first last : Int) : Bool :=
  file.modified.any fun ms => decide (first ≤ ms.toInt ∧ ms.toInt < last)

namespace Calendar.DayRange

/-- The moment at which a range begins. -/
def opening (days : DayRange) : Int := days.start.midnight

/-- The moment at which a range is over: the midnight behind its last day. -/
def closing (days : DayRange) : Int := days.finish.midnight + millisPerDay

/-- **The moments of a range** are those whose day is in it. -/
theorem exists_day_iff (days : DayRange) (ms : Int) :
    (∃ d, dayOfMillis? ms = some d ∧ days.contains d = true) ↔
      days.opening ≤ ms ∧ ms < days.closing := by
  have hcontains : ∀ d : Day, days.contains d = true ↔
      days.start.number ≤ d.number ∧ d.number ≤ days.finish.number := fun _ => contains_iff
  simp only [hcontains, opening, closing, Day.midnight]
  constructor
  · rintro ⟨d, hd, hstart, hfinish⟩
    have hday := dayOfMillis?_eq_some_iff.1 hd
    simp only [Day.midnight, millisPerDay] at hday ⊢
    omega
  · rintro ⟨hopening, hclosing⟩
    have hnumber : days.start.number ≤ ms / millisPerDay ∧
        ms / millisPerDay ≤ days.finish.number := by
      simp only [millisPerDay] at hopening hclosing ⊢
      omega
    obtain ⟨d, hd⟩ := Day.exists_ofNumber?_of_between hnumber.1 hnumber.2
    rw [← Day.ofNumber?_eq_some_iff.1 hd] at hnumber
    exact ⟨d, hd, hnumber⟩

end Calendar.DayRange

namespace Query

theorem onDay_contains (file : FileRecord) (days : DayRange) :
    Matcher.onDay file days.contains = file.changedWithin days.opening days.closing := by
  unfold Matcher.onDay FileRecord.changedWithin
  cases file.modified with
  | none => rfl
  | some ms =>
    rw [Bool.eq_iff_iff, Option.map_some, Option.bind_some, Option.any_some, decide_eq_true_iff,
      ← days.exists_day_iff, Option.any_eq_true]

/-- **Ranges of days are exact to the millisecond.**  The midnight of a day is its
first moment.  A query for a range keeps exactly the files that were changed between
the midnight of its first day and the one that ends its last day; none of them was
changed at a moment beyond the calendar.  A query for a text that writes no range
keeps nothing, and says so. -/
theorem range_exact (ctx : Context) (raw : String) (files : List FileRecord) :
    (∀ d : Day, dayOfMillis? d.midnight = some d ∧
        ∀ ms, dayOfMillis? ms = some d → d.midnight ≤ ms) ∧
      match DayRange.parse? raw ctx.today with
      | some days =>
        (evaluate ctx [.range raw] files).files =
            files.filter (fun file =>
              file.changedWithin days.start.midnight (days.finish.midnight + 86400000)) ∧
          ∀ file ∈ (evaluate ctx [.range raw] files).files,
            ∃ ms d, file.modified = some ms ∧ dayOfMillis? ms.toInt = some d
      | none =>
        (evaluate ctx [.range raw] files).files = [] ∧
          (evaluate ctx [.range raw] files).label = "invalid date range" := by
  refine ⟨fun d => ⟨dayOfMillis?_eq_some_iff.2 ⟨Int.le_refl _, ?_⟩, fun ms hms =>
    (dayOfMillis?_eq_some_iff.1 hms).1⟩, ?_⟩
  · exact Int.lt_add_of_pos_right _ (by decide)
  have hlabel : (evaluate ctx [.range raw] files).label = Term.label ctx.today (.range raw) :=
    label_narrow ctx ⟨files, ""⟩ (.range raw)
  rw [files_evaluate_singleton, hlabel, Term.label]
  cases hparse : DayRange.parse? raw ctx.today with
  | none =>
    have hnone : ∀ file, Term.admits ctx (.range raw) file = false := by
      intro file
      simp [Term.admits, Matcher.ofTerm?, hparse, Matcher.accepts]
    exact ⟨List.filter_eq_nil_iff.2 fun file _ => by rw [hnone]; decide, rfl⟩
  | some days =>
    have hadmits : Term.admits ctx (.range raw) =
        fun file => file.changedWithin days.opening days.closing := by
      funext file
      rw [← onDay_contains]
      simp [Term.admits, Matcher.ofTerm?, hparse, Matcher.accepts]
    rw [hadmits]
    refine ⟨rfl, fun file hfile => ?_⟩
    obtain ⟨ms, hms, hwithin⟩ := (Option.any_eq_true _ _).1 (List.mem_filter.1 hfile).2
    obtain ⟨d, hd, -⟩ := (days.exists_day_iff ms.toInt).2 (of_decide_eq_true hwithin)
    exact ⟨ms, d, hms, hd⟩

/-- The year 1969 ends one millisecond before the start of 1970. -/
example :
    ((evaluate ⟨DayRange.epoch, .ofText "YYYY", []⟩ [.range "1969"]
      [.ofParts "early.md" ⟨0, none, some (-1)⟩ none,
        .ofParts "late.md" ⟨0, none, some 0⟩ none]).files.map FileRecord.path) = ["early.md"] := by
  decide +kernel

end Query

end NoteVault
