import Mathlib.Data.List.Basic
import NoteVault.Query.Evaluate

/-!
# Terms narrow one after the other

`evaluate` threads two things through the terms of a query: the files that are
left, and what is shown of the last term.  For the files a term is a test
(`Term.admits`): a query leaves the files that pass the tests of all its terms,
in the order in which they came.  So terms may change places, and a longer query
goes on where a shorter one has stopped.  What is shown is a function of the
last term and the present day (`Term.label`).  The day matters only to terms that
count back from it, or write a range that does (`Term.Timeless`).
-/

namespace NoteVault.Query

open Calendar Pattern

/-- Whether a term lets a file pass.  A term whose pattern cannot be read lets
every file pass. -/
def Term.admits (ctx : Context) (term : Term) (file : FileRecord) : Bool :=
  (Matcher.ofTerm? ctx term).all fun matcher => matcher.accepts ctx file

/-- What is shown of a term on a given day: its range of days, excluded or not. -/
def Term.label (today : Day) : Term → String
  | .range raw =>
    match DayRange.parse? raw today with
    | some days => days.label
    | none => malformedRangeLabel
  | .exclude term => term.label today
  | _ => ""

/-- What is shown of the test of a term; nothing is shown where there is none. -/
theorem label_ofTerm? (ctx : Context) (term : Term) :
    ((Matcher.ofTerm? ctx term).map Matcher.label).getD "" = term.label ctx.today := by
  induction term with
  | all => rfl
  | window w => rfl
  | type filter => rfl
  | unknown keyword => rfl
  | text source =>
    show (((Regex.parse? source).map Matcher.pattern).map Matcher.label).getD "" = ""
    cases Regex.parse? source <;> rfl
  | range raw =>
    show (Matcher.range (DayRange.parse? raw ctx.today)).label = _
    rw [Term.label]
    cases DayRange.parse? raw ctx.today <;> rfl
  | exclude term ih =>
    rw [Term.label, ← ih]
    show (((Matcher.ofTerm? ctx term).map Matcher.not).map Matcher.label).getD "" = _
    cases Matcher.ofTerm? ctx term <;> rfl

/-! ## One term -/

theorem files_narrow (ctx : Context) (outcome : Outcome) (term : Term) :
    (narrow ctx outcome term).files = outcome.files.filter (term.admits ctx) := by
  unfold narrow Term.admits
  cases Matcher.ofTerm? ctx term with
  | some matcher => rfl
  | none => exact (List.filter_eq_self.2 fun _ _ => rfl).symm

theorem label_narrow (ctx : Context) (outcome : Outcome) (term : Term) :
    (narrow ctx outcome term).label = term.label ctx.today := by
  rw [← label_ofTerm?, narrow]
  cases Matcher.ofTerm? ctx term <;> rfl

theorem narrow_eq (ctx : Context) (outcome : Outcome) (term : Term) :
    narrow ctx outcome term =
      ⟨outcome.files.filter (term.admits ctx), term.label ctx.today⟩ := by
  rw [← files_narrow, ← label_narrow]

/-! ## All terms -/

theorem files_foldl_narrow (ctx : Context) (terms : List Term) (outcome : Outcome) :
    (terms.foldl (narrow ctx) outcome).files =
      outcome.files.filter fun file => terms.all fun term => term.admits ctx file := by
  induction terms generalizing outcome with
  | nil => exact (List.filter_eq_self.2 fun _ _ => rfl).symm
  | cons term terms ih =>
    rw [List.foldl_cons, ih, files_narrow, List.filter_filter]
    refine List.filter_congr fun file _ => ?_
    rw [List.all_cons, Bool.and_comm]

/-- A query leaves the files that all its terms let pass. -/
theorem files_evaluate (ctx : Context) (terms : List Term) (files : List FileRecord) :
    (evaluate ctx terms files).files =
      files.filter fun file => terms.all fun term => term.admits ctx file :=
  files_foldl_narrow ctx terms ⟨files, ""⟩

/-- A longer query goes on with the files that a shorter one has left. -/
theorem files_evaluate_append (ctx : Context) (terms more : List Term)
    (files : List FileRecord) :
    (evaluate ctx (terms ++ more) files).files =
      (evaluate ctx more (evaluate ctx terms files).files).files := by
  rw [files_evaluate, files_evaluate, files_evaluate, List.filter_filter]
  refine List.filter_congr fun file _ => ?_
  rw [List.all_append, Bool.and_comm]

theorem files_evaluate_perm (ctx : Context) {terms other : List Term} (h : terms.Perm other)
    (files : List FileRecord) :
    (evaluate ctx terms files).files = (evaluate ctx other files).files := by
  rw [files_evaluate, files_evaluate]
  exact List.filter_congr fun file _ => h.all_eq

theorem label_evaluate_concat (ctx : Context) (terms : List Term) (term : Term)
    (files : List FileRecord) :
    (evaluate ctx (terms ++ [term]) files).label = term.label ctx.today := by
  rw [evaluate, List.foldl_append]
  exact label_narrow ctx _ term

/-! ## The present day -/

/-- The term means the same on every day. -/
def Term.Timeless : Term → Prop
  | .range raw => ∀ today later, DayRange.parse? raw today = DayRange.parse? raw later
  | .window _ => False
  | .exclude term => term.Timeless
  | _ => True

/-- The test of a timeless term gives the same verdict on every day.  The test is
compared by its verdict, for an exclusion turns the verdict around only where there
is a test. -/
theorem verdict_of_timeless {term : Term} (h : term.Timeless) (ctx : Context) (later : Day)
    (file : FileRecord) :
    (Matcher.ofTerm? { ctx with today := later } term).map
        (Matcher.accepts { ctx with today := later } file) =
      (Matcher.ofTerm? ctx term).map (Matcher.accepts ctx file) := by
  induction term with
  | all => rfl
  | type filter => cases filter <;> rfl
  | unknown keyword => rfl
  | window w => exact h.elim
  | text source =>
    show ((Regex.parse? source).map Matcher.pattern).map _ =
      ((Regex.parse? source).map Matcher.pattern).map _
    cases Regex.parse? source <;> rfl
  | range raw =>
    show (some (Matcher.range (DayRange.parse? raw later))).map _ =
      (some (Matcher.range (DayRange.parse? raw ctx.today))).map _
    rw [h later ctx.today]
    cases DayRange.parse? raw ctx.today <;> rfl
  | exclude term ih =>
    have hnot : ∀ ctx : Context,
        (Matcher.ofTerm? ctx (.exclude term)).map (Matcher.accepts ctx file) =
          ((Matcher.ofTerm? ctx term).map (Matcher.accepts ctx file)).map (!·) := by
      intro ctx
      show ((Matcher.ofTerm? ctx term).map Matcher.not).map _ = _
      cases Matcher.ofTerm? ctx term <;> rfl
    rw [hnot, hnot, ih h]

theorem admits_of_timeless {term : Term} (h : term.Timeless) (ctx : Context) (later : Day) :
    term.admits { ctx with today := later } = term.admits ctx := by
  have hverdict : ∀ (ctx : Context) (file : FileRecord),
      term.admits ctx file = ((Matcher.ofTerm? ctx term).map (Matcher.accepts ctx file)).all id := by
    intro ctx file
    rw [Term.admits]
    cases Matcher.ofTerm? ctx term <;> rfl
  funext file
  rw [hverdict, hverdict, verdict_of_timeless h]

theorem label_of_timeless {term : Term} (h : term.Timeless) (today later : Day) :
    term.label later = term.label today := by
  induction term with
  | range raw => rw [Term.label, Term.label, h later today]
  | exclude term ih => exact ih h
  | _ => rfl

/-- **A query of timeless terms has the same outcome on every day.** -/
theorem evaluate_of_timeless {terms : List Term} (h : ∀ term ∈ terms, term.Timeless)
    (ctx : Context) (later : Day) (files : List FileRecord) :
    evaluate { ctx with today := later } terms files = evaluate ctx terms files := by
  refine List.foldl_ext _ _ _ fun outcome term hterm => ?_
  have hterm := h term hterm
  rw [narrow_eq, narrow_eq, admits_of_timeless hterm, label_of_timeless hterm ctx.today]

/-! ## The chain law -/

/-- **The chain law.**  A query leaves exactly the files that all its terms let
pass, in their order.  So more terms leave a part of the files, the order of the
terms does not matter, and the terms that follow work on what those before them
have left.  What is shown depends on the last term and the present day alone. -/
theorem evaluate_chain (ctx : Context) (terms : List Term) (files : List FileRecord) :
    (evaluate ctx terms files).files =
        files.filter (fun file => terms.all fun term => term.admits ctx file) ∧
      (∀ more, List.Sublist (evaluate ctx (terms ++ more) files).files
        (evaluate ctx terms files).files) ∧
      (∀ other, terms.Perm other →
        (evaluate ctx terms files).files = (evaluate ctx other files).files) ∧
      (∀ more, (evaluate ctx (terms ++ more) files).files =
        (evaluate ctx more (evaluate ctx terms files).files).files) ∧
      ∀ last, (evaluate ctx (terms ++ [last]) files).label = last.label ctx.today := by
  refine ⟨files_evaluate ctx terms files, ?_, ?_, ?_, ?_⟩
  · intro more
    rw [files_evaluate_append, files_evaluate ctx more]
    exact List.filter_sublist
  · exact fun other h => files_evaluate_perm ctx h files
  · exact fun more => files_evaluate_append ctx terms more files
  · exact fun last => label_evaluate_concat ctx terms last files

/-- A query for notes that are not bookmarked may be asked the other way
around. -/
theorem evaluate_chain_swap :
    let ctx : Context := ⟨DayRange.epoch, .ofText "YYYY", ["b.md"]⟩
    let files : List FileRecord :=
      [.ofParts "b.md" .unknown none, .ofParts "c.png" .unknown none, .ofParts "a.md" .unknown none]
    let notes : Term := .type (.category .notes)
    let unmarked : Term := .exclude (.type .bookmarks)
    [notes, unmarked].Perm [unmarked, notes] ∧
      (evaluate ctx [notes, unmarked] files).files =
        (evaluate ctx [unmarked, notes] files).files := by
  intro ctx files notes unmarked
  have hperm : [notes, unmarked].Perm [unmarked, notes] := List.Perm.swap _ _ _
  exact ⟨hperm, (evaluate_chain ctx [notes, unmarked] files).2.2.1 _ hperm⟩

end NoteVault.Query
