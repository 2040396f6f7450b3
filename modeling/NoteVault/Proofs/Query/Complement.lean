import NoteVault.Proofs.Places
import NoteVault.Proofs.Query.Chain
import NoteVault.Proofs.Query.Token

/-!
# Exclusion is the complement

An exclusion and the term it turns around share out the files between them, as
long as there is a test to turn around.  There is none exactly when the term asks,
behind all its exclamation marks, for a pattern that cannot be read: then the
term and its exclusion both pass every file.  An exclamation mark in front of
the text of a term writes its exclusion.
-/

namespace NoteVault.Query

open Calendar Text Pattern

/-! ## Terms that can be read -/

/-- The pattern that a term asks for, however often it is excluded. -/
def Term.pattern? : Term → Option String
  | .text source => some source
  | .exclude term => term.pattern?
  | _ => none

/-- The pattern of a term can be read, if it has one. -/
def Term.Readable (term : Term) : Prop :=
  ∀ source, term.pattern? = some source → (Regex.parse? source).isSome = true

theorem readable_of_pattern?_eq_none {term : Term} (h : term.pattern? = none) :
    term.Readable := by
  intro source hsource
  rw [h] at hsource
  cases hsource

/-- A term has a test exactly when it can be read. -/
theorem isSome_ofTerm?_iff (ctx : Context) (term : Term) :
    (Matcher.ofTerm? ctx term).isSome = true ↔ term.Readable := by
  induction term with
  | all => exact ⟨fun _ => readable_of_pattern?_eq_none rfl, fun _ => rfl⟩
  | window w => exact ⟨fun _ => readable_of_pattern?_eq_none rfl, fun _ => rfl⟩
  | range raw => exact ⟨fun _ => readable_of_pattern?_eq_none rfl, fun _ => rfl⟩
  | type filter => exact ⟨fun _ => readable_of_pattern?_eq_none rfl, fun _ => rfl⟩
  | unknown keyword => exact ⟨fun _ => readable_of_pattern?_eq_none rfl, fun _ => rfl⟩
  | text source =>
    have htest : (Matcher.ofTerm? ctx (.text source)).isSome = (Regex.parse? source).isSome :=
      Option.isSome_map
    rw [htest]
    exact ⟨fun h _ he => Option.some.inj he ▸ h, fun h => h source rfl⟩
  | exclude term ih =>
    have htest : (Matcher.ofTerm? ctx (.exclude term)).isSome =
        (Matcher.ofTerm? ctx term).isSome := Option.isSome_map
    rw [htest]
    exact ih

/-- What can be read is turned around. -/
theorem admits_exclude {term : Term} (h : term.Readable) (ctx : Context) (file : FileRecord) :
    (Term.exclude term).admits ctx file = !term.admits ctx file := by
  obtain ⟨matcher, hm⟩ := Option.isSome_iff_exists.1 ((isSome_ofTerm?_iff ctx term).2 h)
  have hexclude : Matcher.ofTerm? ctx (.exclude term) = some (.not matcher) :=
    congrArg (Option.map Matcher.not) hm
  rw [Term.admits, Term.admits, hm, hexclude]
  rfl

/-- What cannot be read lets every file pass. -/
theorem admits_of_not_readable {term : Term} (h : ¬ term.Readable) (ctx : Context)
    (file : FileRecord) : term.admits ctx file = true := by
  rw [← isSome_ofTerm?_iff ctx, Bool.not_eq_true, Option.isSome_eq_false_iff,
    Option.isNone_iff_eq_none] at h
  rw [Term.admits, h]
  rfl

theorem files_evaluate_singleton (ctx : Context) (term : Term) (files : List FileRecord) :
    (evaluate ctx [term] files).files = files.filter (term.admits ctx) :=
  files_narrow ctx ⟨files, ""⟩ term

/-! ## Sharing out -/

/-- Two lists share out the places of a list: each place goes to exactly one of
them, and both keep the order of the list. -/
def SharesOut {α : Type} (all left right : List α) : Prop :=
  ∃ toLeft : Nat → Bool,
    left = (all.zipIdx.filter fun entry => toLeft entry.2).map Prod.fst ∧
      right = (all.zipIdx.filter fun entry => !toLeft entry.2).map Prod.fst

theorem sharesOut_filter {α : Type} (p : α → Bool) (all : List α) :
    SharesOut all (all.filter p) (all.filter fun a => !p a) := by
  have hleft : ∀ (i : Nat) (a : α), all[i]? = some a → all[i]?.any p = p a := by
    intro i a h
    rw [h]
    rfl
  have hright : ∀ (i : Nat) (a : α), all[i]? = some a → (!all[i]?.any p) = !p a := by
    intro i a h
    rw [hleft i a h]
  exact ⟨fun i => all[i]?.any p, (map_fst_filter_zipIdx hleft).symm,
    (map_fst_filter_zipIdx hright).symm⟩

/-- **Exclusion is the complement**, from the text of a query to its results.  An
exclamation mark in front of a single term writes the exclusion of that term.  A
term and its exclusion share out the files, unless the pattern of the term cannot
be read: then both leave the files as they are. -/
theorem exclude_complement :
    (∀ (raw : String) (term : Term), Trimmed raw.toList → raw.toList.head? ≠ some '!' →
        parse raw = [term] → term ≠ .all → parse ("!" ++ raw) = [.exclude term]) ∧
      ∀ (ctx : Context) (term : Term) (files : List FileRecord),
        (term.Readable →
          SharesOut files (evaluate ctx [term] files).files
            (evaluate ctx [.exclude term] files).files) ∧
        (¬ term.Readable →
          (evaluate ctx [term] files).files = files ∧
            (evaluate ctx [.exclude term] files).files = files) := by
  refine ⟨fun raw term htrim hhead h hterm => parse_bang htrim hhead h hterm, ?_⟩
  intro ctx term files
  rw [files_evaluate_singleton, files_evaluate_singleton]
  constructor
  · intro h
    rw [show (Term.exclude term).admits ctx = fun file => !term.admits ctx file from
      funext (admits_exclude h ctx)]
    exact sharesOut_filter _ files
  · intro h
    have hexclude : ¬ (Term.exclude term).Readable := h
    exact ⟨List.filter_eq_self.2 fun file _ => admits_of_not_readable h ctx file,
      List.filter_eq_self.2 fun file _ => admits_of_not_readable hexclude ctx file⟩

/-- A phrase in quotes is turned around as a whole; a pattern that cannot be read
leaves a note, and so does its exclusion. -/
theorem exclude_complement_phrase :
    let ctx : Context := ⟨DayRange.epoch, .ofText "YYYY", []⟩
    let note : FileRecord := .ofParts "a b.md" .unknown none
    (Trimmed "\"a b\"".toList ∧ parse "\"a b\"" = [.text "a b"] ∧
        parse "!\"a b\"" = [.exclude (.text "a b")]) ∧
      ((Term.text "a b").Readable ∧
        SharesOut [note] (evaluate ctx [.text "a b"] [note]).files
          (evaluate ctx [.exclude (.text "a b")] [note]).files) ∧
      ¬ (Term.text "(a").Readable ∧ (evaluate ctx [.exclude (.text "(a")] [note]).files = [note] := by
  intro ctx note
  have htrim : Trimmed "\"a b\"".toList := by
    constructor
    · intro c hc
      obtain rfl := Option.some.inj hc
      decide
    · intro c hc
      obtain rfl := Option.some.inj hc
      decide
  have hparse : parse "\"a b\"" = [.text "a b"] := by decide +kernel
  have hread : (Term.text "a b").Readable := by
    rintro source ⟨⟩
    decide +kernel
  have hunread : ¬ (Term.text "(a").Readable := by
    intro h
    exact absurd (h "(a" rfl) (by decide +kernel)
  obtain ⟨htext, hfiles⟩ := exclude_complement
  have hbang : parse ("!" ++ "\"a b\"") = [.exclude (.text "a b")] :=
    htext _ _ htrim (by decide) hparse nofun
  have hjoin : "!" ++ "\"a b\"" = "!\"a b\"" := by decide
  rw [hjoin] at hbang
  exact ⟨⟨htrim, hparse, hbang⟩, ⟨hread, (hfiles ctx _ [note]).1 hread⟩, hunread,
    ((hfiles ctx _ [note]).2 hunread).2⟩

end NoteVault.Query
