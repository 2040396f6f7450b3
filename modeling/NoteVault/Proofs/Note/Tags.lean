import NoteVault.Note.Tags
import NoteVault.Proofs.Text.Trim

/-!
# The tags of a line

A number sign may begin a tag unless the character before it takes its meaning away, and
the tag reaches as far as there are tag characters, but for slashes at its end.  The
tags that a line is meant to have are those whose name is then neither empty nor a
number (`meantTags`).

The scan of a line looks at a run of tag characters before it drops the slashes, not
after (`lineTags_eq`).  So it finds all the tags that are meant, in order, and beside
them a number sign alone, or with a number, where a run is a number with slashes behind
it (`lineTags_eq_meantTags_iff`, `slash_makes_tag`).
-/

namespace NoteVault.Note

open Text

variable {line run name tag : List Char}

/-! ## Signs and runs -/

/-- Whether a number sign that may begin a tag stands at a place. -/
def isSign (cs : List Char) (i : Nat) : Bool :=
  cs[i]? == some '#' && !(cs.take i).getLast?.any hidesTag

/-- The places of the number signs that may begin a tag. -/
def signs (line : List Char) : List Nat := (List.range line.length).filter (isSign line)

/-- The tag characters behind a place, as many as there are. -/
def runBehind (line : List Char) (i : Nat) : List Char := (line.drop (i + 1)).takeWhile isTagChar

/-- The runs of tag characters behind the number signs that may begin a tag. -/
def runs (line : List Char) : List (List Char) := (signs line).map (runBehind line)

/-- A run without the slashes at its end. -/
def nameOfRun (run : List Char) : List Char := dropEndWhile (· == '/') run

/-- Whether a text is neither empty nor a number. -/
def isNamed (name : List Char) : Bool := !name.isEmpty && !name.all Char.isDigit

/-- The tags that a line is meant to have. -/
def meantTags (line : List Char) : List (List Char) :=
  (((runs line).map nameOfRun).filter isNamed).map ('#' :: ·)

theorem tagOfRun?_eq (run : List Char) :
    tagOfRun? run = if isNamed run then some ('#' :: nameOfRun run) else none := by
  rw [tagOfRun?, isNamed, nameOfRun]
  cases run.isEmpty <;> cases run.all Char.isDigit <;> rfl

/-! ## The scan -/

section Scan

variable {cs : List Char} {i : Nat}

theorem isSign_iff (hi : i < cs.length) :
    isSign cs i = true ↔ cs[i] = '#' ∧ !(cs.take i).getLast?.any hidesTag := by
  rw [isSign, Bool.and_eq_true, beq_iff_eq, List.getElem?_eq_getElem hi, Option.some.injEq]

theorem tagsFrom_of_skip (hi : i < cs.length) (skip : Nat) :
    tagsFrom (skip + 1) (cs.take i).getLast? (cs.drop i) =
      tagsFrom skip (cs.take (i + 1)).getLast? (cs.drop (i + 1)) := by
  rw [List.drop_eq_getElem_cons hi, tagsFrom, List.take_succ_eq_append_getElem hi,
    List.getLast?_concat]

theorem tagsFrom_of_sign (hi : i < cs.length) (h : isSign cs i = true) :
    tagsFrom 0 (cs.take i).getLast? (cs.drop i) =
      (tagOfRun? (runBehind cs i)).toList ++
        tagsFrom (runBehind cs i).length (cs.take (i + 1)).getLast? (cs.drop (i + 1)) := by
  rw [List.drop_eq_getElem_cons hi, tagsFrom, if_pos ((isSign_iff hi).1 h),
    List.take_succ_eq_append_getElem hi, List.getLast?_concat]
  rfl

theorem tagsFrom_of_no_sign (hi : i < cs.length) (h : ¬ isSign cs i = true) :
    tagsFrom 0 (cs.take i).getLast? (cs.drop i) =
      tagsFrom 0 (cs.take (i + 1)).getLast? (cs.drop (i + 1)) := by
  rw [List.drop_eq_getElem_cons hi, tagsFrom, if_neg (mt (isSign_iff hi).2 h),
    List.take_succ_eq_append_getElem hi, List.getLast?_concat]

theorem isTagChar_of_mem_runBehind (cs : List Char) (i : Nat) :
    ∀ c ∈ runBehind cs i, isTagChar c = true :=
  List.all_eq_true.1 List.all_takeWhile

theorem take_length_runBehind (cs : List Char) (i : Nat) :
    (cs.drop (i + 1)).take (runBehind cs i).length = runBehind cs i :=
  (List.prefix_iff_eq_take.1 (List.takeWhile_prefix _)).symm

/-- The scan from a place on finds the tags at the signs from this place on.  What it
skips are characters of a run, none of which is a number sign. -/
theorem tagsFrom_drop {skip n : Nat} (hn : i + n = cs.length)
    (hskip : ∀ c ∈ (cs.drop i).take skip, isTagChar c = true) :
    tagsFrom skip (cs.take i).getLast? (cs.drop i) =
      ((List.range' i n).filter (isSign cs)).filterMap fun j => tagOfRun? (runBehind cs j) := by
  induction n generalizing skip i with
  | zero =>
    rw [List.drop_eq_nil_of_le (by omega), tagsFrom]
    rfl
  | succ n ih =>
    have hi : i < cs.length := by omega
    have hnext : i + 1 + n = cs.length := by omega
    rw [List.range'_succ, List.filter_cons]
    cases skip with
    | succ skip =>
      rw [List.drop_eq_getElem_cons hi, List.take_succ_cons, List.forall_mem_cons] at hskip
      have hno : ¬ isSign cs i = true := fun hsign => by
        rw [((isSign_iff hi).1 hsign).1] at hskip
        exact absurd hskip.1 (by decide)
      rw [tagsFrom_of_skip hi, ih hnext hskip.2, if_neg hno]
    | zero =>
      by_cases h : isSign cs i = true
      · have hrun : ∀ c ∈ (cs.drop (i + 1)).take (runBehind cs i).length, isTagChar c = true := by
          rw [take_length_runBehind]
          exact isTagChar_of_mem_runBehind cs i
        rw [tagsFrom_of_sign hi h, ih hnext hrun, if_pos h, List.filterMap_cons]
        cases tagOfRun? (runBehind cs i) <;> rfl
      · rw [tagsFrom_of_no_sign hi h, ih hnext (by simp), if_neg h]

end Scan

/-- **The tags of a line** are made of the runs behind its signs that are neither empty
nor a number. -/
theorem lineTags_eq (line : List Char) :
    lineTags line = ((runs line).filter isNamed).map fun run => '#' :: nameOfRun run := by
  have hscan : lineTags line = (signs line).filterMap fun i => tagOfRun? (runBehind line i) := by
    rw [signs, List.range_eq_range']
    exact tagsFrom_drop (Nat.zero_add _) (by simp)
  rw [hscan, runs, List.filter_map, List.map_map, ← List.filterMap_eq_map, List.filterMap_filter]
  refine List.filterMap_congr fun i _ => ?_
  exact tagOfRun?_eq (runBehind line i)

/-! ## Names -/

theorem isNamed_iff : isNamed name = true ↔ ∃ c ∈ name, c.isDigit = false := by
  rw [isNamed, Bool.and_eq_true, Bool.not_eq_true', Bool.not_eq_true', List.all_eq_false,
    List.isEmpty_eq_false_iff]
  simp only [Bool.not_eq_true]
  exact ⟨And.right, fun ⟨c, hc, hdigit⟩ => ⟨List.ne_nil_of_mem hc, c, hc, hdigit⟩⟩

/-- A run is its name and slashes. -/
theorem exists_slashes (run : List Char) :
    ∃ k, run = nameOfRun run ++ List.replicate k '/' := by
  obtain ⟨tail, hrun, htail⟩ := exists_dropEndWhile (· == '/') run
  refine ⟨tail.length, ?_⟩
  rwa [← List.eq_replicate_length.2 fun c hc => eq_of_beq (htail c hc)]

theorem nameOfRun_subset (run : List Char) : nameOfRun run ⊆ run := dropEndWhile_subset _ run

theorem nameOfRun_append_slashes (run : List Char) (k : Nat) :
    nameOfRun (run ++ List.replicate k '/') = nameOfRun run :=
  dropEndWhile_append (fun _ hc => beq_iff_eq.2 (List.eq_of_mem_replicate hc)) run

theorem getLast?_nameOfRun (run : List Char) : (nameOfRun run).getLast? ≠ some '/' :=
  fun hlast => absurd (getLast?_dropEndWhile (· == '/') run '/' hlast) (by decide)

theorem isNamed_of_isNamed_nameOfRun (h : isNamed (nameOfRun run) = true) : isNamed run = true := by
  obtain ⟨c, hc, hdigit⟩ := isNamed_iff.1 h
  exact isNamed_iff.2 ⟨c, nameOfRun_subset run hc, hdigit⟩

/-- A run of digits, if there are any, and at least one slash behind them. -/
def NumberBeforeSlash (run : List Char) : Prop :=
  ∃ digits k, run = digits ++ List.replicate (k + 1) '/' ∧ ∀ c ∈ digits, c.isDigit = true

/-- **The runs that lose their name with their slashes** are numbers, or nothing, before
a slash. -/
theorem numberBeforeSlash_iff :
    NumberBeforeSlash run ↔ isNamed run = true ∧ isNamed (nameOfRun run) = false := by
  have hnumber : isNamed (nameOfRun run) = false ↔ ∀ c ∈ nameOfRun run, c.isDigit = true := by
    rw [← Bool.not_eq_true, isNamed_iff]
    push Not
    simp only [ne_eq, Bool.not_eq_false]
  rw [hnumber]
  constructor
  · rintro ⟨digits, k, rfl, hdigits⟩
    have hslash : '/' ∈ digits ++ List.replicate (k + 1) '/' :=
      List.mem_append_right _ (List.mem_replicate.2 ⟨k.succ_ne_zero, rfl⟩)
    refine ⟨isNamed_iff.2 ⟨'/', hslash, rfl⟩, fun c hc => ?_⟩
    rw [nameOfRun_append_slashes] at hc
    exact hdigits c (nameOfRun_subset digits hc)
  · rintro ⟨hnamed, hdigits⟩
    obtain ⟨k, hk⟩ := exists_slashes run
    cases k with
    | zero =>
      rw [List.replicate_zero, List.append_nil] at hk
      obtain ⟨c, hc, hdigit⟩ := isNamed_iff.1 hnamed
      rw [hk] at hc
      rw [hdigits c hc] at hdigit
      cases hdigit
    | succ k => exact ⟨nameOfRun run, k, hk, hdigits⟩

/-! ## What is meant -/

/-- What stands behind the number sign of a tag, as it should be. -/
structure IsTagName (name : List Char) : Prop where
  ne_nil : name ≠ []
  tag_chars : ∀ c ∈ name, isTagChar c = true
  no_slash_at_end : name.getLast? ≠ some '/'
  no_number : ∃ c ∈ name, c.isDigit = false

theorem filter_lineTags (line : List Char) :
    (lineTags line).filter (fun tag => isNamed tag.tail) = meantTags line := by
  rw [lineTags_eq, meantTags, List.filter_map, List.filter_filter, List.filter_map, List.map_map]
  refine congrArg (List.map _) (List.filter_congr fun run _ => ?_)
  show (isNamed (nameOfRun run) && isNamed run) = isNamed (nameOfRun run)
  rw [Bool.and_eq_left_iff_imp]
  exact isNamed_of_isNamed_nameOfRun

theorem exists_name_of_mem_lineTags (h : tag ∈ lineTags line) :
    ∃ name, tag = '#' :: name ∧ (∀ c ∈ name, isTagChar c = true) ∧ name.getLast? ≠ some '/' := by
  rw [lineTags_eq] at h
  obtain ⟨run, hrun, rfl⟩ := List.mem_map.1 h
  obtain ⟨i, -, rfl⟩ := List.mem_map.1 (List.mem_of_mem_filter hrun)
  have hchars := isTagChar_of_mem_runBehind line i
  exact ⟨nameOfRun _, rfl, fun c hc => hchars c (nameOfRun_subset _ hc), getLast?_nameOfRun _⟩

/-- All tags of a line have names exactly if no run is a number, or nothing, before a
slash. -/
theorem forall_isNamed_iff :
    (∀ tag ∈ lineTags line, isNamed tag.tail = true) ↔
      ∀ run ∈ runs line, ¬ NumberBeforeSlash run := by
  rw [lineTags_eq, List.forall_mem_map]
  simp only [List.mem_filter, List.tail_cons, numberBeforeSlash_iff, not_and, and_imp,
    Bool.not_eq_false]

/-- **The tags of a line** stand behind its signs, one for each run that is neither empty
nor a number, each made of tag characters and without a slash at the end.  Those that
have a name are the tags that are meant, in order; and all of them are as they should be
exactly if no run behind a sign is a number, or nothing, before a slash. -/
theorem lineTags_eq_meantTags_iff (line : List Char) :
    lineTags line = ((runs line).filter isNamed).map (fun run => '#' :: nameOfRun run) ∧
    (∀ tag ∈ lineTags line, ∃ name, tag = '#' :: name ∧
      (∀ c ∈ name, isTagChar c = true) ∧ name.getLast? ≠ some '/') ∧
    (lineTags line).filter (fun tag => isNamed tag.tail) = meantTags line ∧
    ((lineTags line = meantTags line ∧
        ∀ tag ∈ lineTags line, ∃ name, tag = '#' :: name ∧ IsTagName name) ↔
      ∀ run ∈ runs line, ¬ NumberBeforeSlash run) := by
  refine ⟨lineTags_eq line, fun tag => exists_name_of_mem_lineTags, filter_lineTags line, ?_⟩
  rw [← forall_isNamed_iff]
  constructor
  · rintro ⟨-, hnames⟩ tag htag
    obtain ⟨name, rfl, hname⟩ := hnames tag htag
    exact isNamed_iff.2 hname.no_number
  · intro hnamed
    refine ⟨?_, fun tag htag => ?_⟩
    · rw [← filter_lineTags, List.filter_eq_self.2 hnamed]
    · obtain ⟨name, rfl, hchars, hlast⟩ := exists_name_of_mem_lineTags htag
      obtain ⟨c, hc, hdigit⟩ := isNamed_iff.1 (hnamed _ htag)
      exact ⟨name, rfl, List.ne_nil_of_mem hc, hchars, hlast, c, hc, hdigit⟩

/-- **A slash makes a tag** of a number sign alone, and of a number. -/
theorem slash_makes_tag :
    lineTags "#/ #1/".toList = ["#".toList, "#1".toList] ∧ meantTags "#/ #1/".toList = [] ∧
      ¬ ∀ tag ∈ lineTags "#/ #1/".toList, ∃ name, tag = '#' :: name ∧ IsTagName name := by
  have htags : lineTags "#/ #1/".toList = ["#".toList, "#1".toList] := by decide +kernel
  refine ⟨htags, by decide +kernel, fun hnames => ?_⟩
  rw [htags] at hnames
  obtain ⟨name, hname, hshape⟩ := hnames "#".toList List.mem_cons_self
  exact hshape.ne_nil (List.cons.inj hname).2.symm

end NoteVault.Note
