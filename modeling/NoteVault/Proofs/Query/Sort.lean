import NoteVault.Proofs.Query.SortHistory

/-!
# Sorting by a column is stable

A column compares what it reads off two files, three columns by collation and four by
numbers (`SortColumn.keyLE`).  Sorting puts the files in this order, or in the opposite
one, and leaves files with the same key as they were, whichever way it sorts
(`SortedStably`).  There is only one such arrangement of the files
(`sortedStably_iff`), so it does not matter how often a column is sorted and in which
direction it was sorted before.

A time that is missing is read as the start of 1970: sorting does not tell whether it
has been filled in (`sort_map_withEpoch`).
-/

namespace NoteVault.Query

open Collation StableSort

section Collated

variable [Collator]

/-! ## Keys -/

/-- **Whether the key of a file is not above that of another**: the keys of a column are
texts, which are collated, or numbers. -/
def SortColumn.keyLE (links : LinkGraph) (a b : FileRecord) : SortColumn → Bool
  | .name => (collate a.name b.name).isLE
  | .extension => (collate a.extension b.extension).isLE
  | .path => (collate a.folder b.folder).isLE
  | .size => a.size ≤ b.size
  | .modified => a.modifiedOrEpoch ≤ b.modifiedOrEpoch
  | .backlinks => links.backlinkCount a.path ≤ links.backlinkCount b.path
  | .outgoing => links.outgoingCount a.path ≤ links.outgoingCount b.path

/-- Whether two files have the same key. -/
def SortColumn.sameKey (column : SortColumn) (links : LinkGraph) (a b : FileRecord) : Bool :=
  column.keyLE links a b && column.keyLE links b a

theorem SortColumn.isLE_compare (column : SortColumn) (links : LinkGraph) (a b : FileRecord) :
    (column.compare links a b).isLE = column.keyLE links a b := by
  have hnat : ∀ m n : Nat, (Ord.compare m n).isLE = decide (m ≤ n) := fun m n => by
    rw [Bool.eq_iff_iff, Nat.isLE_compare, decide_eq_true_iff]
  cases column with
  | name => rfl
  | extension => rfl
  | path => rfl
  | size => exact hnat _ _
  | modified =>
    show (Ord.compare a.modifiedOrEpoch b.modifiedOrEpoch).isLE = decide _
    rw [Bool.eq_iff_iff, Int.isLE_compare, decide_eq_true_iff]
  | backlinks => exact hnat _ _
  | outgoing => exact hnat _ _

/-- A column does not tell files with the same key apart. -/
theorem SortColumn.tied_eq_sameKey [Std.TransCmp collate] (column : SortColumn)
    (links : LinkGraph) :
    column.tied links = column.sameKey links := by
  have hcolumn : Std.TransCmp fun a b => column.compare links a b := inferInstance
  funext a b
  rw [tied, ties, sameKey, ← isLE_compare, ← isLE_compare, hcolumn.eq_swap (a := b)]
  cases column.compare links a b <;> rfl

/-- **Whether two files are in order**, in the direction of a sort. -/
def SortState.inOrder (sort : SortState) (links : LinkGraph) (a b : FileRecord) : Bool :=
  match sort.dir with
  | .asc => sort.column.keyLE links a b
  | .desc => sort.column.keyLE links b a

theorem SortState.isLE_compare (sort : SortState) (links : LinkGraph) (a b : FileRecord) :
    (sort.compare links a b).isLE = sort.inOrder links a b := by
  obtain ⟨column, dir⟩ := sort
  cases dir with
  | asc => exact column.isLE_compare links a b
  | desc => exact column.isLE_compare links b a

/-! ## Stable sorting -/

/-- **Some files, sorted**: the same files in order, and those with one key as they were. -/
structure SortedStably (sort : SortState) (links : LinkGraph) (files sorted : List FileRecord) :
    Prop where
  perm : sorted.Perm files
  ordered : sorted.Pairwise fun a b => sort.inOrder links a b = true
  ties_kept : ∀ file, sorted.filter (sort.column.sameKey links file) =
    files.filter (sort.column.sameKey links file)

theorem sortedStably_sort [Std.TransCmp collate] (sort : SortState) (links : LinkGraph)
    (files : List FileRecord) :
    SortedStably sort links files (sort.sort links files) where
  perm := List.mergeSort_perm files _
  ordered := by
    refine (pairwise_mergeSort (sort.compare links) files).imp fun {a b} h => ?_
    rw [← sort.isLE_compare]
    exact h
  ties_kept file := by
    rw [← SortColumn.tied_eq_sameKey]
    exact SortState.filter_sort_of_tied sort links files file

/-- **There is one way to sort files.** -/
theorem sortedStably_iff [Std.TransCmp collate] {sort : SortState} {links : LinkGraph}
    {files sorted : List FileRecord} :
    SortedStably sort links files sorted ↔ sorted = sort.sort links files := by
  constructor
  · intro h
    have hsort := sortedStably_sort sort links files
    have hordered : ∀ {files : List FileRecord},
        (files.Pairwise fun a b => sort.inOrder links a b = true) →
        files.Pairwise fun a b => (sort.compare links a b).isLE = true :=
      fun h => h.imp fun {a b} hab => (sort.isLE_compare links a b).trans hab
    -- Both are in order and keep the files of each key, and that determines the list.
    refine eq_of_ties (h.perm.trans hsort.perm.symm) (hordered h.ordered)
      (hordered hsort.ordered) fun file => ?_
    have hties : ties (sort.compare links) file = sort.column.sameKey links file := by
      rw [← SortColumn.tied_eq_sameKey]
      funext other
      rw [Bool.eq_iff_iff, SortColumn.tied, ties, ties, beq_iff_eq, beq_iff_eq]
      exact sort.compare_eq_eq_iff links file other
    rw [hties, h.ties_kept, hsort.ties_kept]
  · rintro rfl
    exact sortedStably_sort sort links files

/-! ## Missing times -/

/-- A file with a time: the start of 1970 where it has none. -/
def withEpoch (file : FileRecord) : FileRecord :=
  { file with modified := some (file.modified.getD 0) }

omit [Collator] in
theorem modifiedOrEpoch_withEpoch (file : FileRecord) :
    (withEpoch file).modifiedOrEpoch = file.modifiedOrEpoch := by
  obtain ⟨path, name, base, ext, size, created, modified⟩ := file
  cases modified <;> rfl

/-- **A missing time counts as the start of 1970**, whatever the column. -/
theorem sort_map_withEpoch (sort : SortState) (links : LinkGraph) (files : List FileRecord) :
    sort.sort links (files.map withEpoch) = (sort.sort links files).map withEpoch := by
  have hcolumn : ∀ a b, sort.column.compare links (withEpoch a) (withEpoch b) =
      sort.column.compare links a b := by
    intro a b
    cases sort.column with
    | modified =>
      show Ord.compare (withEpoch a).modifiedOrEpoch (withEpoch b).modifiedOrEpoch = _
      rw [modifiedOrEpoch_withEpoch, modifiedOrEpoch_withEpoch]
      rfl
    | _ => rfl
  refine (List.map_mergeSort fun a _ b _ => ?_).symm
  obtain ⟨column, dir⟩ := sort
  cases dir with
  | asc => exact congrArg Ordering.isLE (hcolumn a b).symm
  | desc => exact congrArg Ordering.isLE (hcolumn b a).symm

/-- **Sorting is stable** for every column and direction.  What it gives is the one
arrangement of the files in the order of their keys that keeps files with the same key as
they were.  Of several sorts by one column the last direction counts alone, and a missing
time counts as the start of 1970. -/
theorem sort_stable [Std.TransCmp collate] (column : SortColumn) (links : LinkGraph)
    (files : List FileRecord) :
    (∀ dir sorted, SortedStably ⟨column, dir⟩ links files sorted ↔
        sorted = SortState.sort ⟨column, dir⟩ links files) ∧
      (∀ earlier dir, SortState.sort ⟨column, dir⟩ links
          (SortState.sort ⟨column, earlier⟩ links files) =
        SortState.sort ⟨column, dir⟩ links files) ∧
      ∀ dir, SortState.sort ⟨column, dir⟩ links (files.map withEpoch) =
        (SortState.sort ⟨column, dir⟩ links files).map withEpoch := by
  refine ⟨fun _ _ => sortedStably_iff, fun earlier dir => ?_, fun _ => sort_map_withEpoch _ _ _⟩
  have hcolumn : (SortState.mk column earlier).column = (SortState.mk column dir).column := rfl
  exact SortState.sort_sort_of_column_eq hcolumn links files

end Collated

attribute [local instance] inLowercase

/-- Two notes whose names differ in case only; the second one is younger. -/
def sameNames : List FileRecord :=
  [.ofParts "x/Plan.md" ⟨1, none, some 5⟩ none, .ofParts "plan.md" ⟨1, none, some 6⟩ none]

/-- Sorting by name leaves these notes as they are, in both directions and also one after the
other. -/
theorem sort_stable_same_names :
    Std.TransCmp collate ∧
      SortState.sort ⟨.name, .asc⟩ .empty sameNames = sameNames ∧
      SortState.sort ⟨.name, .desc⟩ .empty sameNames = sameNames ∧
      SortState.sort ⟨.name, .desc⟩ .empty (SortState.sort ⟨.name, .asc⟩ .empty sameNames) =
        sameNames := by
  have hstable : ∀ dir, SortedStably ⟨.name, dir⟩ .empty sameNames sameNames := fun dir =>
    ⟨List.Perm.refl _, by cases dir <;> decide +kernel, fun _ => rfl⟩
  obtain ⟨hunique, hlast, -⟩ := sort_stable .name .empty sameNames
  have hdesc := ((hunique .desc sameNames).1 (hstable .desc)).symm
  exact ⟨inferInstance, ((hunique .asc sameNames).1 (hstable .asc)).symm, hdesc,
    (hlast .asc .desc).trans hdesc⟩

end NoteVault.Query
