import NoteVault.Proofs.Collation.Preorder
import NoteVault.Proofs.Places
import NoteVault.Proofs.Query.Chain
import NoteVault.Proofs.Query.Session

/-!
# The order after sorting again and again

A session sorts its results in place, and each sort is stable, so it refines the
order that the sorts before it have left.  Between two results the latest sort
decides that tells them apart; where none does, they stand as in the files that
the search went through (`Precedes`).  Files can be equal, so the order is stated
for their places there: `Arranged` says that a list holds the files at some places
in this order, which determines it (`Arranged.unique`).

Sorting by one column several times comes to sorting once by the last choice of
its direction, for the two directions have the same ties
(`sort_sort_of_column_eq`).
-/

namespace NoteVault.Query

open Collation StableSort

/-- The files that pass the tests of all terms, with their places. -/
def keptPlaces (ctx : Context) (terms : List Term) (files : List FileRecord) :
    List (FileRecord × Nat) :=
  files.zipIdx.filter fun entry => terms.all fun term => term.admits ctx entry.1

theorem map_fst_keptPlaces (ctx : Context) (terms : List Term) (files : List FileRecord) :
    (keptPlaces ctx terms files).map Prod.fst = (evaluate ctx terms files).files := by
  have hfilter := List.filter_map (f := Prod.fst (β := Nat))
    (p := fun file => terms.all fun term => term.admits ctx file) (l := files.zipIdx)
  rw [List.zipIdx_map_fst] at hfilter
  rw [files_evaluate, hfilter]
  rfl

/-- The column of a sort is the one chosen last. -/
theorem SortState.column_toggle (sort : SortState) (column : SortColumn) :
    (sort.toggle column).column = column := by
  unfold toggle
  split <;> rfl

section Collated

variable [Collator] [Std.TransCmp collate]

/-! ## Columns compare by total preorders -/

instance (links : LinkGraph) (column : SortColumn) :
    Std.TransCmp fun a b => column.compare links a b := by
  cases column with
  | name => exact transCmp_comap collate FileRecord.name
  | extension => exact transCmp_comap collate FileRecord.extension
  | path => exact transCmp_comap collate FileRecord.folder
  | size => exact transCmp_comap (compare (α := Nat)) FileRecord.size
  | modified => exact transCmp_comap (compare (α := Int)) FileRecord.modifiedOrEpoch
  | backlinks =>
    exact transCmp_comap (compare (α := Nat)) fun file : FileRecord =>
      links.backlinkCount file.path
  | outgoing =>
    exact transCmp_comap (compare (α := Nat)) fun file : FileRecord =>
      links.outgoingCount file.path

/-- Whether a column does not tell two files apart. -/
def SortColumn.tied (column : SortColumn) (links : LinkGraph) : FileRecord → FileRecord → Bool :=
  ties fun a b => column.compare links a b

/-- What ties with one file ties with each other. -/
theorem SortColumn.compare_eq_of_tied {column : SortColumn} {links : LinkGraph}
    {file a b : FileRecord} (ha : column.tied links file a = true)
    (hb : column.tied links file b = true) : column.compare links a b = .eq :=
  @eq_of_ties_left _ (fun a b => column.compare links a b) _ file a b ha hb

namespace SortState

instance (sort : SortState) (links : LinkGraph) : Std.TransCmp (sort.compare links) := by
  have hcolumn : Std.TransCmp fun a b => sort.column.compare links a b := inferInstance
  obtain ⟨column, dir⟩ := sort
  cases dir with
  | asc => exact hcolumn
  | desc => exact { eq_swap := hcolumn.eq_swap, isLE_trans := fun h h' => hcolumn.isLE_trans h' h }

/-- Both directions of a column have the same ties. -/
theorem compare_eq_eq_iff (sort : SortState) (links : LinkGraph) (a b : FileRecord) :
    sort.compare links a b = .eq ↔ sort.column.compare links a b = .eq := by
  have hcolumn : Std.TransCmp fun a b => sort.column.compare links a b := inferInstance
  obtain ⟨column, dir⟩ := sort
  cases dir with
  | asc => exact Iff.rfl
  | desc =>
    show column.compare links b a = .eq ↔ column.compare links a b = .eq
    rw [hcolumn.eq_swap, Ordering.swap_eq_eq]

/-- Ties keep their order, whichever way their column is sorted. -/
theorem filter_sort_of_tied (sort : SortState) (links : LinkGraph) (files : List FileRecord)
    (file : FileRecord) :
    (sort.sort links files).filter (sort.column.tied links file) =
      files.filter (sort.column.tied links file) :=
  filter_mergeSort_of_ties
    (fun a b ha hb => (compare_eq_eq_iff sort links a b).2 (SortColumn.compare_eq_of_tied ha hb))
    files

/-- Of two sorts by one column only the later one counts. -/
theorem sort_sort_of_column_eq {earlier sort : SortState} (h : earlier.column = sort.column)
    (links : LinkGraph) (files : List FileRecord) :
    sort.sort links (earlier.sort links files) = sort.sort links files := by
  refine mergeSort_mergeSort_of_ties (fun a b hab => ?_) files
  rw [compare_eq_eq_iff, h]
  exact (compare_eq_eq_iff sort links a b).1 hab

end SortState

/-! ## The order that several sorts leave -/

/-- **Which of two entries comes first** after some sorts, the latest of which is
the first in the list: an entry is a file with its place before all sorts.  The
latest sort decides that tells the files apart, and their places decide where none
does. -/
def Precedes (links : LinkGraph) : List SortState → FileRecord × Nat → FileRecord × Nat → Prop
  | [], a, b => a.2 < b.2
  | latest :: earlier, a, b =>
    latest.compare links a.1 b.1 = .lt ∨
      latest.compare links a.1 b.1 = .eq ∧ Precedes links earlier a b

theorem Precedes.asymm {links : LinkGraph} {sorts : List SortState} {a b : FileRecord × Nat}
    (hab : Precedes links sorts a b) : ¬Precedes links sorts b a := by
  -- On the sorts, the latest first: where it ties, the earlier ones decide both ways.
  induction sorts with
  | nil => exact Nat.lt_asymm hab
  | cons latest earlier ih =>
    have hswap : latest.compare links b.1 a.1 = (latest.compare links a.1 b.1).swap :=
      Std.OrientedCmp.eq_swap
    intro hba
    rcases hab with hlt | ⟨heq, hab⟩
    · rcases hba with h | ⟨h, -⟩ <;> rw [hswap, hlt] at h <;> cases h
    · rcases hba with h | ⟨-, hba⟩
      · rw [hswap, heq] at h
        cases h
      · exact ih hab hba

/-- **A list holds the files of some entries in the order that some sorts leave.** -/
def Arranged (links : LinkGraph) (sorts : List SortState) (entries : List (FileRecord × Nat))
    (files : List FileRecord) : Prop :=
  ∃ placed : List (FileRecord × Nat), placed.Perm entries ∧ placed.map Prod.fst = files ∧
    placed.Pairwise (Precedes links sorts)

namespace Arranged

variable {links : LinkGraph} {sorts : List SortState} {entries : List (FileRecord × Nat)}
  {files : List FileRecord}

/-- The order leaves no choice. -/
theorem unique {other : List FileRecord} (h : Arranged links sorts entries files)
    (hother : Arranged links sorts entries other) : other = files := by
  obtain ⟨placed, hperm, rfl, hplaced⟩ := h
  obtain ⟨replaced, hreperm, rfl, hreplaced⟩ := hother
  refine congrArg (List.map Prod.fst) ?_
  refine List.Perm.eq_of_pairwise (fun a b _ _ hab hba => ?_) hreplaced hplaced
    (hreperm.trans hperm.symm)
  exact absurd hba hab.asymm

omit [Std.TransCmp collate] in
/-- Entries in the order of their places are arranged before all sorts. -/
theorem of_places (links : LinkGraph) (h : entries.Pairwise fun a b => a.2 < b.2) :
    Arranged links [] entries (entries.map Prod.fst) :=
  ⟨entries, List.Perm.refl _, rfl, h⟩

/-- One more sort. -/
theorem sort (h : Arranged links sorts entries files) (latest : SortState) :
    Arranged links (latest :: sorts) entries (latest.sort links files) := by
  obtain ⟨placed, hperm, rfl, hplaced⟩ := h
  have : Std.TransCmp fun a b : FileRecord × Nat => latest.compare links a.1 b.1 :=
    transCmp_comap (latest.compare links) Prod.fst
  refine ⟨placed.mergeSort fun a b => (latest.compare links a.1 b.1).isLE,
    (List.mergeSort_perm _ _).trans hperm, ?_, ?_⟩
  · exact List.map_mergeSort fun _ _ _ _ => rfl
  · exact pairwise_mergeSort_then hplaced

end Arranged

namespace Navigator

/-! ## The sorts of a session -/

/-- The sorts that requests make after a first one, in order. -/
def sortsAfter (sort : SortState) : List Request → List SortState
  | [] => []
  | .sortBy column :: requests => sort.toggle column :: sortsAfter (sort.toggle column) requests
  | .search _ :: requests => sortsAfter sort requests
  | .goToPage _ :: requests => sortsAfter sort requests

/-- A search arranges its results by its own sort. -/
theorem arranged_search (inputs : Inputs) (nav : Navigator) (raw : String) :
    Arranged inputs.links [nav.state.sort]
      (keptPlaces inputs.ctx (parse raw) inputs.index.filteredFiles)
      (nav.search raw inputs).outcome.files := by
  have hplaces : (keptPlaces inputs.ctx (parse raw) inputs.index.filteredFiles).Pairwise
      fun a b => a.2 < b.2 := (pairwise_zipIdx _ 0).filter _
  have hfirst := (Arranged.of_places inputs.links hplaces).sort nav.state.sort
  rwa [map_fst_keptPlaces] at hfirst

/-- Every sort of a run without searches refines the order so far. -/
theorem arranged_run {inputs : Inputs} (nav : Navigator) {earlier : List SortState}
    {entries : List (FileRecord × Nat)}
    (h : Arranged inputs.links earlier entries nav.outcome.files) {requests : List Request}
    (hsearch : ∀ raw, .search raw ∉ requests) :
    Arranged inputs.links ((sortsAfter nav.state.sort requests).reverse ++ earlier) entries
      (nav.run inputs requests).outcome.files := by
  -- The sorts made so far go into the hypothesis, so it holds of any before the rest.
  induction requests generalizing nav earlier with
  | nil => exact h
  | cons r requests ih =>
    have hrest : ∀ raw, .search raw ∉ requests :=
      fun raw hmem => hsearch raw (List.mem_cons_of_mem _ hmem)
    cases r with
    | search raw => exact absurd List.mem_cons_self (hsearch raw)
    | goToPage page => exact ih (nav.goToPage page) h hrest
    | sortBy column =>
      have hsorted := ih (nav.sortBy column inputs.links)
        (h.sort (nav.state.sort.toggle column)) hrest
      rw [sortsAfter, List.reverse_cons, List.append_assoc]
      exact hsorted

/-! ## One column -/

/-- Requests that sort by one column only, and do not search. -/
def OnlySortsBy (column : SortColumn) (requests : List Request) : Prop :=
  ∀ r ∈ requests, r = .sortBy column ∨ ∃ page, r = .goToPage page

/-- The results are some files, sorted once by a column. -/
structure SortedOnce (links : LinkGraph) (column : SortColumn) (files : List FileRecord)
    (nav : Navigator) : Prop where
  column : nav.state.sort.column = column
  files : nav.outcome.files = nav.state.sort.sort links files

omit [Std.TransCmp collate] in
theorem sortedOnce_sortBy (links : LinkGraph) (column : SortColumn) (nav : Navigator) :
    SortedOnce links column nav.outcome.files (nav.sortBy column links) :=
  ⟨SortState.column_toggle _ column, rfl⟩

/-- Sorting by the column again makes no difference but for the direction. -/
theorem SortedOnce.sortBy {links : LinkGraph} {column : SortColumn} {files : List FileRecord}
    {nav : Navigator} (h : SortedOnce links column files nav) :
    SortedOnce links column files (nav.sortBy column links) := by
  have hcolumn := SortState.column_toggle nav.state.sort column
  refine ⟨hcolumn, ?_⟩
  show (nav.state.sort.toggle column).sort links nav.outcome.files = _
  rw [h.files]
  exact SortState.sort_sort_of_column_eq (h.column.trans hcolumn.symm) links files

omit [Std.TransCmp collate] in
theorem SortedOnce.goToPage {links : LinkGraph} {column : SortColumn} {files : List FileRecord}
    {nav : Navigator} (h : SortedOnce links column files nav) (page : Nat) :
    SortedOnce links column files (nav.goToPage page) :=
  ⟨h.column, h.files⟩

theorem SortedOnce.run {inputs : Inputs} {column : SortColumn} {files : List FileRecord}
    {nav : Navigator} (h : SortedOnce inputs.links column files nav) {requests : List Request}
    (honly : OnlySortsBy column requests) :
    SortedOnce inputs.links column files (nav.run inputs requests) := by
  refine run_induction (fun nav h r hr => ?_) h
  rcases honly r hr with rfl | ⟨page, rfl⟩
  · exact h.sortBy
  · exact h.goToPage page

theorem sortedOnce_run (inputs : Inputs) {column : SortColumn} (nav : Navigator)
    {requests : List Request} (honly : OnlySortsBy column requests)
    (hsort : .sortBy column ∈ requests) :
    SortedOnce inputs.links column nav.outcome.files (nav.run inputs requests) := by
  -- Up to the first sort the results stay; from there on they are sorted once.
  induction requests generalizing nav with
  | nil => cases hsort
  | cons r requests ih =>
    obtain ⟨hr, hrest⟩ := List.forall_mem_cons.1 honly
    rcases hr with rfl | ⟨page, rfl⟩
    · exact (sortedOnce_sortBy inputs.links column nav).run hrest
    · refine ih (nav.goToPage page) hrest ?_
      exact (List.mem_cons.1 hsort).resolve_left nofun

/-- **The order after a search and any sorts.**  The results are arranged by all
sorts since the search, its own sort among them, and there is no other such
arrangement.  Where only one column has been sorted by, the results are those of
the search, sorted once in the direction chosen last, and ties are in the order
that the search has left. -/
theorem order_after_search (inputs : Inputs) (nav : Navigator) (raw : String)
    (requests : List Request) (hsearch : ∀ other, .search other ∉ requests) :
    (∀ files, Arranged inputs.links
        ((sortsAfter nav.state.sort requests).reverse ++ [nav.state.sort])
        (keptPlaces inputs.ctx (parse raw) inputs.index.filteredFiles) files ↔
      files = ((nav.search raw inputs).run inputs requests).outcome.files) ∧
      ∀ column, OnlySortsBy column requests → .sortBy column ∈ requests →
        let found := (nav.search raw inputs).outcome.files
        let sorted := (nav.search raw inputs).run inputs requests
        sorted.state.sort.column = column ∧
          sorted.outcome.files = sorted.state.sort.sort inputs.links found ∧
          ∀ file, sorted.outcome.files.filter (column.tied inputs.links file) =
            found.filter (column.tied inputs.links file) := by
  constructor
  · have harranged := arranged_run _ (arranged_search inputs nav raw) hsearch
    intro files
    constructor
    · exact fun h => harranged.unique h
    · rintro rfl
      exact harranged
  · intro column honly hsort
    have honce := sortedOnce_run inputs (nav.search raw inputs) honly hsort
    refine ⟨honce.column, honce.files, fun file => ?_⟩
    rw [honce.files, ← honce.column]
    exact SortState.filter_sort_of_tied _ _ _ file

end Navigator

end Collated

namespace Navigator

attribute [local instance] inLowercase

/-- Sorting by name, and by name again: the notes stand as sorted once, from the
least name on. -/
theorem order_after_search_name_twice :
    let requests : List Request := [.sortBy .name, .goToPage 2, .sortBy .name]
    let found := (start 1).search "" twoNotes
    Std.TransCmp collate ∧ (∀ other, .search other ∉ requests) ∧ OnlySortsBy .name requests ∧
      .sortBy .name ∈ requests ∧
      Arranged twoNotes.links [⟨.name, .asc⟩, ⟨.name, .desc⟩, .latestFirst]
        (keptPlaces twoNotes.ctx (parse "") twoNotes.index.filteredFiles)
        (found.run twoNotes requests).outcome.files ∧
      (found.run twoNotes requests).outcome.files =
        SortState.sort ⟨.name, .asc⟩ twoNotes.links found.outcome.files := by
  intro requests found
  have honly : OnlySortsBy .name requests :=
    List.forall_mem_cons.2 ⟨Or.inl rfl,
      List.forall_mem_cons.2 ⟨Or.inr ⟨2, rfl⟩, List.forall_mem_singleton.2 (Or.inl rfl)⟩⟩
  have hsearch : ∀ other, .search other ∉ requests := by
    intro other hmem
    rcases honly _ hmem with h | ⟨page, h⟩ <;> cases h
  have hsort : .sortBy .name ∈ requests := List.mem_cons_self
  obtain ⟨harranged, honce⟩ := order_after_search twoNotes (start 1) "" requests hsearch
  exact ⟨inferInstance, hsearch, honly, hsort, (harranged _).2 rfl, (honce .name honly hsort).2.1⟩

end Navigator

end NoteVault.Query
