import NoteVault.CommandLine.Report
import NoteVault.Proofs.Collation.Preorder
import NoteVault.Proofs.Link.Graph
import NoteVault.Proofs.StableSort

/-!
# Numbers of links and lists of linked files

How many links a file has is looked up in the link graph, which takes no notice of the
rules that hide files.  The files at the other end of these links are looked up in an
index, where hidden files are missing.  So the number that a search prints, and by
which it sorts, is the length of the list and, besides, the number of hidden files at
the other end (`LinkSide.count_eq`).  The two are the same exactly where no hidden file
is linked.

Both ends of a link are treated alike: `LinkSide` says from which of them the links of
a file are seen.
-/

namespace NoteVault

open Query CommandLine

/-- The value of a member of an object. -/
def Json.Value.member? (name : String) : Json.Value → Option Json.Value
  | .object members => members.lookup name
  | _ => none

/-- The links of some steps join files that the steps add. -/
def BuildStep.LinksJoinFiles (steps : List BuildStep) : Prop :=
  ∀ link ∈ BuildStep.links steps,
    link.1 ∈ (Snapshot.ofSteps steps).files.map Prod.fst ∧
      link.2 ∈ (Snapshot.ofSteps steps).files.map Prod.fst

/-- The hidden files at given paths. -/
def Snapshot.hiddenAt (s : Snapshot) (rules : Exclusion) (paths : List String) :
    List FileRecord :=
  s.records.filter fun file => rules.hides file && paths.contains file.path

theorem Snapshot.hiddenAt_eq_nil_iff {s : Snapshot} {rules : Exclusion} {paths : List String} :
    s.hiddenAt rules paths = [] ↔
      ∀ file ∈ s.records, rules.hides file = true → file.path ∉ paths := by
  rw [hiddenAt, List.filter_eq_nil_iff]
  refine forall₂_congr fun file _ => ?_
  rw [Bool.and_eq_true, not_and, List.contains_iff_mem]

/-- **Files at given paths either show or are hidden.** -/
theorem VaultIndex.length_records_add_hiddenAt [Collator] {s : Snapshot} (rules : Exclusion)
    (hs : s.DistinctPaths) {paths : List String} (hpaths : paths.Nodup)
    (hfound : ∀ path ∈ paths, path ∈ s.files.map Prod.fst) :
    ((classify s rules).records paths).length + (s.hiddenAt rules paths).length =
      paths.length := by
  rw [← Snapshot.map_path_records] at hfound
  have hshown : (s.shown rules).filter (fun file => paths.contains file.path) =
      (s.records.filter fun file => paths.contains file.path).filter fun file =>
        !rules.hides file := by
    rw [Snapshot.shown, List.filter_filter, List.filter_filter]
    exact List.filter_congr fun file _ => Bool.and_comm _ _
  have hhidden : s.hiddenAt rules paths =
      (s.records.filter fun file => paths.contains file.path).filter rules.hides :=
    List.filter_filter.symm
  rw [length_records_classify hs hpaths, hshown, hhidden, Nat.add_comm,
    ← List.length_eq_length_filter_add, length_filter_contains_path hs.records hpaths hfound]

/-! ## The two sides of a link -/

/-- The side from which the links of a file are seen. -/
inductive LinkSide where
  | backlinks
  | outgoing

namespace LinkSide

/-- The column that compares files by the number of their links. -/
def column : LinkSide → SortColumn
  | .backlinks => .backlinks
  | .outgoing => .outgoing

/-- The number of links of a path. -/
def count (links : LinkGraph) (path : String) : LinkSide → Nat
  | .backlinks => links.backlinkCount path
  | .outgoing => links.outgoingCount path

/-- The paths at the other end. -/
def paths (links : LinkGraph) (path : String) : LinkSide → List String
  | .backlinks => links.backlinks path
  | .outgoing => links.outgoing path

/-- The files at the other end that show. -/
def files (index : VaultIndex) (links : LinkGraph) (path : String) :
    LinkSide → List FileRecord
  | .backlinks => index.backlinks path links
  | .outgoing => index.outgoingLinks path links

variable (side : LinkSide)

theorem files_eq (index : VaultIndex) (links : LinkGraph) (path : String) :
    side.files index links path = index.records (side.paths links path) := by
  cases side <;> rfl

theorem count_eq_length_paths (links : LinkGraph) (path : String) :
    side.count links path = (side.paths links path).length := by
  cases side with
  | backlinks => exact links.backlinkCount_eq_length path
  | outgoing => exact links.outgoingCount_eq_length path

theorem nodup_paths (links : LinkGraph) (path : String) : (side.paths links path).Nodup := by
  cases side with
  | backlinks => exact links.nodup_backlinks path
  | outgoing => exact links.nodup_outgoing path

theorem mem_files_of_mem_paths {steps : List BuildStep} (h : BuildStep.LinksJoinFiles steps)
    {path other : String} (hother : other ∈ side.paths (Snapshot.ofSteps steps).links path) :
    other ∈ (Snapshot.ofSteps steps).files.map Prod.fst := by
  cases side with
  | backlinks => exact (h _ (Snapshot.mem_backlinks_ofSteps.1 hother)).1
  | outgoing => exact (h _ (Snapshot.mem_outgoing_ofSteps.1 hother)).2

/-- What a search prints for a file is the number of its links. -/
theorem member?_fileJson (links : LinkGraph) (file : FileRecord) :
    (fileJson links file).member? side.column.label =
      some (.integer (side.count links file.path)) := by
  cases side <;> rfl

/-- Compares files by a number, in a direction. -/
def byNumber (number : FileRecord → Nat) (dir : SortDir) (a b : FileRecord) : Ordering :=
  match dir with
  | .asc => compare (number a) (number b)
  | .desc => compare (number b) (number a)

variable [Collator]

theorem compare_column (dir : SortDir) (links : LinkGraph) (a b : FileRecord) :
    SortState.compare ⟨side.column, dir⟩ links a b =
      byNumber (fun file => side.count links file.path) dir a b := by
  cases side <;> cases dir <;> rfl

/-- Sorting by links is sorting by any number that is the number of links of the files
in hand. -/
theorem sort_column_eq (dir : SortDir) (links : LinkGraph) {files : List FileRecord}
    {number : FileRecord → Nat} (h : ∀ file ∈ files, side.count links file.path = number file) :
    SortState.sort ⟨side.column, dir⟩ links files =
      files.mergeSort fun a b => (byNumber number dir a b).isLE := by
  have hsame : ∀ a ∈ files, ∀ b ∈ files,
      (SortState.compare ⟨side.column, dir⟩ links a b).isLE =
        (byNumber number dir (id a) (id b)).isLE := by
    intro a ha b hb
    rw [compare_column]
    cases dir <;> simp only [byNumber, h a ha, h b hb, id]
  have hsort := List.map_mergeSort (r := fun a b =>
      (SortState.compare ⟨side.column, dir⟩ links a b).isLE)
    (s := fun a b => (byNumber number dir a b).isLE) hsame
  rwa [List.map_id, List.map_id] at hsort

/-! ## Counts and lists -/

/-- The number of files at the other end that show. -/
def shownCount (s : Snapshot) (rules : Exclusion) (file : FileRecord) : Nat :=
  (side.files (VaultIndex.classify s rules) s.links file.path).length

/-- The number of hidden files at the other end. -/
def hiddenCount (s : Snapshot) (rules : Exclusion) (file : FileRecord) : Nat :=
  (s.hiddenAt rules (side.paths s.links file.path)).length

/-- **A count is the length of the list, and the hidden files besides.** -/
theorem count_eq {steps : List BuildStep} (rules : Exclusion)
    (hpaths : (Snapshot.ofSteps steps).DistinctPaths) (hlinks : BuildStep.LinksJoinFiles steps)
    (file : FileRecord) :
    side.count (Snapshot.ofSteps steps).links file.path =
      side.shownCount (Snapshot.ofSteps steps) rules file +
        side.hiddenCount (Snapshot.ofSteps steps) rules file := by
  rw [count_eq_length_paths, shownCount, hiddenCount, files_eq]
  exact (VaultIndex.length_records_add_hiddenAt rules hpaths (side.nodup_paths _ _)
    fun _ hother => side.mem_files_of_mem_paths hlinks hother).symm

/-- **Counts include hidden files**: how the numbers that a search prints, and by which
it sorts, are related to the lists of linked files that show. -/
structure CountsHidden (s : Snapshot) (rules : Exclusion) : Prop where
  printed : ∀ file, (fileJson s.links file).member? side.column.label =
    some (.integer (side.shownCount s rules file + side.hiddenCount s rules file : Nat))
  sorted : ∀ dir files, SortState.sort ⟨side.column, dir⟩ s.links files =
    files.mergeSort fun a b => (byNumber (fun file =>
      side.shownCount s rules file + side.hiddenCount s rules file) dir a b).isLE
  /-- The number is the length of the list exactly where no hidden file is linked. -/
  count_eq_iff : ∀ file : FileRecord,
    side.count s.links file.path = side.shownCount s rules file ↔
      ∀ other ∈ s.records, rules.hides other = true →
        other.path ∉ side.paths s.links file.path
  /-- Files without hidden files at the other end are sorted by the lengths of their
  lists. -/
  sorted_of_none_hidden : ∀ dir files,
    (∀ file ∈ files, ∀ other ∈ s.records, rules.hides other = true →
      other.path ∉ side.paths s.links file.path) →
    SortState.sort ⟨side.column, dir⟩ s.links files =
      files.mergeSort fun a b => (byNumber (side.shownCount s rules) dir a b).isLE

end LinkSide

/-- **Link counts and link lists** of a snapshot in which no path stands for two files
and links join files: the counts go beyond the lists by the hidden files. -/
theorem link_counts_include_hidden [Collator] (steps : List BuildStep) (rules : Exclusion)
    (hpaths : (Snapshot.ofSteps steps).DistinctPaths) (hlinks : BuildStep.LinksJoinFiles steps)
    (side : LinkSide) : side.CountsHidden (Snapshot.ofSteps steps) rules := by
  have hcount := side.count_eq rules hpaths hlinks
  have hiff : ∀ file : FileRecord,
      side.count (Snapshot.ofSteps steps).links file.path =
          side.shownCount (Snapshot.ofSteps steps) rules file ↔
        ∀ other ∈ (Snapshot.ofSteps steps).records, rules.hides other = true →
          other.path ∉ side.paths (Snapshot.ofSteps steps).links file.path := by
    intro file
    rw [hcount, Nat.add_eq_left, LinkSide.hiddenCount, List.length_eq_zero_iff,
      Snapshot.hiddenAt_eq_nil_iff]
  constructor
  · intro file
    rw [LinkSide.member?_fileJson, hcount]
  · intro dir files
    exact side.sort_column_eq dir _ fun file _ => hcount file
  · exact hiff
  · intro dir files hnone
    exact side.sort_column_eq dir _ fun file hfile => (hiff file).2 (hnone file hfile)

/-- Two notes, and a file in a folder of its own that links to the second one. -/
def linkedFromFolder : List BuildStep :=
  [.file "b.md" ⟨0, none, none⟩, .file "a.md" ⟨0, none, none⟩,
    .file "secret/s.md" ⟨0, none, none⟩, .link "secret/s.md" "a.md"]

attribute [local instance] Collation.inLowercase

/-- In this vault each path stands for one file and the link joins files, so with the
folder hidden its counts are those of the lists and of the hidden file. -/
theorem link_counts_include_hidden_folder :
    (Snapshot.ofSteps linkedFromFolder).DistinctPaths ∧
      BuildStep.LinksJoinFiles linkedFromFolder ∧
      LinkSide.backlinks.CountsHidden (Snapshot.ofSteps linkedFromFolder)
        (.ofLists [] ["secret"]) := by
  have hpaths : (Snapshot.ofSteps linkedFromFolder).DistinctPaths := by
    unfold Snapshot.DistinctPaths
    decide +kernel
  have hlinks : BuildStep.LinksJoinFiles linkedFromFolder := by
    unfold BuildStep.LinksJoinFiles
    decide +kernel
  exact ⟨hpaths, hlinks, link_counts_include_hidden _ _ hpaths hlinks .backlinks⟩

/-- **Counts are not the lengths of the lists**: with the folder hidden, the second note
is counted with a link although its list is empty, and this link puts it before the
first note. -/
theorem link_counts_differ_from_lists :
    let s := Snapshot.ofSteps linkedFromFolder
    let index := VaultIndex.classify s (.ofLists [] ["secret"])
    s.DistinctPaths ∧ BuildStep.LinksJoinFiles linkedFromFolder ∧
      (index.filteredFiles.map fun file =>
        (file.path, s.links.backlinkCount file.path, (index.backlinks file.path s.links).length)) =
        [("b.md", 0, 0), ("a.md", 1, 0)] ∧
      (SortState.sort ⟨.backlinks, .desc⟩ s.links index.filteredFiles).map FileRecord.path =
        ["a.md", "b.md"] := by
  intro s index
  have hsort : (SortState.sort ⟨.backlinks, .desc⟩ s.links index.filteredFiles).map
      FileRecord.path = (index.filteredFiles.map FileRecord.path).mergeSort fun a b =>
        (compare (s.links.backlinkCount b) (s.links.backlinkCount a)).isLE :=
    List.map_mergeSort fun _ _ _ _ => rfl
  have hshown : index.filteredFiles.map FileRecord.path = ["b.md", "a.md"] := by
    decide +kernel
  refine ⟨?_, ?_, ?_, ?_⟩
  · unfold Snapshot.DistinctPaths
    decide +kernel
  · unfold BuildStep.LinksJoinFiles
    decide +kernel
  · decide +kernel
  · rw [hsort, hshown, mergeSort_pair, if_neg (by decide +kernel)]

end NoteVault
