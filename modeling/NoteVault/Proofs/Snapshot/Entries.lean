import Mathlib.Data.List.Infix
import Mathlib.Data.List.Induction
import NoteVault.Proofs.Snapshot.Builder
import NoteVault.Proofs.Text.Cut
import NoteVault.Proofs.Text.Joined
import NoteVault.Proofs.Text.Pieces

/-!
# The entries of a snapshot

Folders get into a snapshot on their own and on the way to a file.  The builder tells
what it has seen from a set of folders apart from the entries; `InStep` says that the two
agree, and every step keeps that.  So a step does to the entries what `addEntries` says,
which knows of no set: the folders that the step implies, unless they are there already,
and then the file that it adds.

On the entries alone, each folder stands behind those above it and each file behind those
around it (`WellBuilt`), whatever slashes the paths have.  The main result,
`Snapshot.builtBy_ofSteps`, says what a snapshot holds after any steps, and that further
steps add to its entries at the end.
-/

namespace NoteVault

open Text

/-! ## Folders along a path -/

/-- The names along a path: its pieces between slashes that are not empty. -/
def namesAlong (path : String) : List String :=
  ((pieces '/' path.toList).filter fun name => !name.isEmpty).map String.ofList

/-- The names along a path before its last piece. -/
def namesAround (path : String) : List String :=
  ((pieces '/' path.toList).dropLast.filter fun name => !name.isEmpty).map String.ofList

/-- The folders on the way along names, the outermost first. -/
def foldersAlong (names : List String) : List String := names.inits.tail.map (joinWith "/")

/-- Names that may stand between the slashes of a path. -/
def PlainNames (names : List String) : Prop := ∀ name ∈ names, name ≠ "" ∧ '/' ∉ name.toList

theorem plainNames_of_pieces {path : String} {names : List (List Char)}
    (h : names ⊆ pieces '/' path.toList) :
    PlainNames ((names.filter fun name => !name.isEmpty).map String.ofList) := by
  intro name hname
  obtain ⟨piece, hpiece, rfl⟩ := List.mem_map.1 hname
  obtain ⟨hmem, hne⟩ := List.mem_filter.1 hpiece
  rw [ne_eq, ← String.toList_eq_nil_iff, String.toList_ofList]
  refine ⟨?_, not_mem_of_mem_pieces (h hmem)⟩
  rintro rfl
  cases hne

theorem plainNames_namesAlong (path : String) : PlainNames (namesAlong path) :=
  plainNames_of_pieces (List.Subset.refl _)

theorem plainNames_namesAround (path : String) : PlainNames (namesAround path) :=
  plainNames_of_pieces (List.dropLast_subset _)

/-- The names around a file are those along the path of its folder. -/
theorem namesAlong_parentFolder (path : String) :
    namesAlong (parentFolder path) = namesAround path := by
  rw [namesAlong, namesAround, parentFolder]
  cases hcut : cutLast '/' path.toList with
  | none =>
    rw [pieces_of_not_mem (cutLast_eq_none_iff.1 hcut)]
    rfl
  | some parts =>
    obtain ⟨folder, name⟩ := parts
    obtain ⟨hpath, hname⟩ := cutLast_eq_some_iff.1 hcut
    show ((pieces '/' (String.ofList folder).toList).filter _).map _ = _
    rw [String.toList_ofList, hpath, pieces_append_cons, pieces_of_not_mem hname,
      List.dropLast_concat]

theorem mem_tail_inits {names above : List String} :
    above ∈ names.inits.tail ↔ above <+: names ∧ above ≠ [] := by
  cases names with
  | nil => simp
  | cons name names =>
    rw [List.inits_cons, List.tail_cons, List.mem_map, List.prefix_cons_iff]
    constructor
    · rintro ⟨rest, hrest, rfl⟩
      exact ⟨.inr ⟨rest, rfl, (List.mem_inits _ _).1 hrest⟩, List.cons_ne_nil _ _⟩
    · rintro ⟨rfl | ⟨rest, rfl, hrest⟩, hne⟩
      · exact absurd rfl hne
      · exact ⟨rest, (List.mem_inits _ _).2 hrest, rfl⟩

theorem mem_foldersAlong {names : List String} {path : String} :
    path ∈ foldersAlong names ↔
      ∃ above, above <+: names ∧ above ≠ [] ∧ joinWith "/" above = path := by
  rw [foldersAlong, List.mem_map]
  simp only [mem_tail_inits, and_assoc]

theorem inits_eq_cons (names : List String) : names.inits = [] :: names.inits.tail := by
  cases names with
  | nil => rfl
  | cons name names => rw [List.inits_cons, List.tail_cons]

theorem foldersAlong_concat (names : List String) (name : String) :
    foldersAlong (names ++ [name]) = foldersAlong names ++ [joinWith "/" (names ++ [name])] := by
  rw [foldersAlong, foldersAlong, List.inits_append, List.tail_append_of_ne_nil, List.map_append]
  · rfl
  · rw [inits_eq_cons]
    exact List.cons_ne_nil _ _

namespace SnapshotBuilder

/-- The folders on the way down are those along the names above and the names to come. -/
theorem chainFrom_eq {above : List String} (habove : PlainNames above) {names : List (List Char)}
    (hnames : PlainNames (names.map String.ofList)) :
    chainFrom (joinWith "/" above).toList names =
      (names.map String.ofList).inits.tail.map fun more => joinWith "/" (above ++ more) := by
  induction names generalizing above with
  | nil => rfl
  | cons name names ih =>
    obtain ⟨hname, hnames⟩ := List.forall_mem_cons.1 hnames
    have hhere : (if (joinWith "/" above).toList.isEmpty then name
          else (joinWith "/" above).toList ++ '/' :: name) =
        (joinWith "/" (above ++ [String.ofList name])).toList := by
      rw [toList_joinWith_concat, String.toList_ofList]
      by_cases hnil : above = []
      · rw [if_pos hnil, hnil, joinWith_nil]
        rfl
      · have hne : joinWith "/" above ≠ "" :=
          mt (joinWith_eq_empty_iff fun name hname => (habove name hname).1).1 hnil
        rw [if_neg hnil, if_neg (by rwa [List.isEmpty_iff, String.toList_eq_nil_iff])]
        rfl
    have hdeeper : PlainNames (above ++ [String.ofList name]) :=
      List.forall_mem_append.2 ⟨habove, List.forall_mem_singleton.2 hname⟩
    rw [chainFrom]
    simp only [hhere]
    rw [ih hdeeper hnames, String.ofList_toList, List.map_cons, List.inits_cons, List.tail_cons,
      List.map_map, inits_eq_cons (names.map String.ofList), List.map_cons, List.tail_cons]
    refine congrArg₂ List.cons rfl (List.map_congr_left fun more _ => ?_)
    rw [List.append_assoc]
    rfl

/-- **The folders of a path** are those along its names. -/
theorem folderChain_eq (path : String) : folderChain path = foldersAlong (namesAlong path) := by
  have hchain : chainFrom (joinWith "/" []).toList _ = foldersAlong (namesAlong path) :=
    chainFrom_eq (List.forall_mem_nil _) (plainNames_namesAlong path)
  rw [joinWith_nil] at hchain
  exact hchain

end SnapshotBuilder

/-! ## Steps and entries -/

/-- The path of an entry that is a folder. -/
def SnapshotEntry.folderPath? : SnapshotEntry → Option String
  | .file _ _ => none
  | .folder path => some path

/-- The folders of a snapshot, in order. -/
def Snapshot.folderPaths (s : Snapshot) : List String :=
  s.entries.filterMap SnapshotEntry.folderPath?

namespace BuildStep

/-- The folders that a step implies, the outermost first: those along the path of a
folder, or around a file. -/
def folders : BuildStep → List String
  | .folder path => foldersAlong (namesAlong path)
  | .file path _ => foldersAlong (namesAround path)
  | .note path _ _ => foldersAlong (namesAround path)
  | _ => []

/-- The file that a step adds. -/
def file? : BuildStep → Option (String × FileStat)
  | .file path stat => some (path, stat)
  | .note path stat _ => some (path, stat)
  | _ => none

end BuildStep

/-- Entries with those of a step behind them: the folders that it implies, unless they
are there already, and the file that it adds. -/
def addEntries (entries : List SnapshotEntry) (step : BuildStep) : List SnapshotEntry :=
  (step.folders.map .folder).foldl addNew entries ++
    step.file?.toList.map fun file => .file file.1 file.2

theorem addEntries_of_none (entries : List SnapshotEntry) {step : BuildStep}
    (hfolders : step.folders = []) (hfile : step.file? = none) :
    addEntries entries step = entries := by
  rw [addEntries, hfolders, hfile]
  exact List.append_nil entries

theorem addEntries_folder (entries : List SnapshotEntry) (path : String) :
    addEntries entries (.folder path) =
      ((foldersAlong (namesAlong path)).map .folder).foldl addNew entries := by
  rw [addEntries]
  exact List.append_nil _

namespace SnapshotBuilder

/-- The folders that a builder has seen are those among its entries. -/
def InStep (b : SnapshotBuilder) : Prop :=
  ∀ path, b.seenFolders.contains path = true ↔ .folder path ∈ b.entries

variable {b : SnapshotBuilder}

theorem inStep_start : start.InStep := fun _ => iff_of_false Bool.false_ne_true List.not_mem_nil

theorem InStep.addFolder (h : b.InStep) (path : String) : (b.addFolder path).InStep ∧
    (b.addFolder path).entries = addNew b.entries (.folder path) := by
  rw [SnapshotBuilder.addFolder, addNew]
  by_cases hseen : b.seenFolders.contains path = true
  · rw [if_pos hseen, if_pos ((h path).1 hseen)]
    exact ⟨h, rfl⟩
  · rw [if_neg hseen, if_neg (mt (h path).2 hseen)]
    refine ⟨fun other => ?_, rfl⟩
    show (b.seenFolders.insert path ()).contains other = true ↔
      .folder other ∈ b.entries ++ [.folder path]
    rw [NameMap.contains_insert, h other, List.mem_append, List.mem_singleton,
      SnapshotEntry.folder.injEq, or_comm]

theorem InStep.foldl_addFolder (h : b.InStep) (paths : List String) :
    (paths.foldl SnapshotBuilder.addFolder b).InStep ∧
      (paths.foldl SnapshotBuilder.addFolder b).entries =
        (paths.map .folder).foldl addNew b.entries := by
  induction paths generalizing b with
  | nil => exact ⟨h, rfl⟩
  | cons path paths ih =>
    obtain ⟨hin, hentries⟩ := h.addFolder path
    rw [List.foldl_cons, List.map_cons, List.foldl_cons, ← hentries]
    exact ih hin

theorem InStep.addFolders (h : b.InStep) (path : String) :
    (b.addFolders path).InStep ∧ (b.addFolders path).entries =
      ((foldersAlong (namesAlong path)).map .folder).foldl addNew b.entries := by
  rw [SnapshotBuilder.addFolders, folderChain_eq]
  exact h.foldl_addFolder _

/-- A file at the end of the entries is no folder. -/
theorem InStep.withFile (h : b.InStep) (path : String) (stat : FileStat) :
    { b with entries := b.entries ++ [SnapshotEntry.file path stat] }.InStep := by
  intro other
  have hfile : SnapshotEntry.folder other ≠ .file path stat := SnapshotEntry.noConfusion
  show b.seenFolders.contains other = true ↔ .folder other ∈ b.entries ++ [.file path stat]
  rw [h other, List.mem_append, List.mem_singleton, or_iff_left hfile]

theorem InStep.addFile (h : b.InStep) (path : String) (stat : FileStat) :
    (b.addFile path stat).InStep ∧ (b.addFile path stat).entries =
      ((foldersAlong (namesAround path)).map .folder).foldl addNew b.entries ++
        [.file path stat] := by
  obtain ⟨hin, hentries⟩ := h.addFolders (parentFolder path)
  have hfile : b.addFile path stat =
      { b.addFolders (parentFolder path) with
        entries := (b.addFolders (parentFolder path)).entries ++ [.file path stat] } := rfl
  rw [namesAlong_parentFolder] at hentries
  rw [hfile, ← hentries]
  exact ⟨hin.withFile path stat, rfl⟩

theorem InStep.addBookmark (h : b.InStep) (path : String) :
    (b.addBookmark path).InStep ∧ (b.addBookmark path).entries = b.entries := by
  rw [SnapshotBuilder.addBookmark]
  split <;> exact ⟨h, rfl⟩

theorem InStep.withMetadata (h : b.InStep) (metadata : NameMap Metadata) :
    { b with metadata := metadata }.InStep :=
  h

/-- **What a step does to the entries** of a builder. -/
theorem InStep.apply (h : b.InStep) (step : BuildStep) :
    (b.apply step).InStep ∧ (b.apply step).entries = addEntries b.entries step := by
  cases step with
  | folder path =>
    rw [addEntries_folder]
    exact h.addFolders path
  | file path stat => exact h.addFile path stat
  | note path stat known =>
    obtain ⟨hin, hentries⟩ := h.addFile path stat
    exact ⟨hin.withMetadata _, hentries⟩
  | link source target => exact ⟨h, (addEntries_of_none _ rfl rfl).symm⟩
  | bookmark path =>
    rw [addEntries_of_none _ rfl rfl]
    exact h.addBookmark path
  | opened path => exact ⟨h, (addEntries_of_none _ rfl rfl).symm⟩

theorem InStep.run (h : b.InStep) (steps : List BuildStep) :
    (b.run steps).InStep ∧ (b.run steps).entries = steps.foldl addEntries b.entries := by
  induction steps generalizing b with
  | nil => exact ⟨h, rfl⟩
  | cons step steps ih =>
    obtain ⟨hin, hentries⟩ := h.apply step
    rw [List.foldl_cons, ← hentries]
    exact ih hin

end SnapshotBuilder

/-! ## Folders and files among the entries -/

section Entries

variable {entries : List SnapshotEntry}

theorem mem_filterMap_folderPath? {path : String} :
    path ∈ entries.filterMap SnapshotEntry.folderPath? ↔ .folder path ∈ entries := by
  rw [List.mem_filterMap]
  constructor
  · rintro ⟨e, he, hpath⟩
    cases e with
    | file other stat => cases hpath
    | folder other =>
      obtain rfl := Option.some.inj hpath
      exact he
  · exact fun h => ⟨.folder path, h, rfl⟩

theorem filterMap_folderPath?_foldl (paths : List String) (entries : List SnapshotEntry) :
    ((paths.map .folder).foldl addNew entries).filterMap SnapshotEntry.folderPath? =
      paths.foldl addNew (entries.filterMap SnapshotEntry.folderPath?) := by
  induction paths generalizing entries with
  | nil => rfl
  | cons path paths ih =>
    rw [List.map_cons, List.foldl_cons, List.foldl_cons, ih]
    refine congrArg (paths.foldl addNew) ?_
    rw [addNew, addNew]
    by_cases hmem : .folder path ∈ entries
    · rw [if_pos hmem, if_pos (mem_filterMap_folderPath?.2 hmem)]
    · rw [if_neg hmem, if_neg (mt mem_filterMap_folderPath?.1 hmem), List.filterMap_append]
      rfl

theorem filterMap_file?_foldl (paths : List String) (entries : List SnapshotEntry) :
    ((paths.map .folder).foldl addNew entries).filterMap SnapshotEntry.file? =
      entries.filterMap SnapshotEntry.file? := by
  induction paths generalizing entries with
  | nil => rfl
  | cons path paths ih =>
    rw [List.map_cons, List.foldl_cons, ih, addNew]
    split
    · rfl
    · rw [List.filterMap_append]
      exact List.append_nil _

/-- **The folders of steps**, each at its first place. -/
theorem filterMap_folderPath?_addEntries (steps : List BuildStep) (entries : List SnapshotEntry) :
    (steps.foldl addEntries entries).filterMap SnapshotEntry.folderPath? =
      (steps.flatMap BuildStep.folders).foldl addNew
        (entries.filterMap SnapshotEntry.folderPath?) := by
  induction steps generalizing entries with
  | nil => rfl
  | cons step steps ih =>
    have hfile : (step.file?.toList.map fun file => SnapshotEntry.file file.1 file.2).filterMap
        SnapshotEntry.folderPath? = [] := by
      cases step.file? <;> rfl
    rw [List.foldl_cons, ih, List.flatMap_cons, List.foldl_append, addEntries,
      List.filterMap_append, filterMap_folderPath?_foldl, hfile, List.append_nil]

/-- **The files of steps**, in order. -/
theorem filterMap_file?_addEntries (steps : List BuildStep) (entries : List SnapshotEntry) :
    (steps.foldl addEntries entries).filterMap SnapshotEntry.file? =
      entries.filterMap SnapshotEntry.file? ++ steps.filterMap BuildStep.file? := by
  induction steps generalizing entries with
  | nil => exact (List.append_nil _).symm
  | cons step steps ih =>
    rw [List.foldl_cons, ih, addEntries, List.filterMap_append, filterMap_file?_foldl,
      List.append_assoc, List.filterMap_cons]
    cases step.file? <;> rfl

/-- **Entries only grow** at the end. -/
theorem prefix_addEntries (steps : List BuildStep) (entries : List SnapshotEntry) :
    entries <+: steps.foldl addEntries entries := by
  induction steps generalizing entries with
  | nil => exact List.prefix_refl _
  | cons step steps ih =>
    exact ((prefix_foldl_addNew _ entries).trans (List.prefix_append _ _)).trans (ih _)

/-! ## What stands before an entry -/

/-- What an entry needs before it: a folder the folders above it, and a file those around
it. -/
def Settled (before : List SnapshotEntry) : SnapshotEntry → Prop
  | .folder path => ∃ names, names ≠ [] ∧ PlainNames names ∧ joinWith "/" names = path ∧
      ∀ above, above <+: names → above ≠ [] → above ≠ names →
        .folder (joinWith "/" above) ∈ before
  | .file path _ => ∀ above, above <+: namesAround path → above ≠ [] →
      .folder (joinWith "/" above) ∈ before

/-- Each entry has what it needs before it. -/
def WellBuilt (entries : List SnapshotEntry) : Prop :=
  ∀ before e behind, entries = before ++ e :: behind → Settled before e

theorem wellBuilt_nil : WellBuilt [] := fun _ _ _ h => absurd h.symm (by simp)

theorem WellBuilt.concat (h : WellBuilt entries) {e : SnapshotEntry} (he : Settled entries e) :
    WellBuilt (entries ++ [e]) := by
  intro before other behind heq
  rcases List.eq_nil_or_concat behind with rfl | ⟨front, last, rfl⟩
  · obtain ⟨rfl, hlast⟩ := List.append_inj' heq rfl
    obtain ⟨rfl, -⟩ := List.cons.inj hlast
    exact he
  · rw [List.concat_eq_append, ← List.cons_append, ← List.append_assoc] at heq
    exact h before other front (List.append_inj' heq rfl).1

/-- The folders along names can be added, the outermost first: each has those above it
before it. -/
theorem WellBuilt.foldl_addNew (h : WellBuilt entries) {names : List String}
    (hnames : PlainNames names) :
    WellBuilt (((foldersAlong names).map .folder).foldl addNew entries) := by
  induction names using List.reverseRecOn with
  | nil => exact h
  | append_singleton names name ih =>
    have habove : PlainNames names := fun n hn => hnames n (List.mem_append_left _ hn)
    rw [foldersAlong_concat, List.map_append, List.foldl_append, List.map_singleton,
      List.foldl_cons, List.foldl_nil, addNew]
    split
    · exact ih habove
    · refine (ih habove).concat ⟨names ++ [name], by simp, hnames, rfl, ?_⟩
      intro above hle hne hproper
      have hle' : above <+: names := by
        rcases List.prefix_concat_iff.1 hle with heq | hle'
        · exact absurd heq hproper
        · exact hle'
      refine mem_foldl_addNew.2 (.inr (List.mem_map_of_mem ?_))
      exact mem_foldersAlong.2 ⟨above, hle', hne, rfl⟩

theorem WellBuilt.addFile (h : WellBuilt entries) (path : String) (stat : FileStat) :
    WellBuilt (((foldersAlong (namesAround path)).map .folder).foldl addNew entries ++
      [.file path stat]) := by
  refine (h.foldl_addNew (plainNames_namesAround path)).concat fun above hle hne => ?_
  refine mem_foldl_addNew.2 (.inr (List.mem_map_of_mem ?_))
  exact mem_foldersAlong.2 ⟨above, hle, hne, rfl⟩

/-- **A step keeps entries well built.** -/
theorem WellBuilt.addEntries (h : WellBuilt entries) (step : BuildStep) :
    WellBuilt (addEntries entries step) := by
  cases step with
  | folder path =>
    rw [addEntries_folder]
    exact h.foldl_addNew (plainNames_namesAlong path)
  | file path stat => exact h.addFile path stat
  | note path stat known => exact h.addFile path stat
  | link source target => rwa [addEntries_of_none entries rfl rfl]
  | bookmark path => rwa [addEntries_of_none entries rfl rfl]
  | opened path => rwa [addEntries_of_none entries rfl rfl]

theorem WellBuilt.foldl_addEntries (h : WellBuilt entries) (steps : List BuildStep) :
    WellBuilt (steps.foldl NoteVault.addEntries entries) := by
  induction steps generalizing entries with
  | nil => exact h
  | cons step steps ih => exact ih (h.addEntries step)

end Entries

/-! ## Snapshots -/

namespace Snapshot

theorem entries_ofSteps (steps : List BuildStep) :
    (ofSteps steps).entries = steps.foldl addEntries [] :=
  (SnapshotBuilder.inStep_start.run steps).2

theorem mem_folderPaths {s : Snapshot} {path : String} :
    path ∈ s.folderPaths ↔ .folder path ∈ s.entries :=
  mem_filterMap_folderPath?

/-- **The folders of a snapshot** are those that its steps imply, each at its first
place. -/
theorem folderPaths_ofSteps (steps : List BuildStep) :
    (ofSteps steps).folderPaths = firstOccurrences (steps.flatMap BuildStep.folders) := by
  rw [folderPaths, entries_ofSteps, filterMap_folderPath?_addEntries]
  rfl

/-- **The files of a snapshot** are those that its steps add. -/
theorem files_ofSteps (steps : List BuildStep) :
    (ofSteps steps).files = steps.filterMap BuildStep.file? := by
  rw [files, entries_ofSteps, filterMap_file?_addEntries]
  rfl

/-- Further steps leave the entries that are there in front. -/
theorem entries_prefix_ofSteps (steps more : List BuildStep) :
    (ofSteps steps).entries <+: (ofSteps (steps ++ more)).entries := by
  rw [entries_ofSteps, entries_ofSteps, List.foldl_append]
  exact prefix_addEntries more _

theorem wellBuilt_ofSteps (steps : List BuildStep) : WellBuilt (ofSteps steps).entries := by
  rw [entries_ofSteps]
  exact wellBuilt_nil.foldl_addEntries steps

/-- What a snapshot holds that steps have built. -/
structure BuiltBy (s : Snapshot) (steps : List BuildStep) : Prop where
  /-- No folder is there twice. -/
  nodup_folders : s.folderPaths.Nodup
  /-- A folder is there if a step implies it, and for no other reason. -/
  mem_folders : ∀ path, .folder path ∈ s.entries ↔ ∃ step ∈ steps, path ∈ step.folders
  /-- The path of a folder is made of names with one slash between them, and the folders
  above it stand before it. -/
  above_folder : ∀ before path behind, s.entries = before ++ .folder path :: behind →
    ∃ names, names ≠ [] ∧ PlainNames names ∧ joinWith "/" names = path ∧
      ∀ above, above <+: names → above ≠ [] → above ≠ names →
        .folder (joinWith "/" above) ∈ before
  /-- The folders around a file stand before it. -/
  around_file : ∀ before path stat behind, s.entries = before ++ .file path stat :: behind →
    ∀ above, above <+: namesAround path → above ≠ [] → .folder (joinWith "/" above) ∈ before
  /-- The files are those that the steps add, in order. -/
  files_eq : s.files = steps.filterMap BuildStep.file?
  /-- The bookmarks are the bookmarked paths, each at its first place. -/
  bookmarks_eq : s.bookmarks = (steps.filterMap BuildStep.bookmark?).eraseDups
  /-- What is known of a file is what the last note with its path says. -/
  known_eq : ∀ path, s.metadata.find? path =
    (steps.filterMap BuildStep.note?).reverse.lookup path

/-- **What steps build**: further steps add to the entries at the end only, folders stand
once and before what is in them, and files, bookmarks and metadata are those of the
steps. -/
theorem builtBy_ofSteps (steps more : List BuildStep) :
    (ofSteps steps).entries <+: (ofSteps (steps ++ more)).entries ∧
      (ofSteps steps).BuiltBy steps := by
  refine ⟨entries_prefix_ofSteps steps more, ?_⟩
  have hbuilt : WellBuilt (ofSteps steps).entries := wellBuilt_ofSteps steps
  exact {
    nodup_folders := by
      rw [folderPaths_ofSteps]
      exact nodup_firstOccurrences _
    mem_folders := fun path => by
      rw [← mem_folderPaths, folderPaths_ofSteps, mem_firstOccurrences, List.mem_flatMap]
    above_folder := fun before path behind heq => hbuilt before (.folder path) behind heq
    around_file := fun before path stat behind heq => hbuilt before (.file path stat) behind heq
    files_eq := files_ofSteps steps
    bookmarks_eq := by rw [bookmarks_ofSteps, firstOccurrences_eq_eraseDups]
    known_eq := find?_metadata_ofSteps steps }

end Snapshot

end NoteVault
