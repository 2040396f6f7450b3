import NoteVault.Distinct
import NoteVault.Snapshot.Builder

/-!
# What the steps of a builder leave behind

Each collection of a snapshot is filled by some of the steps and left alone by the
others (`SnapshotBuilder.part_run`).  So it can be read off the steps at once: the
bookmarks are the bookmarked paths, each at its first place (`bookmarks_ofSteps`), the
link graph counts the links (`links_ofSteps`), and what is known of a file is what the
last note says (`find?_metadata_ofSteps`).
-/

namespace NoteVault

/-- The path that a step bookmarks. -/
def BuildStep.bookmark? : BuildStep → Option String
  | .bookmark path => some path
  | _ => none

/-- The source and the target of the link that a step counts. -/
def BuildStep.link? : BuildStep → Option (String × String)
  | .link source target => some (source, target)
  | _ => none

/-- What a step makes known of a file. -/
def BuildStep.note? : BuildStep → Option (String × Metadata)
  | .note path _ known => some (path, known)
  | _ => none

/-- The links that steps count, in order. -/
def BuildStep.links (steps : List BuildStep) : List (String × String) :=
  steps.filterMap BuildStep.link?

namespace SnapshotBuilder

/-- Counts of links with one link more. -/
def countLink (counts : NameMap (NameMap Nat)) (link : String × String) :
    NameMap (NameMap Nat) :=
  counts.alter link.1 fun targets =>
    (targets.getD .empty).alter link.2 fun count => count.getD 0 + 1

/-- What is known of files, with what a note says in place of what was known before. -/
def setKnown (metadata : NameMap Metadata) (note : String × Metadata) : NameMap Metadata :=
  metadata.insert note.1 note.2

/-- The bookmarks of a builder, and the set of those it has seen. -/
def marks (b : SnapshotBuilder) : List String × NameSet := (b.bookmarks, b.seenBookmarks)

/-- Paths and their set, with one path more unless it is in the set. -/
def addMark (marks : List String × NameSet) (path : String) : List String × NameSet :=
  if marks.2.contains path then marks else (marks.1 ++ [path], marks.2.insert path ())

variable (b : SnapshotBuilder)

/-- Adding folders touches the entries and the folders seen, and nothing else. -/
theorem exists_addFolders (path : String) : ∃ entries seen,
    b.addFolders path = { b with entries := entries, seenFolders := seen } := by
  unfold addFolders
  induction folderChain path generalizing b with
  | nil => exact ⟨b.entries, b.seenFolders, rfl⟩
  | cons folder folders ih =>
    obtain ⟨entries, seen, hrest⟩ := ih (b.addFolder folder)
    rw [List.foldl_cons, hrest, addFolder]
    split <;> exact ⟨entries, seen, rfl⟩

theorem exists_addFile (path : String) (stat : FileStat) : ∃ entries seen,
    b.addFile path stat = { b with entries := entries, seenFolders := seen } := by
  obtain ⟨entries, seen, hfolders⟩ := b.exists_addFolders (parentFolder path)
  rw [addFile, hfolders]
  exact ⟨entries ++ [.file path stat], seen, rfl⟩

/-- What a step does to what is known of files, to the counts of links and to the
bookmarks: only a note changes the first, only a link the second and only a bookmark the
third. -/
theorem exists_apply (step : BuildStep) : ∃ entries seen opened,
    b.apply step =
      { entries := entries
        seenFolders := seen
        metadata := step.note?.toList.foldl setKnown b.metadata
        links := step.link?.toList.foldl countLink b.links
        bookmarks := (step.bookmark?.toList.foldl addMark b.marks).1
        seenBookmarks := (step.bookmark?.toList.foldl addMark b.marks).2
        lastOpened := opened } := by
  cases step with
  | folder path =>
    obtain ⟨entries, seen, hfolders⟩ := b.exists_addFolders path
    exact ⟨entries, seen, b.lastOpened, hfolders⟩
  | file path stat =>
    obtain ⟨entries, seen, hfile⟩ := b.exists_addFile path stat
    exact ⟨entries, seen, b.lastOpened, hfile⟩
  | note path stat known =>
    obtain ⟨entries, seen, hfile⟩ := b.exists_addFile path stat
    refine ⟨entries, seen, b.lastOpened, ?_⟩
    rw [apply, hfile]
    rfl
  | link source target => exact ⟨b.entries, b.seenFolders, b.lastOpened, rfl⟩
  | bookmark path =>
    refine ⟨b.entries, b.seenFolders, b.lastOpened, ?_⟩
    show b.addBookmark path = { b with
      bookmarks := (addMark b.marks path).1, seenBookmarks := (addMark b.marks path).2 }
    rw [addBookmark, addMark, marks]
    split <;> rfl
  | opened path => exact ⟨b.entries, b.seenFolders, b.lastOpened ++ [path], rfl⟩

theorem marks_apply (step : BuildStep) :
    (b.apply step).marks = step.bookmark?.toList.foldl addMark b.marks := by
  obtain ⟨_, _, _, hstep⟩ := b.exists_apply step
  rw [hstep, marks]

theorem links_apply (step : BuildStep) :
    (b.apply step).links = step.link?.toList.foldl countLink b.links := by
  obtain ⟨_, _, _, hstep⟩ := b.exists_apply step
  rw [hstep]

theorem metadata_apply (step : BuildStep) :
    (b.apply step).metadata = step.note?.toList.foldl setKnown b.metadata := by
  obtain ⟨_, _, _, hstep⟩ := b.exists_apply step
  rw [hstep]

/-- The last note says what is known. -/
theorem find?_foldl_setKnown (notes : List (String × Metadata)) (path : String) :
    (notes.foldl setKnown .empty).find? path = notes.reverse.lookup path := by
  rw [← List.reverse_reverse notes, List.foldl_reverse, List.reverse_reverse]
  induction notes.reverse with
  | nil => rfl
  | cons note notes ih =>
    obtain ⟨name, known⟩ := note
    rw [List.foldr_cons, setKnown, NameMap.find?_insert, ih]
    by_cases hpath : path = name
    · rw [if_pos hpath, hpath, List.lookup_cons_self]
    · rw [if_neg hpath, NameMap.lookup_cons_of_ne hpath]

/-- As long as the set is that of the paths, a path is added if it is not among them. -/
theorem foldl_addMark (paths : List String) {marks : List String × NameSet}
    (hmarks : ∀ path, marks.2.contains path = true ↔ path ∈ marks.1) :
    (paths.foldl addMark marks).1 = paths.foldl addNew marks.1 := by
  induction paths generalizing marks with
  | nil => rfl
  | cons path paths ih =>
    rw [List.foldl_cons, List.foldl_cons, addMark, addNew]
    by_cases hseen : marks.2.contains path = true
    · rw [if_pos hseen, if_pos ((hmarks path).1 hseen)]
      exact ih hmarks
    · rw [if_neg hseen, if_neg (mt (hmarks path).2 hseen)]
      refine ih fun other => ?_
      rw [NameMap.contains_insert, hmarks other, List.mem_append, List.mem_singleton, or_comm]

/-- **A part of a snapshot in the making** that each step fills with what is picked from
it is filled by many steps with all that is picked from them. -/
theorem part_run {α β : Type} {part : SnapshotBuilder → β} {pick : BuildStep → Option α}
    {add : β → α → β}
    (happly : ∀ b step, part (apply b step) = (pick step).toList.foldl add (part b))
    (steps : List BuildStep) :
    part (b.run steps) = (steps.filterMap pick).foldl add (part b) := by
  induction steps generalizing b with
  | nil => rfl
  | cons step steps ih =>
    have hrun : b.run (step :: steps) = (b.apply step).run steps := rfl
    rw [hrun, ih, happly, List.filterMap_cons]
    cases pick step <;> rfl

end SnapshotBuilder

namespace Snapshot

/-- **The bookmarks of a snapshot** are the bookmarked paths, each at its first
place. -/
theorem bookmarks_ofSteps (steps : List BuildStep) :
    (ofSteps steps).bookmarks = firstOccurrences (steps.filterMap BuildStep.bookmark?) := by
  have hmarks : (SnapshotBuilder.start.run steps).marks =
      (steps.filterMap BuildStep.bookmark?).foldl SnapshotBuilder.addMark ([], .empty) :=
    SnapshotBuilder.start.part_run SnapshotBuilder.marks_apply steps
  calc (ofSteps steps).bookmarks
      = (SnapshotBuilder.start.run steps).marks.1 := rfl
    _ = firstOccurrences (steps.filterMap BuildStep.bookmark?) := by
        rw [hmarks, SnapshotBuilder.foldl_addMark _ fun path => ?_, firstOccurrences]
        exact iff_of_false Bool.false_ne_true List.not_mem_nil

/-- **What a snapshot knows of a file** is what the last note with its path says. -/
theorem find?_metadata_ofSteps (steps : List BuildStep) (path : String) :
    (ofSteps steps).metadata.find? path =
      (steps.filterMap BuildStep.note?).reverse.lookup path := by
  have hmetadata : (ofSteps steps).metadata =
      (steps.filterMap BuildStep.note?).foldl SnapshotBuilder.setKnown .empty :=
    SnapshotBuilder.start.part_run SnapshotBuilder.metadata_apply steps
  rw [hmetadata, SnapshotBuilder.find?_foldl_setKnown]

theorem nodup_bookmarks_ofSteps (steps : List BuildStep) : (ofSteps steps).bookmarks.Nodup := by
  rw [bookmarks_ofSteps]
  exact nodup_firstOccurrences _

/-- **The link graph of a snapshot** counts the links one by one. -/
theorem links_ofSteps (steps : List BuildStep) :
    (ofSteps steps).links =
      .ofCounts ((BuildStep.links steps).foldl SnapshotBuilder.countLink .empty) :=
  congrArg LinkGraph.ofCounts (SnapshotBuilder.start.part_run SnapshotBuilder.links_apply steps)

end Snapshot

end NoteVault
