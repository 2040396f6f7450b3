import NoteVault.Proofs.Collation.Preorder
import NoteVault.Proofs.Index.Records
import NoteVault.Proofs.Query.Complement

/-!
# The collections of an index agree

One pass over the files fills the lists of an index: all files, the files that
show, those of each category, those of each tag, and the file of each path.
`Represents` says what each of them is in terms of the files that show, and
`classify_represents` that this holds for every snapshot and all rules, where
collation is a total preorder.  Nothing is assumed of the snapshot: a path may stand in it several times, a file may
spell a tag in several ways, and a category may be empty.
-/

namespace NoteVault

open Collation Query Unicode

/-! ## The tags of a file -/

/-- The tags that a note writes, in its text and in its properties. -/
def Metadata.writtenTags (known : Metadata) : List String :=
  known.tags ++ (known.frontmatter.map FileRecord.propertyTags).getD []

/-- The tags written in the file with a given path. -/
def Snapshot.writtenTags (s : Snapshot) (path : String) : List String :=
  ((s.metadata.find? path).map Metadata.writtenTags).getD []

/-- A written tag as it is looked up; `none` for a tag without a name. -/
def FileRecord.lookupTag? (written : String) : Option String :=
  (displayTag? written).map lowercase

theorem FileRecord.path_ofParts (path : String) (stat : FileStat) (known : Option Metadata) :
    (ofParts path stat known).path = path := rfl

theorem FileRecord.tags_ofParts (path : String) (stat : FileStat) (known : Option Metadata) :
    (ofParts path stat known).tags =
      firstOccurrences (((known.map displayTagsOf).getD []).map lowercase) := rfl

/-- A file carries a tag exactly when the tag is written in it, in some case, with
its number sign or without it, and in its text or in its properties. -/
theorem FileRecord.hasTag_ofParts (path : String) (stat : FileStat) (known : Option Metadata)
    (tag : String) :
    (ofParts path stat known).hasTag tag = true ↔
      ∃ written ∈ (known.map Metadata.writtenTags).getD [], lookupTag? written = some tag := by
  rw [hasTag, tags_ofParts, List.contains_iff_mem, mem_firstOccurrences, List.mem_map]
  cases known with
  | none => simp
  | some known =>
    have hdisplay : ∀ display, display ∈ displayTagsOf known ↔
        ∃ written ∈ known.writtenTags, displayTag? written = some display := by
      intro display
      rw [displayTagsOf, mem_firstOccurrences, List.mem_filterMap]
      rfl
    constructor
    · rintro ⟨display, hmem, rfl⟩
      obtain ⟨written, hwritten, hread⟩ := (hdisplay display).1 hmem
      exact ⟨written, hwritten, congrArg (Option.map lowercase) hread⟩
    · rintro ⟨written, hwritten, hread⟩
      obtain ⟨display, hmem, rfl⟩ := Option.map_eq_some_iff.1 hread
      exact ⟨display, (hdisplay display).2 ⟨written, hwritten, hmem⟩, rfl⟩

theorem Snapshot.exists_of_mem_records {s : Snapshot} {file : FileRecord} (h : file ∈ s.records) :
    ∃ path stat, file = FileRecord.ofParts path stat (s.metadata.find? path) := by
  obtain ⟨e, _, hrecord⟩ := List.mem_filterMap.1 h
  cases e with
  | folder path => cases hrecord
  | file path stat => exact ⟨path, stat, (Option.some.inj hrecord).symm⟩

/-! ## The whole index -/

namespace VaultIndex

section Collated

variable [Collator]

/-- **An index represents the files of a snapshot** that rules leave to show. -/
structure Represents (s : Snapshot) (rules : Exclusion) (index : VaultIndex) : Prop where
  /-- All files are the file entries, in order. -/
  allFiles : index.allFiles = s.entries.filterMap (SnapshotEntry.record? s.metadata)
  /-- The files that show are those that no rule hides. -/
  filteredFiles : index.filteredFiles = index.allFiles.filter fun file => !rules.hides file
  /-- There is one list for each category, and it holds the files of that category. -/
  byCategory : index.byCategory =
    FileCategory.all.map fun c => (c, index.filteredFiles.filter (·.category = c))
  filesIn : ∀ c, index.filesIn c = index.filteredFiles.filter (·.category = c)
  /-- The lists of the categories share out the places of the files that show. -/
  shared : Shared index.filteredFiles index.filesIn
  /-- Asking for a category gives the files of its list. -/
  typeFilter : ∀ ctx c,
    (evaluate ctx [.type (.category c)] index.filteredFiles).files = index.filesIn c
  /-- What a file carries is what is written in it. -/
  hasTag : ∀ file ∈ index.allFiles, ∀ tag, file.hasTag tag = true ↔
    ∃ written ∈ s.writtenTags file.path, FileRecord.lookupTag? written = some tag
  /-- The list of a tag holds the files that carry it, each place once. -/
  tagged : ∀ tag,
    (index.tagIndex.find? tag).getD [] = index.filteredFiles.filter (·.hasTag tag)
  /-- No tag is listed without a file. -/
  tagged_ne_nil : ∀ tag, index.tagIndex.find? tag ≠ some []
  /-- The names of the tags are those that are listed, in the order of collation. -/
  tagNames_perm : index.tagNames.Perm index.tagIndex.keys
  tagNames_collated : index.tagNames.Pairwise fun a b => (collate a b).isLE = true
  /-- A path has a record exactly when a file that shows has the path. -/
  isSome_record? : ∀ path, (index.record? path).isSome = true ↔
    ∃ file ∈ index.filteredFiles, file.path = path
  /-- The record of a path is such a file. -/
  record? : ∀ path file, index.record? path = some file →
    file ∈ index.filteredFiles ∧ file.path = path

theorem pairwise_collated [Std.TransCmp collate] (names : List String) :
    (collated names).Pairwise fun a b => (collate a b).isLE = true :=
  StableSort.pairwise_mergeSort collate names

/-- **The representation invariant**: the index of every snapshot represents its
files, whatever the rules hide. -/
theorem classify_represents [Std.TransCmp collate] (s : Snapshot) (rules : Exclusion) :
    Represents s rules (classify s rules) where
  allFiles := classify_allFiles s rules
  filteredFiles := by rw [classify_filteredFiles, classify_allFiles, Snapshot.shown]
  byCategory := by rw [classify_byCategory, classify_filteredFiles]
  filesIn := by
    intro c
    rw [classify_filesIn, classify_filteredFiles]
  shared := by
    rw [classify_filteredFiles, funext (classify_filesIn s rules)]
    exact shared_filter FileRecord.category .other (s.shown rules)
  typeFilter := by
    intro ctx c
    rw [files_evaluate_singleton, classify_filteredFiles, classify_filesIn]
    rfl
  hasTag := by
    intro file hfile tag
    rw [classify_allFiles] at hfile
    obtain ⟨path, stat, rfl⟩ := Snapshot.exists_of_mem_records hfile
    rw [FileRecord.hasTag_ofParts, FileRecord.path_ofParts, Snapshot.writtenTags]
  tagged := by
    intro tag
    rw [classify_tagged, classify_filteredFiles]
  tagged_ne_nil := classify_tagged_ne_nil s rules
  tagNames_perm := classify_tagNames_perm s rules
  tagNames_collated := by
    rw [classify_tagNames]
    exact pairwise_collated _
  isSome_record? := by
    intro path
    rw [classify_filteredFiles]
    exact isSome_classify_record?_iff
  record? := by
    intro path file h
    rw [classify_filteredFiles]
    exact mem_shown_of_classify_record? h

end Collated

attribute [local instance] inLowercase

/-- A note that spells a tag in two ways and lists it a third time, under a path that
stands for two files, and a hidden note. -/
def repeatedNote : Snapshot :=
  { Snapshot.empty with
    entries := [.file "a.md" ⟨1, none, some 5⟩, .folder "drafts",
      .file "drafts/d.md" ⟨2, none, none⟩, .file "a.md" ⟨3, none, some 6⟩]
    metadata := (NameMap.empty.insert "a.md" ⟨["#plan", "#Idea", "#idea"],
      some [(.string "tags", .sequence [.string "IDEA"])]⟩).insert "drafts/d.md"
      ⟨["#draft"], none⟩ }

/-- Both files of the path carry each tag once, and the tag of the hidden note is not
listed. -/
theorem classify_represents_repeatedNote :
    let index := classify repeatedNote (.ofLists [] ["drafts"])
    Std.TransCmp collate ∧ Represents repeatedNote (.ofLists [] ["drafts"]) index ∧
      index.tagNames.Perm ["#idea", "#plan"] ∧
      ((index.tagIndex.find? "#idea").getD []).map FileRecord.size = [1, 3] := by
  intro index
  have hrepresents := classify_represents repeatedNote (.ofLists [] ["drafts"])
  have hkeys : index.tagIndex.keys = ["#idea", "#plan"] := by decide +kernel
  have hsizes : ((index.filteredFiles.filter (·.hasTag "#idea")).map FileRecord.size) =
      [1, 3] := by decide +kernel
  refine ⟨inferInstance, hrepresents, hkeys ▸ hrepresents.tagNames_perm, ?_⟩
  rw [hrepresents.tagged, hsizes]

end VaultIndex

end NoteVault
