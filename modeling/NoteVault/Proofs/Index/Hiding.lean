import Mathlib.Data.List.Basic
import NoteVault.Dashboard
import NoteVault.Proofs.Collation.Preorder
import NoteVault.Proofs.Index.Contents
import NoteVault.Proofs.Query.Chain
import NoteVault.Proofs.Tag.Search
import NoteVault.Tag.Completion
import NoteVault.Tag.Summary

/-!
# Hidden files do not show

Rules hide files from everything that an index is asked.  This is a statement
about two snapshots: where they differ in nothing but hidden files, folders and
links (`SameShown`), all that is read off their indexes is the same (`SameView`),
and so are the answers (`SameAnswers`).  It is also one about each single index:
no list of files that it gives holds a hidden one (`HidesWell`).
-/

namespace NoteVault

open Query

/-! ## Snapshots that differ in what is hidden -/

namespace Snapshot

/-- The entries of the files that no rule hides, in order. -/
def shownEntries (s : Snapshot) (rules : Exclusion) : List SnapshotEntry :=
  s.entries.filter fun e => (e.record? s.metadata).any fun file => !rules.hides file

/-- **Snapshots that show the same**: the files that are not hidden have the same
entries in the same order, and the same is known of them. -/
structure SameShown (rules : Exclusion) (s s' : Snapshot) : Prop where
  entries : s.shownEntries rules = s'.shownEntries rules
  metadata : ∀ e ∈ s.shownEntries rules,
    s.metadata.find? e.path = s'.metadata.find? e.path

theorem shown_eq_filterMap (s : Snapshot) (rules : Exclusion) :
    s.shown rules = (s.shownEntries rules).filterMap (SnapshotEntry.record? s.metadata) := by
  rw [shown, records, shownEntries, List.filter_filterMap, List.filterMap_filter]
  refine List.filterMap_congr fun e _ => ?_
  cases e.record? s.metadata with
  | none => rfl
  | some file => cases hhides : rules.hides file <;> simp [hhides]

theorem SameShown.shown_eq {rules : Exclusion} {s s' : Snapshot} (h : SameShown rules s s') :
    s.shown rules = s'.shown rules := by
  rw [shown_eq_filterMap, shown_eq_filterMap, ← h.entries]
  refine List.filterMap_congr fun e he => ?_
  cases e with
  | folder path => rfl
  | file path stat =>
    have hknown : s.metadata.find? path = s'.metadata.find? path := h.metadata _ he
    rw [SnapshotEntry.record?, SnapshotEntry.record?, hknown]

end Snapshot

namespace VaultIndex

/-! ## What two indexes show -/

/-- Two indexes agree in everything that shows of files and tags. -/
structure SameView (a b : VaultIndex) : Prop where
  filteredFiles : a.filteredFiles = b.filteredFiles
  filesIn : ∀ c, a.filesIn c = b.filesIn c
  tagIndex : a.tagIndex = b.tagIndex
  tagNames : a.tagNames = b.tagNames
  record? : ∀ path, a.record? path = b.record? path

variable [Collator]

/-- Two indexes answer alike: queries, searches by tags in the notes, the list of
the tags, and the completion of a tag. -/
structure SameAnswers (a b : VaultIndex) : Prop where
  evaluate : ∀ ctx terms,
    Query.evaluate ctx terms a.filteredFiles = Query.evaluate ctx terms b.filteredFiles
  search : ∀ query, Tag.search query a.notes = Tag.search query b.notes
  summary : ∀ order, Tag.summary a order = Tag.summary b order
  suggest : ∀ query cursor,
    Tag.suggest query cursor a.tagNames = Tag.suggest query cursor b.tagNames

theorem SameView.sameAnswers {a b : VaultIndex} (h : SameView a b) : SameAnswers a b where
  evaluate := fun ctx terms => by rw [h.filteredFiles]
  search := fun query => by rw [notes, notes, h.filesIn]
  summary := fun order => by rw [Tag.summary, Tag.summary, h.tagIndex]
  suggest := fun query cursor => by rw [h.tagNames]

omit [Collator] in
/-- The tags of an index are filled from its files alone. -/
theorem tagIndex_foldl_addFile (files : List FileRecord) (index : VaultIndex) :
    (files.foldl addFile index).tagIndex =
      files.foldl (fun tags file => file.tags.foldl (addToTag file) tags) index.tagIndex := by
  induction files generalizing index with
  | nil => rfl
  | cons file files ih => rw [List.foldl_cons, ih]; rfl

/-- What an index shows depends on the files that show. -/
theorem sameView_of_shown_eq {rules : Exclusion} {s s' : Snapshot}
    (h : s.shown rules = s'.shown rules) : SameView (classify s rules) (classify s' rules) := by
  have htags : (classify s rules).tagIndex = (classify s' rules).tagIndex := by
    rw [classify_tagIndex, classify_tagIndex, gathered, gathered, tagIndex_foldl_addFile,
      tagIndex_foldl_addFile, h]
  constructor
  · rw [classify_filteredFiles, classify_filteredFiles, h]
  · intro c
    rw [classify_filesIn, classify_filesIn, h]
  · exact htags
  · rw [classify_tagNames, classify_tagNames, htags]
  · intro path
    rw [classify_record?, classify_record?, h]

end VaultIndex

/-! ## Lists without hidden files -/

/-- No file of a list is hidden. -/
def Exclusion.HidesNone (rules : Exclusion) (files : List FileRecord) : Prop :=
  ∀ file ∈ files, rules.hides file = false

theorem Exclusion.HidesNone.of_subset {rules : Exclusion} {files part : List FileRecord}
    (h : rules.HidesNone files) (hpart : part ⊆ files) : rules.HidesNone part :=
  fun file hfile => h file (hpart hfile)

theorem Dashboard.mostRecent_subset (files : List FileRecord) (limit : Nat) :
    mostRecent files limit ⊆ files :=
  List.Subset.trans (List.take_subset _ _) (Tag.recentFirst_perm files).subset

namespace VaultIndex

section Collated

variable [Collator]

/-- **No answer of an index holds a hidden file**: neither a query of the files
that show, nor a search by tags in the notes, nor the files of a category, the
record of a path, the files at either end of a link, and no list of the
overview. -/
structure HidesWell (rules : Exclusion) (index : VaultIndex) : Prop where
  evaluate : ∀ ctx terms,
    rules.HidesNone (Query.evaluate ctx terms index.filteredFiles).files
  matched : ∀ query, rules.HidesNone (Tag.search query index.notes).matched
  groups : ∀ query, ∀ group ∈ (Tag.search query index.notes).groups,
    rules.HidesNone group.files
  filesIn : ∀ c, rules.HidesNone (index.filesIn c)
  record? : ∀ path file, index.record? path = some file → rules.hides file = false
  backlinks : ∀ path links, rules.HidesNone (index.backlinks path links)
  outgoingLinks : ∀ path links, rules.HidesNone (index.outgoingLinks path links)
  dashboard : ∀ bookmarks lastOpened limit,
    ∀ list ∈ (Dashboard.ofIndex index bookmarks lastOpened limit).sections,
      rules.HidesNone list.2

/-- It is enough that the files that show, those of a category and those of a path
are not hidden; all else is made of these. -/
theorem hidesWell_of_lists {rules : Exclusion} {index : VaultIndex}
    (hfiltered : rules.HidesNone index.filteredFiles)
    (hfilesIn : ∀ c, rules.HidesNone (index.filesIn c))
    (hrecord : ∀ path file, index.record? path = some file → rules.hides file = false) :
    HidesWell rules index := by
  have hrecords : ∀ paths, rules.HidesNone (index.records paths) := by
    intro paths file hfile
    obtain ⟨path, _, hpath⟩ := List.mem_filterMap.1 hfile
    exact hrecord path file hpath
  have hrecent : ∀ {files} limit, rules.HidesNone files →
      rules.HidesNone (Dashboard.mostRecent files limit) :=
    fun limit h => h.of_subset (Dashboard.mostRecent_subset _ limit)
  constructor
  · intro ctx terms
    rw [files_evaluate]
    exact hfiltered.of_subset List.filter_sublist.subset
  · exact fun query => (hfilesIn .notes).of_subset (Tag.matched_search_subset query _)
  · exact fun query group hgroup => (hfilesIn .notes).of_subset (Tag.files_group_subset hgroup)
  · exact hfilesIn
  · exact hrecord
  · exact fun path links => hrecords _
  · exact fun path links => hrecords _
  · intro bookmarks lastOpened limit list hlist
    simp only [Dashboard.ofIndex, List.cons_append, List.mem_cons, List.mem_append,
      List.mem_map, List.not_mem_nil, or_false] at hlist
    rcases hlist with rfl | rfl | ⟨c, _, rfl⟩ | rfl
    · exact (hrecords lastOpened).of_subset (List.take_subset _ _)
    · exact hrecent limit hfiltered
    · exact hrecent limit (hfilesIn c)
    · exact hrecent limit (hrecords bookmarks)

omit [Collator] in
theorem hidesNone_shown (s : Snapshot) (rules : Exclusion) : rules.HidesNone (s.shown rules) := by
  intro file hfile
  have hshown := (List.mem_filter.1 hfile).2
  rwa [Bool.not_eq_true'] at hshown

theorem classify_hidesWell (s : Snapshot) (rules : Exclusion) :
    HidesWell rules (classify s rules) := by
  apply hidesWell_of_lists
  · rw [classify_filteredFiles]
    exact hidesNone_shown s rules
  · intro c
    rw [classify_filesIn]
    exact (hidesNone_shown s rules).of_subset List.filter_sublist.subset
  · intro path file h
    rw [classify_record?] at h
    exact hidesNone_shown s rules file (List.mem_filter.1 (List.mem_of_getLast? h)).1

/-- **Hidden files do not show.**  Snapshots that differ in hidden files, folders
and links only have indexes that show the same and answer alike; and no answer of
an index holds a hidden file. -/
theorem hidden_files_do_not_show (rules : Exclusion) :
    (∀ s s' : Snapshot, s.SameShown rules s' →
        (classify s rules).SameView (classify s' rules) ∧
          (classify s rules).SameAnswers (classify s' rules)) ∧
      ∀ s : Snapshot, (classify s rules).HidesWell rules := by
  refine ⟨fun s s' h => ?_, fun s => classify_hidesWell s rules⟩
  have hview := sameView_of_shown_eq h.shown_eq
  exact ⟨hview, hview.sameAnswers⟩

end Collated

/-- Rules that hide a folder. -/
def hideSecret : Exclusion := .ofLists [] ["secret"]

/-- A note that shows. -/
def openNote : SnapshotEntry := .file "a.md" ⟨7, none, some 5⟩

/-- A vault with a hidden note, which has a tag of its own. -/
def withSecret : Snapshot :=
  { Snapshot.empty with
    entries := [.folder "secret", .file "secret/s.md" ⟨9, none, some 6⟩, openNote]
    metadata := (NameMap.empty.insert "a.md" ⟨["#open"], none⟩).insert "secret/s.md"
      ⟨["#hush"], none⟩ }

/-- The same vault without what is hidden. -/
def withoutSecret : Snapshot :=
  { Snapshot.empty with
    entries := [openNote]
    metadata := NameMap.empty.insert "a.md" ⟨["#open"], none⟩ }

attribute [local instance] Collation.inLowercase

/-- The tag of the hidden note is not listed, and nothing hidden is found by it. -/
theorem hidden_files_do_not_show_secret :
    withSecret.SameShown hideSecret withoutSecret ∧
      withSecret.entries ≠ withoutSecret.entries ∧
      (∀ order, Tag.summary (classify withSecret hideSecret) order =
        Tag.summary (classify withoutSecret hideSecret) order) ∧
      hideSecret.HidesNone (Tag.search "#hush" (classify withSecret hideSecret).notes).matched := by
  have hshown : withSecret.shownEntries hideSecret = [openNote] := by decide +kernel
  have hshown' : withoutSecret.shownEntries hideSecret = [openNote] := by decide +kernel
  have hsame : withSecret.SameShown hideSecret withoutSecret := by
    refine ⟨hshown.trans hshown'.symm, fun e he => ?_⟩
    rw [hshown] at he
    obtain rfl := List.mem_singleton.1 he
    rfl
  obtain ⟨htwo, hone⟩ := hidden_files_do_not_show hideSecret
  exact ⟨hsame, by decide, (htwo _ _ hsame).2.summary, (hone withSecret).matched "#hush"⟩

end VaultIndex

end NoteVault
