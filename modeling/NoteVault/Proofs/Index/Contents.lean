import NoteVault.Index.Classify

/-!
# What an index holds

`VaultIndex.classify` fills its collections entry by entry.  Here each of them is
read off the snapshot at once: all files are the records of its file entries
(`Snapshot.records`), the files that show are those that no rule hides
(`Snapshot.shown`), the files of a category or of a tag are a part of these, and
the record of a path is the last one of these that has it.
-/

namespace NoteVault

/-- The record of an entry that is a file. -/
def SnapshotEntry.record? (metadata : NameMap Metadata) : SnapshotEntry → Option FileRecord
  | .file path stat => some (FileRecord.ofParts path stat (metadata.find? path))
  | .folder _ => none

/-- The folder of an entry; the vault itself does not count as one. -/
def SnapshotEntry.folder? : SnapshotEntry → Option String
  | .file _ _ => none
  | .folder path => if path = "" ∨ path = "/" then none else some path

namespace Snapshot

/-- The records of all files, in the order of the snapshot. -/
def records (s : Snapshot) : List FileRecord :=
  s.entries.filterMap (SnapshotEntry.record? s.metadata)

/-- The records that no rule hides. -/
def shown (s : Snapshot) (rules : Exclusion) : List FileRecord :=
  s.records.filter fun file => !rules.hides file

/-- The folders of a snapshot, in order. -/
def folders (s : Snapshot) : List String := s.entries.filterMap SnapshotEntry.folder?

end Snapshot

namespace VaultIndex

/-! ## Taking in entries -/

theorem foldl_addEntry (metadata : NameMap Metadata) (entries : List SnapshotEntry)
    (index : VaultIndex) :
    entries.foldl (addEntry metadata) index =
      { index with
        allFiles := index.allFiles ++ entries.filterMap (SnapshotEntry.record? metadata)
        folders := index.folders ++ entries.filterMap SnapshotEntry.folder? } := by
  induction entries generalizing index with
  | nil => simp
  | cons e entries ih =>
    rw [List.foldl_cons, ih, List.filterMap_cons, List.filterMap_cons]
    cases e with
    | file path stat => simp [addEntry, SnapshotEntry.record?, SnapshotEntry.folder?]
    | folder path =>
      by_cases h : path = "" ∨ path = "/"
      · simp [addEntry, SnapshotEntry.record?, SnapshotEntry.folder?, h]
      · simp [addEntry, SnapshotEntry.record?, SnapshotEntry.folder?, h]

/-! ## Taking in files -/

theorem allFiles_foldl_addFile (files : List FileRecord) (index : VaultIndex) :
    (files.foldl addFile index).allFiles = index.allFiles := by
  induction files generalizing index with
  | nil => rfl
  | cons file files ih => rw [List.foldl_cons, ih]; rfl

theorem folders_foldl_addFile (files : List FileRecord) (index : VaultIndex) :
    (files.foldl addFile index).folders = index.folders := by
  induction files generalizing index with
  | nil => rfl
  | cons file files ih => rw [List.foldl_cons, ih]; rfl

theorem filteredFiles_foldl_addFile (files : List FileRecord) (index : VaultIndex) :
    (files.foldl addFile index).filteredFiles = index.filteredFiles ++ files := by
  induction files generalizing index with
  | nil => rw [List.append_nil]; rfl
  | cons file files ih =>
    rw [List.foldl_cons, ih]
    show (index.filteredFiles ++ [file]) ++ files = _
    rw [List.append_assoc]
    rfl

/-- Each list of a category grows by the files of that category. -/
theorem byCategory_foldl_addFile (files : List FileRecord) (index : VaultIndex) :
    (files.foldl addFile index).byCategory =
      index.byCategory.map fun (c, known) => (c, known ++ files.filter (·.category = c)) := by
  induction files generalizing index with
  | nil => simp
  | cons file files ih =>
    rw [List.foldl_cons, ih]
    show (addToCategory file index.byCategory).map _ = _
    rw [addToCategory, List.map_map]
    congr 1
    funext (c, known)
    by_cases h : c = file.category
    · simp [h]
    · simp [h, Ne.symm h]

theorem record?_foldl_addFile (path : String) (files : List FileRecord) (index : VaultIndex) :
    (files.foldl addFile index).record? path =
      (files.filter (·.path = path)).getLast?.or (index.record? path) := by
  induction files generalizing index with
  | nil => rfl
  | cons file files ih =>
    have hstep : (index.addFile file).record? path =
        if path = file.path then some file else index.record? path :=
      NameMap.find?_insert index.byPath file.path file path
    rw [List.foldl_cons, ih, hstep, List.filter_cons]
    by_cases h : file.path = path
    · rw [if_pos h.symm, if_pos (decide_eq_true h), List.getLast?_cons]
      cases (files.filter (·.path = path)).getLast? <;> rfl
    · rw [if_neg (Ne.symm h), if_neg (by simpa using h)]

/-! ## Taking in tags -/

/-- A file goes once to each of its tags. -/
theorem find?_foldl_addToTag (file : FileRecord) (tag : String) {tags : List String}
    (h : tags.Nodup) (known : NameMap (List FileRecord)) :
    (tags.foldl (addToTag file) known).find? tag =
      if tag ∈ tags then some ((known.find? tag).getD [] ++ [file]) else known.find? tag := by
  induction tags generalizing known with
  | nil => rfl
  | cons first tags ih =>
    obtain ⟨hfirst, htags⟩ := List.nodup_cons.1 h
    rw [List.foldl_cons, ih htags, addToTag, NameMap.find?_alter]
    by_cases htag : tag = first
    · subst htag
      rw [if_neg hfirst, if_pos rfl, if_pos List.mem_cons_self]
    · rw [if_neg htag]
      simp only [List.mem_cons, htag, false_or]

theorem find?_tagIndex_addFile {file : FileRecord} (h : file.tags.Nodup) (index : VaultIndex)
    (tag : String) :
    (index.addFile file).tagIndex.find? tag =
      if file.hasTag tag then some ((index.tagIndex.find? tag).getD [] ++ [file])
      else index.tagIndex.find? tag := by
  rw [addFile, find?_foldl_addToTag file tag h, FileRecord.hasTag]
  by_cases htag : tag ∈ file.tags
  · rw [if_pos htag, if_pos (List.contains_iff_mem.2 htag)]
  · rw [if_neg htag, if_neg (mt List.contains_iff_mem.1 htag)]

theorem tagged_foldl_addFile (tag : String) {files : List FileRecord}
    (h : ∀ file ∈ files, file.tags.Nodup) (index : VaultIndex) :
    ((files.foldl addFile index).tagIndex.find? tag).getD [] =
      (index.tagIndex.find? tag).getD [] ++ files.filter (·.hasTag tag) := by
  induction files generalizing index with
  | nil => exact (List.append_nil _).symm
  | cons file files ih =>
    obtain ⟨hfile, hfiles⟩ := List.forall_mem_cons.1 h
    rw [List.foldl_cons, ih hfiles, find?_tagIndex_addFile hfile, List.filter_cons]
    by_cases htag : file.hasTag tag = true
    · rw [if_pos htag, if_pos htag, Option.getD_some, List.append_assoc]
      rfl
    · rw [if_neg htag, if_neg htag]

/-- No entry of the tags is without a file. -/
theorem find?_tagIndex_foldl_addFile_ne_nil (tag : String) {files : List FileRecord}
    (h : ∀ file ∈ files, file.tags.Nodup) {index : VaultIndex}
    (hindex : index.tagIndex.find? tag ≠ some []) :
    (files.foldl addFile index).tagIndex.find? tag ≠ some [] := by
  induction files generalizing index with
  | nil => exact hindex
  | cons file files ih =>
    obtain ⟨hfile, hfiles⟩ := List.forall_mem_cons.1 h
    rw [List.foldl_cons]
    refine ih hfiles ?_
    rw [find?_tagIndex_addFile hfile]
    by_cases htag : file.hasTag tag = true
    · rw [if_pos htag]
      exact fun hnil => List.append_ne_nil_of_right_ne_nil _ (List.cons_ne_nil _ _)
        (Option.some.inj hnil)
    · rw [if_neg htag]
      exact hindex

/-! ## The whole index -/

/-- The index before its tag names are put in order: the files that show, taken
in one by one. -/
def gathered (s : Snapshot) (rules : Exclusion) : VaultIndex :=
  (s.shown rules).foldl addFile { empty with allFiles := s.records, folders := s.folders }

theorem foldl_unless {α β : Type} (hidden : α → Bool) (f : β → α → β) (as : List α) (b : β) :
    as.foldl (fun b a => if hidden a then b else f b a) b =
      (as.filter fun a => !hidden a).foldl f b := by
  rw [List.foldl_filter]
  congr 1
  funext b a
  cases hidden a <;> rfl

/-- The records of a snapshot hold each tag once. -/
theorem nodup_tags_of_mem_records {s : Snapshot} {file : FileRecord} (h : file ∈ s.records) :
    file.tags.Nodup := by
  obtain ⟨e, _, hrecord⟩ := List.mem_filterMap.1 h
  cases e with
  | folder path => cases hrecord
  | file path stat =>
    obtain rfl := Option.some.inj hrecord
    exact FileRecord.tags_nodup path stat _

theorem nodup_tags_of_mem_shown {s : Snapshot} {rules : Exclusion} {file : FileRecord}
    (h : file ∈ s.shown rules) : file.tags.Nodup :=
  nodup_tags_of_mem_records (List.mem_filter.1 h).1

variable [Collator]

/-- **The index of a snapshot**, from its records and its folders. -/
theorem classify_eq (s : Snapshot) (rules : Exclusion) :
    classify s rules =
      { gathered s rules with tagNames := collated (gathered s rules).tagIndex.keys } := by
  have hfound : s.entries.foldl (addEntry s.metadata) empty =
      { empty with allFiles := s.records, folders := s.folders } :=
    foldl_addEntry s.metadata s.entries empty
  rw [classify, hfound]
  simp only [foldl_unless]
  rfl

/-- An index depends on the records and the folders alone. -/
theorem classify_congr {s s' : Snapshot} (rules : Exclusion) (hrecords : s.records = s'.records)
    (hfolders : s.folders = s'.folders) : classify s rules = classify s' rules := by
  rw [classify_eq, classify_eq, gathered, gathered, Snapshot.shown, Snapshot.shown, hrecords,
    hfolders]

theorem classify_allFiles (s : Snapshot) (rules : Exclusion) :
    (classify s rules).allFiles = s.records := by
  rw [classify_eq]
  exact allFiles_foldl_addFile _ _

theorem classify_folders (s : Snapshot) (rules : Exclusion) :
    (classify s rules).folders = s.folders := by
  rw [classify_eq]
  exact folders_foldl_addFile _ _

theorem classify_filteredFiles (s : Snapshot) (rules : Exclusion) :
    (classify s rules).filteredFiles = s.shown rules := by
  rw [classify_eq]
  exact filteredFiles_foldl_addFile _ _

theorem classify_byCategory (s : Snapshot) (rules : Exclusion) :
    (classify s rules).byCategory =
      FileCategory.all.map fun c => (c, (s.shown rules).filter (·.category = c)) := by
  rw [classify_eq]
  show (gathered s rules).byCategory = _
  rw [gathered, byCategory_foldl_addFile]
  rfl

/-- **The files of a category** are those of the files that show which have it. -/
theorem classify_filesIn (s : Snapshot) (rules : Exclusion) (c : FileCategory) :
    (classify s rules).filesIn c = (s.shown rules).filter (·.category = c) := by
  rw [filesIn, classify_byCategory]
  cases c <;> rfl

/-- **The record of a path** is the last one of the files that show which has
it. -/
theorem classify_record? (s : Snapshot) (rules : Exclusion) (path : String) :
    (classify s rules).record? path = ((s.shown rules).filter (·.path = path)).getLast? := by
  have hstart : ({ empty with allFiles := s.records, folders := s.folders } : VaultIndex).record?
      path = none := NameMap.find?_empty path
  rw [classify_eq]
  show (gathered s rules).record? path = _
  rw [gathered, record?_foldl_addFile, hstart, Option.or_none]

theorem classify_tagIndex (s : Snapshot) (rules : Exclusion) :
    (classify s rules).tagIndex = (gathered s rules).tagIndex := by
  rw [classify_eq]

/-- **The files of a tag** are those of the files that show which carry it. -/
theorem classify_tagged (s : Snapshot) (rules : Exclusion) (tag : String) :
    ((classify s rules).tagIndex.find? tag).getD [] =
      (s.shown rules).filter (·.hasTag tag) := by
  rw [classify_tagIndex, gathered, tagged_foldl_addFile tag fun _ => nodup_tags_of_mem_shown]
  rfl

theorem classify_tagged_ne_nil (s : Snapshot) (rules : Exclusion) (tag : String) :
    (classify s rules).tagIndex.find? tag ≠ some [] := by
  rw [classify_tagIndex, gathered]
  exact find?_tagIndex_foldl_addFile_ne_nil tag (fun _ => nodup_tags_of_mem_shown) nofun

theorem classify_tagNames (s : Snapshot) (rules : Exclusion) :
    (classify s rules).tagNames = collated (classify s rules).tagIndex.keys := by
  rw [classify_eq]

theorem collated_perm (names : List String) : (collated names).Perm names :=
  List.mergeSort_perm names _

/-- The names of the tags are those that have a list, in whatever order they are shown. -/
theorem classify_tagNames_perm (s : Snapshot) (rules : Exclusion) :
    (classify s rules).tagNames.Perm (classify s rules).tagIndex.keys := by
  rw [classify_tagNames]
  exact collated_perm _

end VaultIndex

end NoteVault
