import Mathlib.Data.List.Basic
import NoteVault.Proofs.Index.Contents

/-!
# Looking up paths in an index

A path leads to a file that shows, if there is one with this path.  So the records of
a list of paths are found at those paths which lead somewhere
(`map_path_records_classify`), and where no two files have the same path, they are
those files that show and have a path in the list (`length_records_classify`).
-/

namespace NoteVault

namespace Snapshot

/-- No two files have the same path. -/
def DistinctPaths (s : Snapshot) : Prop := (s.files.map Prod.fst).Nodup

theorem map_path_records (s : Snapshot) : s.records.map FileRecord.path = s.files.map Prod.fst := by
  rw [records, files, List.map_filterMap, List.map_filterMap]
  refine List.filterMap_congr fun e _ => ?_
  cases e <;> rfl

theorem DistinctPaths.records {s : Snapshot} (h : s.DistinctPaths) :
    (s.records.map FileRecord.path).Nodup := by
  rw [map_path_records]
  exact h

theorem DistinctPaths.shown {s : Snapshot} (h : s.DistinctPaths) (rules : Exclusion) :
    ((s.shown rules).map FileRecord.path).Nodup :=
  h.records.sublist (List.filter_sublist.map _)

end Snapshot

/-- **Counting paths is counting the files at these paths**, where each path is given
once and leads to one file. -/
theorem length_filter_contains_path {files : List FileRecord} {paths : List String}
    (hfiles : (files.map FileRecord.path).Nodup) (hpaths : paths.Nodup)
    (hfound : ∀ path ∈ paths, path ∈ files.map FileRecord.path) :
    (files.filter fun file => paths.contains file.path).length = paths.length := by
  have hnodup : ((files.filter fun file => paths.contains file.path).map FileRecord.path).Nodup :=
    hfiles.sublist (List.filter_sublist.map _)
  have hsame : ∀ path,
      path ∈ (files.filter fun file => paths.contains file.path).map FileRecord.path ↔
        path ∈ paths := by
    intro path
    rw [List.mem_map]
    constructor
    · rintro ⟨file, hfile, rfl⟩
      exact List.contains_iff_mem.1 (List.mem_filter.1 hfile).2
    · intro hpath
      obtain ⟨file, hfile, rfl⟩ := List.mem_map.1 (hfound path hpath)
      exact ⟨file, List.mem_filter.2 ⟨hfile, List.contains_iff_mem.2 hpath⟩, rfl⟩
  have hperm := (List.perm_ext_iff_of_nodup hnodup hpaths).2 hsame
  rw [← hperm.length_eq, List.length_map]

namespace VaultIndex

variable [Collator] {s : Snapshot} {rules : Exclusion}

theorem isSome_classify_record?_iff {path : String} :
    ((classify s rules).record? path).isSome = true ↔
      ∃ file ∈ s.shown rules, file.path = path := by
  rw [classify_record?, List.getLast?_isSome]
  constructor
  · intro h
    obtain ⟨file, hfile⟩ := List.exists_mem_of_ne_nil _ h
    obtain ⟨hshown, hpath⟩ := List.mem_filter.1 hfile
    exact ⟨file, hshown, of_decide_eq_true hpath⟩
  · rintro ⟨file, hshown, hpath⟩
    exact List.ne_nil_of_mem (List.mem_filter.2 ⟨hshown, decide_eq_true hpath⟩)

theorem mem_shown_of_classify_record? {path : String} {file : FileRecord}
    (h : (classify s rules).record? path = some file) :
    file ∈ s.shown rules ∧ file.path = path := by
  rw [classify_record?] at h
  obtain ⟨hfile, hpath⟩ := List.mem_filter.1 (List.mem_of_getLast? h)
  exact ⟨hfile, of_decide_eq_true hpath⟩

/-- Where two paths lead to files, they lead to the same file only if they are the
same. -/
theorem mem_classify_records_iff {path : String} {file : FileRecord}
    (h : (classify s rules).record? path = some file) {paths : List String} :
    file ∈ (classify s rules).records paths ↔ path ∈ paths := by
  rw [records, List.mem_filterMap]
  constructor
  · rintro ⟨other, hother, hrecord⟩
    rw [← (mem_shown_of_classify_record? h).2, (mem_shown_of_classify_record? hrecord).2]
    exact hother
  · intro hpath
    exact ⟨path, hpath, h⟩

/-- The records of paths have these paths, those that lead to files. -/
theorem map_path_records_classify (paths : List String) :
    ((classify s rules).records paths).map FileRecord.path =
      paths.filter fun path => ((classify s rules).record? path).isSome := by
  induction paths with
  | nil => rfl
  | cons path paths ih =>
    rw [records, List.filterMap_cons, List.filter_cons]
    cases hrecord : (classify s rules).record? path with
    | none => exact ih
    | some file =>
      have hpath : file.path = path := (mem_shown_of_classify_record? hrecord).2
      rw [Option.isSome_some, if_pos rfl, List.map_cons, hpath]
      exact congrArg _ ih

/-- **Counting records is counting files that show**, where no path stands for two of
them. -/
theorem length_records_classify (hs : s.DistinctPaths) {paths : List String}
    (hpaths : paths.Nodup) :
    ((classify s rules).records paths).length =
      ((s.shown rules).filter fun file => paths.contains file.path).length := by
  have hnodup : (paths.filter fun path => ((classify s rules).record? path).isSome).Nodup :=
    hpaths.sublist List.filter_sublist
  have hcount := length_filter_contains_path (hs.shown rules) hnodup fun path hpath => by
    obtain ⟨file, hfile, rfl⟩ := isSome_classify_record?_iff.1 (List.mem_filter.1 hpath).2
    exact List.mem_map_of_mem hfile
  rw [← List.length_map FileRecord.path, map_path_records_classify, ← hcount]
  -- A file that shows has a path that leads somewhere.
  refine congrArg List.length (List.filter_congr fun file hfile => ?_)
  have hsome : ((classify s rules).record? file.path).isSome = true :=
    isSome_classify_record?_iff.2 ⟨file, hfile, rfl⟩
  rw [Bool.eq_iff_iff, List.contains_iff_mem, List.contains_iff_mem, List.mem_filter]
  exact and_iff_left hsome

end VaultIndex

end NoteVault
