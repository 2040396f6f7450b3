import NoteVault.Tag.Search

/-!
# What a search by tags finds

A search goes through the notes once.  What it has found so far are notes that it
has gone through (`Found.Within`), so a search finds nothing but notes it is given,
among its matches (`matched_search_subset`) and in each of its groups
(`files_group_subset`).
-/

namespace NoteVault.Tag

theorem recentFirst_perm (files : List FileRecord) : (recentFirst files).Perm files :=
  List.mergeSort_perm files _

namespace Found

/-- All that has been found is among some notes. -/
structure Within (notes : List FileRecord) (found : Found) : Prop where
  matched : found.matched ⊆ notes
  groups : ∀ tag files, found.groups.find? tag = some files → files ⊆ notes

theorem within_addToGroups {notes : List FileRecord} {note : FileRecord} (hnote : note ∈ notes)
    (tags : List String) {groups : NameMap (List FileRecord)}
    (h : ∀ tag files, groups.find? tag = some files → files ⊆ notes) :
    ∀ tag files, (tags.foldl (addToGroup note) groups).find? tag = some files →
      files ⊆ notes := by
  induction tags generalizing groups with
  | nil => exact h
  | cons first tags ih =>
    refine ih fun tag files hfind => ?_
    rw [addToGroup, NameMap.find?_alter] at hfind
    by_cases htag : tag = first
    · rw [if_pos htag] at hfind
      obtain rfl := Option.some.inj hfind
      refine List.append_subset.2 ⟨?_, List.cons_subset.2 ⟨hnote, List.nil_subset _⟩⟩
      cases hknown : groups.find? first with
      | none => exact List.nil_subset _
      | some known => exact h first known hknown
    · rw [if_neg htag] at hfind
      exact h tag files hfind

/-- Taking in one of the notes keeps what has been found among them. -/
theorem Within.addNote {notes : List FileRecord} {note : FileRecord} (hnote : note ∈ notes)
    (wanted : Wanted) {found : Found} (h : Within notes found) :
    Within notes (found.addNote wanted note) := by
  rw [Found.addNote]
  split
  · exact ⟨List.append_subset.2 ⟨h.matched, List.cons_subset.2 ⟨hnote, List.nil_subset _⟩⟩,
      within_addToGroups hnote _ h.groups⟩
  · exact h

theorem within_foldl_addNote (wanted : Wanted) {notes rest : List FileRecord}
    (hrest : rest ⊆ notes) {found : Found} (h : Within notes found) :
    Within notes (rest.foldl (Found.addNote wanted) found) :=
  List.foldlRecOn rest _ h fun _ h _ hnote => h.addNote (hrest hnote) wanted

end Found

/-- What a search finds in its notes. -/
theorem within_search (wanted : Wanted) (notes : List FileRecord) :
    Found.Within notes (notes.foldl (Found.addNote wanted) ⟨[], .empty⟩) :=
  Found.within_foldl_addNote wanted (List.Subset.refl _) ⟨List.nil_subset _, nofun⟩

/-- **The matches of a search are among the notes searched.** -/
theorem matched_search_subset [Collator] (query : String) (notes : List FileRecord) :
    (search query notes).matched ⊆ notes := by
  rw [search]
  split
  · exact List.nil_subset _
  · exact List.Subset.trans (recentFirst_perm _).subset (within_search _ notes).matched

/-- **So are the files of its groups.** -/
theorem files_group_subset [Collator] {query : String} {notes : List FileRecord} {group : Group}
    (h : group ∈ (search query notes).groups) : group.files ⊆ notes := by
  rw [search] at h
  split at h
  · cases h
  · obtain ⟨⟨tag, files⟩, hentry, rfl⟩ := List.mem_map.1 (List.mem_mergeSort.1 h)
    exact List.Subset.trans (recentFirst_perm files).subset
      ((within_search _ notes).groups tag files ((NameMap.find?_eq_some_iff _).2 hentry))

end NoteVault.Tag
