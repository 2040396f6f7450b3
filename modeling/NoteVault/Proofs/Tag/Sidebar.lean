import NoteVault.Proofs.Index.Representation
import NoteVault.Proofs.Tag.Name
import NoteVault.Tag.Summary

/-!
# The list of tags and the search by tags

Where only notes have tags, a search for a listed tag finds the notes that the list
counts (`search_listed_tag`), as long as the tag is one word with one number sign in
front (`OneWord`).  The search splits its text at white space and drops all number
signs in front of a word, while a note may have any text for a tag: a tag of two
words, or with two number signs, is listed and not found
(`listed_tags_not_found`).
-/

namespace NoteVault

open Unicode Text

/-- Only notes have tags and properties. -/
def Snapshot.OnlyNotesKnown (s : Snapshot) : Prop :=
  ∀ file ∈ s.records, (s.metadata.find? file.path).isSome = true → file.category = .notes

/-- A file that carries a tag is known. -/
theorem Snapshot.isSome_metadata_of_hasTag {s : Snapshot} {file : FileRecord}
    (hfile : file ∈ s.records) {tag : String} (htag : file.hasTag tag = true) :
    (s.metadata.find? file.path).isSome = true := by
  obtain ⟨path, stat, rfl⟩ := s.exists_of_mem_records hfile
  rw [FileRecord.path_ofParts]
  cases hknown : s.metadata.find? path with
  | some known => rfl
  | none =>
    rw [hknown, FileRecord.hasTag_ofParts] at htag
    obtain ⟨written, hwritten, -⟩ := htag
    cases hwritten

theorem Snapshot.built_of_mem_records {s : Snapshot} {file : FileRecord} (h : file ∈ s.records) :
    file.Built := by
  obtain ⟨path, stat, rfl⟩ := s.exists_of_mem_records h
  exact ⟨path, stat, _, rfl⟩

theorem FileRecord.displayTag?_eq_some {written display : String}
    (h : displayTag? written = some display) :
    ∃ name, name ≠ [] ∧ display = String.ofList ('#' :: name) := by
  unfold displayTag? at h
  split at h
  · cases h
  · cases h
  · rename_i name hname hread
    obtain rfl := Option.some.inj h
    exact ⟨name, hname, rfl⟩
  · rename_i name hnil _ _
    obtain rfl := Option.some.inj h
    exact ⟨_, hnil, rfl⟩

namespace Tag

/-- Each tag of a file is the tag of some name. -/
theorem exists_tagNamed_of_hasTag {file : FileRecord} (h : file.Built) {tag : String}
    (htag : file.hasTag tag = true) : ∃ name, name ≠ [] ∧ tag = tagNamed name := by
  obtain ⟨path, stat, known, rfl⟩ := h
  obtain ⟨written, -, hread⟩ := (FileRecord.hasTag_ofParts path stat known tag).1 htag
  obtain ⟨display, hdisplay, rfl⟩ := Option.map_eq_some_iff.1 hread
  obtain ⟨name, hne, rfl⟩ := FileRecord.displayTag?_eq_some hdisplay
  exact ⟨name, hne, lowercase_sign name⟩

/-- A tag that is one word, with one number sign in front. -/
structure OneWord (tag : String) : Prop where
  no_space : ∀ c ∈ tag.toList, isSpace c = false
  one_sign : tag.toList.tail.head? ≠ some '#'

/-- Such a tag of a file asks for itself. -/
theorem OneWord.ofQuery {tag : String} (h : OneWord tag) {file : FileRecord} (hbuilt : file.Built)
    (htag : file.hasTag tag = true) : Wanted.ofQuery tag = ⟨[tag], []⟩ := by
  obtain ⟨name, hne, rfl⟩ := exists_tagNamed_of_hasTag hbuilt htag
  obtain ⟨hspace, hsign⟩ := h
  rw [tagNamed, String.toList_ofList] at hspace hsign
  have hname : IsName (lowercaseChars name) :=
    ⟨lowercaseChars_ne_nil hne, (List.forall_mem_cons.1 hspace).2, hsign⟩
  have hquery := hname.ofQuery .sign (by simp)
  rwa [tagNamed_lowercase] at hquery

section Collated

variable [Collator]

theorem mem_summary {index : VaultIndex} {order : Order} {row : Count} :
    row ∈ summary index order ↔
      ∃ files, index.tagIndex.find? row.tag = some files ∧ row.count = files.length := by
  rw [summary, List.mem_mergeSort, List.mem_map]
  constructor
  · rintro ⟨⟨tag, files⟩, hentry, rfl⟩
    exact ⟨files, (NameMap.find?_eq_some_iff _).2 hentry, rfl⟩
  · rintro ⟨files, hfind, hcount⟩
    refine ⟨(row.tag, files), (NameMap.find?_eq_some_iff _).1 hfind, ?_⟩
    show Count.mk row.tag files.length = row
    rw [← hcount]

/-- Where only notes are known, the notes that carry a tag are all files that do. -/
theorem filter_notes_hasTag {s : Snapshot} (h : s.OnlyNotesKnown) (rules : Exclusion)
    (tag : String) :
    (VaultIndex.classify s rules).notes.filter (·.hasTag tag) =
      (s.shown rules).filter (·.hasTag tag) := by
  rw [VaultIndex.notes, VaultIndex.classify_filesIn, List.filter_filter]
  refine List.filter_congr fun file hfile => ?_
  cases htag : file.hasTag tag with
  | false => rfl
  | true =>
    have hrecord : file ∈ s.records := (List.mem_filter.1 hfile).1
    rw [Bool.true_and]
    exact decide_eq_true (h file hrecord (s.isSome_metadata_of_hasTag hrecord htag))

/-- **A search for a listed tag finds what the list counts**: the files of the tag,
the latest first. -/
theorem search_listed_tag {s : Snapshot} (hknown : s.OnlyNotesKnown) (rules : Exclusion)
    {order : Order} {row : Count} (hrow : row ∈ summary (.classify s rules) order)
    (htag : OneWord row.tag) :
    (search row.tag (VaultIndex.classify s rules).notes).matched.length = row.count ∧
      ∃ files, (VaultIndex.classify s rules).tagIndex.find? row.tag = some files ∧
        LatestFirst files (search row.tag (VaultIndex.classify s rules).notes).matched := by
  obtain ⟨files, hfind, hcount⟩ := mem_summary.1 hrow
  have hfiles : (s.shown rules).filter (·.hasTag row.tag) = files := by
    rw [← VaultIndex.classify_tagged, hfind]
    rfl
  have hne : files ≠ [] := by
    rintro rfl
    exact VaultIndex.classify_tagged_ne_nil s rules row.tag hfind
  -- Some file carries the tag, so the tag is in the form in which files carry tags.
  obtain ⟨file, hfile⟩ := List.exists_mem_of_ne_nil _ hne
  rw [← hfiles] at hfile
  obtain ⟨hshown, hcarries⟩ := List.mem_filter.1 hfile
  have hbuilt := s.built_of_mem_records (List.mem_filter.1 hshown).1
  have hmatched := matched_search_of_wanted (htag.ofQuery hbuilt hcarries)
    (VaultIndex.classify s rules).notes
  rw [filter_notes_hasTag hknown, hfiles] at hmatched
  have hlatest : LatestFirst files
      (search row.tag (VaultIndex.classify s rules).notes).matched := by
    rw [hmatched]
    exact latestFirst_recentFirst files
  exact ⟨hlatest.perm.length_eq.trans hcount.symm, files, hfind, hlatest⟩

end Collated

/-- A vault of two notes, whose properties list tags: one of two words, one with two
number signs, and one in capital letters. -/
def oddTags : Snapshot :=
  let listed tags : Metadata := ⟨[], some [(.string "tags", .sequence (tags.map .string))]⟩
  { Snapshot.empty with
    entries := [.file "a.md" ⟨1, none, some 5⟩, .file "b.md" ⟨1, none, some 6⟩]
    metadata := (NameMap.empty.insert "a.md" (listed ["two words", "IDEA"])).insert "b.md"
      (listed ["##deep", "#idea"]) }

theorem oddTags_onlyNotesKnown : oddTags.OnlyNotesKnown := by
  have hnotes : ∀ file ∈ oddTags.records, file.category = .notes := by decide +kernel
  exact fun file hfile _ => hnotes file hfile

attribute [local instance] Collation.inLowercase

/-- The tag in capital letters is found under its listed form. -/
theorem search_listed_tag_idea :
    oddTags.OnlyNotesKnown ∧ OneWord "#idea" ∧
      ⟨"#idea", 2⟩ ∈ summary (.classify oddTags .none) .name ∧
      (search "#idea" (VaultIndex.classify oddTags .none).notes).matched.length = 2 := by
  have hword : OneWord "#idea" :=
    ⟨fun c hc => Bool.eq_false_iff.2 (List.any_eq_false.1 (by decide) c hc), by decide⟩
  have hrow : ⟨"#idea", 2⟩ ∈ summary (.classify oddTags .none) .name :=
    mem_summary.2 (by decide +kernel)
  exact ⟨oddTags_onlyNotesKnown, hword, hrow,
    (search_listed_tag oddTags_onlyNotesKnown .none hrow hword).1⟩

/-- **Listed tags that a search does not find**: a tag of two words asks for two
tags, and of two number signs the search drops both. -/
theorem listed_tags_not_found :
    oddTags.OnlyNotesKnown ∧
      (⟨"#two words", 1⟩ ∈ summary (.classify oddTags .none) .name ∧
        (search "#two words" (VaultIndex.classify oddTags .none).notes).matched = []) ∧
      ⟨"##deep", 1⟩ ∈ summary (.classify oddTags .none) .name ∧
        (search "##deep" (VaultIndex.classify oddTags .none).notes).matched = [] := by
  have hnotes : ∀ query, (Wanted.ofQuery query).primary ≠ [] →
      ((VaultIndex.classify oddTags .none).notes.filter (Wanted.ofQuery query).accepts).isEmpty →
      (search query (VaultIndex.classify oddTags .none).notes).matched = [] := by
    intro query hprimary hnone
    rw [matched_search hprimary, recentFirst_eq_nil_iff]
    exact List.isEmpty_iff.1 hnone
  refine ⟨oddTags_onlyNotesKnown, ⟨mem_summary.2 ?_, hnotes _ ?_ ?_⟩,
    mem_summary.2 ?_, hnotes _ ?_ ?_⟩
  all_goals decide +kernel

end Tag

end NoteVault
