import NoteVault.Proofs.Collation.Preorder
import NoteVault.Proofs.Index.Contents
import NoteVault.Proofs.Tag.Recency

/-!
# Searching by tags is exact

The words of a query ask for tags or rule them out (`Wanted.asked?`,
`Wanted.ruledOut?`).  A search gathers the notes that it accepts
(`Found.matched_foldl_addNote`) and, for each tag that the query does not name, those
of them that carry it, in the order of the notes; `Found.Groups` says so after some
notes, and one more note keeps it (`Found.Groups.addNote`).

Matches and groups are then put in order apart from each other.  Since choosing
files and showing the latest first commute, a group is in the end the part of the
matches that carries its tag.  `Search.Exact` says what a result holds without a
pass over the notes, and `search_exact` that every search has such a result.
-/

namespace NoteVault

/-- A file whose record is made from a path, a stat and what is known of it. -/
def FileRecord.Built (file : FileRecord) : Prop :=
  ∃ path stat known, file = .ofParts path stat known

theorem FileRecord.Built.nodup_tags {file : FileRecord} (h : file.Built) : file.tags.Nodup := by
  obtain ⟨path, stat, known, rfl⟩ := h
  exact tags_nodup path stat known

namespace Tag

open Collation Text

/-! ## The tags of a query -/

namespace Wanted

/-- The tag that a word asks for, in its normal form. -/
def asked? : List Char → Option String
  | '!' :: _ => none
  | word => normalize? word

/-- The tag that a word rules out, in its normal form. -/
def ruledOut? : List Char → Option String
  | '!' :: word => normalize? word
  | _ => none

theorem asked?_of_ne {word : List Char} (h : ∀ rest, word ≠ '!' :: rest) :
    asked? word = normalize? word := by
  unfold asked?
  split
  · exact absurd rfl (h _)
  · rfl

theorem ruledOut?_of_ne {word : List Char} (h : ∀ rest, word ≠ '!' :: rest) :
    ruledOut? word = none := by
  unfold ruledOut?
  split
  · exact absurd rfl (h _)
  · rfl

/-- A word adds the tag that it asks for and the tag that it rules out. -/
theorem addWord_eq (wanted : Wanted) (word : List Char) :
    wanted.addWord word =
      ⟨(asked? word).toList.foldl addNew wanted.primary,
        (ruledOut? word).toList.foldl addNew wanted.excluded⟩ := by
  unfold addWord
  split
  · rename_i word
    rw [show asked? ('!' :: word) = none from rfl,
      show ruledOut? ('!' :: word) = normalize? word from rfl]
    cases normalize? word <;> rfl
  · rename_i hword
    rw [asked?_of_ne hword, ruledOut?_of_ne hword]
    cases normalize? word <;> rfl

theorem foldl_addWord (words : List (List Char)) (wanted : Wanted) :
    words.foldl addWord wanted =
      ⟨(words.filterMap asked?).foldl addNew wanted.primary,
        (words.filterMap ruledOut?).foldl addNew wanted.excluded⟩ := by
  induction words generalizing wanted with
  | nil => rfl
  | cons word words ih =>
    rw [List.foldl_cons, ih, addWord_eq, List.filterMap_cons, List.filterMap_cons]
    cases asked? word <;> cases ruledOut? word <;> rfl

/-- **The tags that a query asks for**, each at the first word that does. -/
theorem primary_ofQuery (query : String) :
    (ofQuery query).primary = firstOccurrences ((words query.toList).filterMap asked?) :=
  congrArg primary (foldl_addWord _ _)

/-- **The tags that a query rules out**, each at the first word that does. -/
theorem excluded_ofQuery (query : String) :
    (ofQuery query).excluded = firstOccurrences ((words query.toList).filterMap ruledOut?) :=
  congrArg excluded (foldl_addWord _ _)

/-- The tags that a query names on one side: those that it rules out, or those that it
asks for. -/
def side (wanted : Wanted) (exclude : Bool) : List String :=
  if exclude then wanted.excluded else wanted.primary

/-- The tag that a word names on one side. -/
def named? (exclude : Bool) (word : List Char) : Option String :=
  if exclude then ruledOut? word else asked? word

theorem side_ofQuery (query : String) (exclude : Bool) :
    (ofQuery query).side exclude =
      firstOccurrences ((words query.toList).filterMap (named? exclude)) := by
  cases exclude with
  | false => exact primary_ofQuery query
  | true => exact excluded_ofQuery query

theorem mem_side_ofQuery {query tag : String} {exclude : Bool} :
    tag ∈ (ofQuery query).side exclude ↔
      ∃ word ∈ words query.toList, named? exclude word = some tag := by
  rw [side_ofQuery, mem_firstOccurrences, List.mem_filterMap]

theorem named?_bang (exclude : Bool) (word : List Char) :
    named? exclude ('!' :: word) = if exclude then normalize? word else none := rfl

theorem named?_of_ne (exclude : Bool) {word : List Char} (h : word.head? ≠ some '!') :
    named? exclude word = if exclude then none else normalize? word := by
  have hne : ∀ rest, word ≠ '!' :: rest := by
    rintro rest rfl
    exact h rfl
  rw [named?, asked?_of_ne hne, ruledOut?_of_ne hne]

/-- A note carries all tags asked for and none of those ruled out. -/
def Fits (wanted : Wanted) (note : FileRecord) : Prop :=
  (∀ tag ∈ wanted.primary, note.hasTag tag = true) ∧
    ∀ tag ∈ wanted.excluded, note.hasTag tag = false

instance (wanted : Wanted) (note : FileRecord) : Decidable (wanted.Fits note) :=
  inferInstanceAs (Decidable (_ ∧ _))

theorem accepts_eq_decide_fits (wanted : Wanted) (note : FileRecord) :
    wanted.accepts note = decide (wanted.Fits note) := by
  rw [Bool.eq_iff_iff, decide_eq_true_iff, accepts, Fits, Bool.and_eq_true_iff, List.all_eq_true,
    Bool.not_eq_true', List.any_eq_false]
  simp only [Bool.not_eq_true]

theorem names_eq_false_iff {wanted : Wanted} {tag : String} :
    wanted.names tag = false ↔ tag ∉ wanted.primary ∧ tag ∉ wanted.excluded := by
  rw [names, Bool.or_eq_false_iff, ← Bool.not_eq_true, ← Bool.not_eq_true,
    List.contains_iff_mem, List.contains_iff_mem]

end Wanted

/-! ## Going through the notes -/

namespace Found

/-- What is held for a tag whose files are given: nothing where there are none. -/
def held? (files : List FileRecord) : Option (List FileRecord) :=
  if files.isEmpty then none else some files

@[simp] theorem getD_held? (files : List FileRecord) : (held? files).getD [] = files := by
  cases files <;> rfl

theorem held?_concat (files : List FileRecord) (note : FileRecord) :
    held? (files ++ [note]) = some (files ++ [note]) := by
  cases files <;> rfl

theorem held?_eq_some_iff {files held : List FileRecord} :
    held? files = some held ↔ files ≠ [] ∧ files = held := by
  cases files with
  | nil => exact ⟨nofun, fun h => absurd rfl h.1⟩
  | cons file files =>
    exact ⟨fun h => ⟨List.cons_ne_nil _ _, Option.some.inj h⟩, fun h => h.2 ▸ rfl⟩

/-- The files that some notes put into the group of a tag. -/
def groupOf (wanted : Wanted) (notes : List FileRecord) (tag : String) : List FileRecord :=
  if wanted.names tag then [] else (notes.filter wanted.accepts).filter (·.hasTag tag)

theorem matched_foldl_addNote (wanted : Wanted) (notes : List FileRecord) (found : Found) :
    (notes.foldl (addNote wanted) found).matched =
      found.matched ++ notes.filter wanted.accepts := by
  induction notes generalizing found with
  | nil => exact (List.append_nil _).symm
  | cons note notes ih =>
    rw [List.foldl_cons, ih, List.filter_cons, addNote]
    by_cases haccepts : wanted.accepts note = true
    · rw [if_pos haccepts, if_pos haccepts, List.append_assoc]
      rfl
    · rw [if_neg haccepts, if_neg haccepts]

/-- **What has been found in some notes** has the group of each tag, in the order of
the notes. -/
def Groups (wanted : Wanted) (notes : List FileRecord) (found : Found) : Prop :=
  ∀ tag, found.groups.find? tag = held? (groupOf wanted notes tag)

theorem groups_nil (wanted : Wanted) : Groups wanted [] ⟨[], .empty⟩ := by
  intro tag
  rw [groupOf, List.filter_nil, List.filter_nil, ite_self]
  rfl

/-- A note that is accepted goes once to the group of each tag that it carries and
the query does not name. -/
theorem find?_groups_addNote {wanted : Wanted} {found : Found} {note : FileRecord}
    (hnote : note.tags.Nodup) (haccepts : wanted.accepts note = true) (tag : String) :
    (found.addNote wanted note).groups.find? tag =
      if note.hasTag tag && !wanted.names tag then
        some ((found.groups.find? tag).getD [] ++ [note])
      else found.groups.find? tag := by
  have hgroups : (found.addNote wanted note).groups =
      (note.tags.filter fun tag => !wanted.names tag).foldl (VaultIndex.addToTag note)
        found.groups := by
    rw [addNote, if_pos haccepts]
    rfl
  rw [hgroups, VaultIndex.find?_foldl_addToTag note tag (hnote.filter _)]
  simp only [List.mem_filter, FileRecord.hasTag, Bool.and_eq_true, List.contains_iff_mem]

/-- Taking in one more note. -/
theorem Groups.addNote {wanted : Wanted} {notes : List FileRecord} {found : Found}
    (h : Groups wanted notes found) {note : FileRecord} (hnote : note.tags.Nodup) :
    Groups wanted (notes ++ [note]) (found.addNote wanted note) := by
  intro tag
  rw [groupOf, List.filter_append, List.filter_append]
  cases haccepts : wanted.accepts note with
  | false =>
    have hskip : found.addNote wanted note = found := by
      rw [Found.addNote, haccepts]
      rfl
    rw [hskip, h tag, List.filter_cons_of_neg (by rw [haccepts]; decide), List.filter_nil,
      List.filter_nil, List.append_nil, groupOf]
  | true =>
    rw [find?_groups_addNote hnote haccepts, h tag, getD_held?, groupOf,
      List.filter_cons_of_pos haccepts, List.filter_nil]
    cases hnames : wanted.names tag with
    | true => simp
    | false =>
      cases htag : note.hasTag tag with
      | true => simp [htag, held?_concat]
      | false => simp [htag]

/-- **Going through the notes** makes the groups of all that fit the query. -/
theorem Groups.foldl_addNote {wanted : Wanted} {notes rest : List FileRecord} {found : Found}
    (h : Groups wanted notes found) (hrest : ∀ note ∈ rest, note.tags.Nodup) :
    Groups wanted (notes ++ rest) (rest.foldl (Found.addNote wanted) found) := by
  induction rest generalizing notes found with
  | nil => rwa [List.append_nil]
  | cons note rest ih =>
    obtain ⟨hnote, hrest⟩ := List.forall_mem_cons.1 hrest
    rw [List.foldl_cons, ← List.concat_append, List.concat_eq_append]
    exact ih (h.addNote hnote) hrest

end Found

/-! ## Showing the groups -/

section Collated

variable [Collator]

theorem mem_showGroups {groups : NameMap (List FileRecord)} {group : Group} :
    group ∈ showGroups groups ↔
      ∃ files, groups.find? group.tag = some files ∧ group.files = recentFirst files := by
  rw [showGroups, List.mem_mergeSort, List.mem_map]
  constructor
  · rintro ⟨⟨tag, files⟩, hentry, rfl⟩
    exact ⟨files, (NameMap.find?_eq_some_iff _).2 hentry, rfl⟩
  · rintro ⟨files, hfind, hfiles⟩
    refine ⟨(group.tag, files), (NameMap.find?_eq_some_iff _).1 hfind, ?_⟩
    show Group.mk group.tag (recentFirst files) = group
    rw [← hfiles]

/-- One tag comes before another: in the order of collation, and where this does
not tell them apart, in the order of their characters, which is that of their
bytes. -/
def Precedes (a b : String) : Prop := collate a b = .lt ∨ collate a b = .eq ∧ a < b

theorem Precedes.ne [Std.TransCmp collate] {a b : String} (h : Precedes a b) : a ≠ b := by
  rintro rfl
  rcases h with h | ⟨-, h⟩
  · have hself : collate a a = .eq := Std.ReflCmp.compare_self
    rw [hself] at h
    cases h
  · exact String.lt_irrefl a h

/-- Groups are shown in the order of their tags. -/
theorem pairwise_showGroups [Std.TransCmp collate] (groups : NameMap (List FileRecord)) :
    (showGroups groups).Pairwise fun a b => Precedes a.tag b.tag := by
  have := transCmp_comap collate Group.tag
  exact StableSort.pairwise_mergeSort_then (List.pairwise_map.2 groups.ordered)

/-! ## The whole search -/

/-- **What a search finds**, in terms of the tags of the query and the notes. -/
structure Search.Exact (query : String) (notes : List FileRecord) (result : Search) : Prop where
  /-- The tags asked for, in the order of the words that ask first, each once. -/
  primary : result.wanted.primary =
    firstOccurrences ((words query.toList).filterMap Wanted.asked?)
  /-- The tags ruled out, likewise. -/
  excluded : result.wanted.excluded =
    firstOccurrences ((words query.toList).filterMap Wanted.ruledOut?)
  /-- Who asks for nothing finds nothing. -/
  nothing : result.wanted.primary = [] → result.matched = [] ∧ result.groups = []
  /-- Otherwise the matches are the notes that fit, the latest first. -/
  matched : result.wanted.primary ≠ [] →
    LatestFirst (notes.filter fun note => result.wanted.Fits note) result.matched
  /-- The tags that have a group are those that the query does not name and that a
  match carries. -/
  groups : ∀ tag, (∃ group ∈ result.groups, group.tag = tag) ↔
    tag ∉ result.wanted.primary ∧ tag ∉ result.wanted.excluded ∧
      ∃ note ∈ result.matched, note.hasTag tag = true
  /-- The files of a group are the matches that carry its tag. -/
  files : ∀ group ∈ result.groups, group.files = result.matched.filter (·.hasTag group.tag)
  /-- No tag has two groups. -/
  distinct : (result.groups.map Group.tag).Nodup
  ordered : result.groups.Pairwise fun a b => Precedes a.tag b.tag

theorem search_of_primary_eq_nil {query : String} (h : (Wanted.ofQuery query).primary = [])
    (notes : List FileRecord) : search query notes = ⟨Wanted.ofQuery query, [], []⟩ := by
  rw [search, h]
  rfl

theorem wanted_search (query : String) (notes : List FileRecord) :
    (search query notes).wanted = Wanted.ofQuery query := by
  rw [search]
  split <;> rfl

/-- The matches are the accepted notes, the latest first. -/
theorem matched_search {query : String} (h : (Wanted.ofQuery query).primary ≠ [])
    (notes : List FileRecord) :
    (search query notes).matched =
      recentFirst (notes.filter (Wanted.ofQuery query).accepts) := by
  rw [search, if_neg (by simpa using h)]
  exact congrArg recentFirst (Found.matched_foldl_addNote _ notes _)

/-- The groups are the parts of the matches that carry a tag. -/
theorem mem_groups_search {query : String} {notes : List FileRecord}
    (hnotes : ∀ note ∈ notes, note.tags.Nodup) {group : Group} :
    group ∈ (search query notes).groups ↔
      (Wanted.ofQuery query).names group.tag = false ∧ group.files ≠ [] ∧
        group.files = (search query notes).matched.filter (·.hasTag group.tag) := by
  by_cases hprimary : (Wanted.ofQuery query).primary = []
  · rw [search_of_primary_eq_nil hprimary]
    exact ⟨nofun, fun h => absurd h.2.2 h.2.1⟩
  · have hfound := (Found.groups_nil (Wanted.ofQuery query)).foldl_addNote hnotes
    have hgroups : (search query notes).groups = showGroups
        (notes.foldl (Found.addNote (Wanted.ofQuery query)) ⟨[], .empty⟩).groups := by
      rw [search, if_neg (by simpa using hprimary)]
    rw [hgroups, mem_showGroups, matched_search hprimary, filter_recentFirst, hfound,
      List.nil_append, Found.groupOf]
    generalize notes.filter (Wanted.ofQuery query).accepts = accepted
    cases hnames : (Wanted.ofQuery query).names group.tag with
    | true =>
      rw [if_pos rfl]
      constructor
      · rintro ⟨files, hheld, -⟩
        cases hheld
      · rintro ⟨hfalse, -⟩
        cases hfalse
    | false =>
      rw [if_neg (by decide)]
      constructor
      · rintro ⟨files, hheld, hfiles⟩
        obtain ⟨hne, rfl⟩ := Found.held?_eq_some_iff.1 hheld
        exact ⟨rfl, by rwa [hfiles, Ne, recentFirst_eq_nil_iff], hfiles⟩
      · rintro ⟨-, hne, hfiles⟩
        rw [hfiles, Ne, recentFirst_eq_nil_iff] at hne
        exact ⟨_, Found.held?_eq_some_iff.2 ⟨hne, rfl⟩, hfiles⟩

/-- The tags that have a group. -/
theorem exists_group_search_iff {query : String} {notes : List FileRecord}
    (hnotes : ∀ note ∈ notes, note.tags.Nodup) (tag : String) :
    (∃ group ∈ (search query notes).groups, group.tag = tag) ↔
      (Wanted.ofQuery query).names tag = false ∧
        ∃ note ∈ (search query notes).matched, note.hasTag tag = true := by
  constructor
  · rintro ⟨group, hgroup, rfl⟩
    obtain ⟨hnames, hne, hfiles⟩ := (mem_groups_search hnotes).1 hgroup
    obtain ⟨note, hnote⟩ := List.exists_mem_of_ne_nil _ hne
    rw [hfiles] at hnote
    exact ⟨hnames, note, List.mem_filter.1 hnote⟩
  · rintro ⟨hnames, note, hnote⟩
    have hmem : note ∈ (search query notes).matched.filter (·.hasTag tag) :=
      List.mem_filter.2 hnote
    exact ⟨⟨tag, (search query notes).matched.filter (·.hasTag tag)⟩,
      (mem_groups_search hnotes).2 ⟨hnames, List.ne_nil_of_mem hmem, rfl⟩, rfl⟩

theorem pairwise_groups_search [Std.TransCmp collate] (query : String)
    (notes : List FileRecord) :
    (search query notes).groups.Pairwise fun a b => Precedes a.tag b.tag := by
  rw [search]
  split
  · exact List.Pairwise.nil
  · exact pairwise_showGroups _

/-- **Searching by tags is exact.** -/
theorem search_exact [Std.TransCmp collate] (query : String) {notes : List FileRecord}
    (h : ∀ note ∈ notes, note.Built) : Search.Exact query notes (search query notes) := by
  have hnotes : ∀ note ∈ notes, note.tags.Nodup := fun note hnote => (h note hnote).nodup_tags
  have hwanted := wanted_search query notes
  have hordered := pairwise_groups_search query notes
  constructor
  · rw [hwanted, Wanted.primary_ofQuery]
  · rw [hwanted, Wanted.excluded_ofQuery]
  · intro hprimary
    rw [hwanted] at hprimary
    rw [search_of_primary_eq_nil hprimary]
    exact ⟨rfl, rfl⟩
  · intro hprimary
    rw [hwanted] at hprimary ⊢
    simp only [← Wanted.accepts_eq_decide_fits]
    rw [matched_search hprimary]
    exact latestFirst_recentFirst _
  · intro tag
    rw [hwanted, exists_group_search_iff hnotes, Wanted.names_eq_false_iff, and_assoc]
  · exact fun group hgroup => ((mem_groups_search hnotes).1 hgroup).2.2
  · exact List.pairwise_map.2 (hordered.imp Precedes.ne)
  · exact hordered

end Collated

/-- A note with a time and tags. -/
def noteAt (path : String) (time : Int64) (tags : List String) : FileRecord :=
  .ofParts path ⟨1, none, some time⟩ (some (.ofTags tags))

/-- A note that writes one tag in two ways. -/
def ideaNote : FileRecord := noteAt "b.md" 3 ["#Proj", "idea", "#Idea"]

/-- Notes of a project, and one that has a tag which is to be ruled out. -/
def projectNotes : List FileRecord :=
  [noteAt "a.md" 2 ["#proj", "wip"], ideaNote, noteAt "c.md" 3 ["#proj", "#hush"]]

attribute [local instance] inLowercase

/-- A tag may be asked for twice, and the note that carries the tag ruled out is not
found; a tag written in two ways has one group. -/
theorem search_exact_projectNotes :
    let result := search "proj ##PROJ !hush" projectNotes
    Std.TransCmp collate ∧ (∀ note ∈ projectNotes, note.Built) ∧
      Search.Exact "proj ##PROJ !hush" projectNotes result ∧
      result.wanted = ⟨["#proj"], ["#hush"]⟩ ∧
      (result.matched.map (·.path)).Perm ["a.md", "b.md"] ∧
      ∃ group ∈ result.groups, group.tag = "#idea" := by
  intro result
  have hbuilt : ∀ note ∈ projectNotes, note.Built := by
    intro note hnote
    simp only [projectNotes, ideaNote, List.mem_cons, List.not_mem_nil, or_false] at hnote
    rcases hnote with rfl | rfl | rfl <;> exact ⟨_, _, _, rfl⟩
  have hexact := search_exact "proj ##PROJ !hush" hbuilt
  have hwanted : result.wanted = ⟨["#proj"], ["#hush"]⟩ := by decide +kernel
  have hperm := (hexact.matched (by rw [hwanted]; decide)).perm
  rw [hwanted] at hperm
  have hpaths : (projectNotes.filter fun note => Wanted.Fits ⟨["#proj"], ["#hush"]⟩ note).map
      (·.path) = ["a.md", "b.md"] := by decide +kernel
  have hidea : ideaNote ∈ result.matched :=
    hperm.mem_iff.2 (List.mem_filter.2 ⟨by simp [projectNotes], by decide +kernel⟩)
  exact ⟨inferInstance, hbuilt, hexact, hwanted, hpaths ▸ hperm.map (·.path), (hexact.groups "#idea").2
    ⟨by rw [hwanted]; decide, by rw [hwanted]; decide, ideaNote, hidea, by decide +kernel⟩⟩

end Tag

end NoteVault
