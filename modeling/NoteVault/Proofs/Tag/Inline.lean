import NoteVault.Proofs.Note.Fence
import NoteVault.Proofs.Note.Tags
import NoteVault.Proofs.Tag.Sidebar
import NoteVault.Proofs.Unicode.Space
import NoteVault.Tag.Completion

/-!
# From the text of a note to the search by tags

A tag in the text of a note is a number sign and a name of tag characters
(`exists_name_of_mem_tags_parse`), none of which is white space, a number sign or an
exclamation mark.  So the name is one that a query can give to a tag, as it is
written and in lower case, behind its number sign and without it (`Writes`), and all
these forms mean the tag that the record of the note carries.  A search by any of
them finds the note (`inline_tag_found`).
-/

namespace NoteVault

open Text Unicode

namespace Note

/-! ## The tags of a text -/

theorem isTagChar_of_isSpace {c : Char} (h : isSpace c = true) : isTagChar c = false := by
  rw [isTagChar, isAlphanumeric_of_isSpace h, Bool.false_or]
  simp only [Bool.or_eq_false_iff, beq_eq_false_iff_ne]
  refine ⟨⟨?_, ?_⟩, ?_⟩ <;>
    · rintro rfl
      exact absurd h (by decide)

/-- **The tags of a note** are number signs with names of tag characters. -/
theorem exists_name_of_mem_tags_parse {text tag : String} (h : tag ∈ (parse text).tags) :
    ∃ name, tag = String.ofList ('#' :: name) ∧ ∀ c ∈ name, isTagChar c = true := by
  obtain ⟨written, hwritten, rfl⟩ := List.mem_map.1 h
  rw [(Scan.ofText_eq _).1, List.mem_eraseDups, List.mem_flatMap] at hwritten
  obtain ⟨line, -, hline⟩ := hwritten
  obtain ⟨name, rfl, hname, -⟩ := exists_name_of_mem_lineTags hline
  exact ⟨name, rfl, hname⟩

end Note

namespace Tag

/-! ## The forms of a tag in a query -/

/-- The ways in which a query may write a tag: as it is written in a note or in lower
case, with its number sign or without it. -/
inductive Writes (tag : String) : String → Prop
  | asWritten : Writes tag tag
  | lowercase : Writes tag (lowercase tag)
  | bare : Writes tag (String.ofList (bareName tag))
  | bareLowercase : Writes tag (Unicode.lowercase (String.ofList (bareName tag)))

/-- A name that a query asks for when it gives it as it is: no exclamation mark in
front rules it out. -/
structure InlineName (name : List Char) : Prop extends IsName name where
  no_bang : name.head? ≠ some '!'

theorem not_mem_of_isTagChar {name : List Char} (h : ∀ c ∈ name, Note.isTagChar c = true)
    {mark : Char} (hmark : Note.isTagChar mark = false) : mark ∉ name := by
  intro hmem
  rw [h mark hmem] at hmark
  cases hmark

theorem inlineName_of_no_marks {name : List Char} (hne : name ≠ [])
    (hspace : ∀ c ∈ name, isSpace c = false) (hsign : '#' ∉ name) (hbang : '!' ∉ name) :
    InlineName name where
  ne_nil := hne
  no_space := hspace
  no_sign := fun h => hsign (List.mem_of_head? h)
  no_bang := fun h => hbang (List.mem_of_head? h)

/-- A name of tag characters can be given in a query, as it is and in lower case. -/
theorem inlineName_of_isTagChar {name : List Char} (hne : name ≠ [])
    (h : ∀ c ∈ name, Note.isTagChar c = true) :
    InlineName name ∧ InlineName (lowercaseChars name) := by
  have hspace : ∀ c ∈ name, isSpace c = false := by
    intro c hc
    rw [← Bool.not_eq_true]
    intro hc'
    have hnot := Note.isTagChar_of_isSpace hc'
    rw [h c hc] at hnot
    cases hnot
  have hsign : '#' ∉ name := not_mem_of_isTagChar h (by decide)
  have hbang : '!' ∉ name := not_mem_of_isTagChar h (by decide)
  exact ⟨inlineName_of_no_marks hne hspace hsign hbang,
    inlineName_of_no_marks (lowercaseChars_ne_nil hne) (isSpace_of_mem_lowercaseChars hspace)
      (fun hmem => hsign (mem_of_mem_lowercaseChars hmem (by decide)))
      (fun hmem => hbang (mem_of_mem_lowercaseChars hmem (by decide)))⟩

/-- A query that gives a name asks for its tag. -/
theorem InlineName.asks {name word : List Char} (h : InlineName name) (hword : Spells name word) :
    normalize? word = some (tagNamed name) ∧
      Wanted.ofQuery (String.ofList word) = ⟨[tagNamed name], []⟩ := by
  refine ⟨h.toIsName.normalize? hword, h.toIsName.ofQuery hword ?_⟩
  cases hword with
  | bare => exact h.no_bang
  | sign => simp

/-- **All forms of a tag ask for the same tag.** -/
theorem asks_of_writes {name : List Char} (hname : InlineName name)
    (hlower : InlineName (lowercaseChars name)) {query : String}
    (h : Writes (String.ofList ('#' :: name)) query) :
    normalize? query.toList = some (tagNamed name) ∧
      Wanted.ofQuery query = ⟨[tagNamed name], []⟩ := by
  have hbare : bareName (String.ofList ('#' :: name)) = name := by
    rw [bareName, String.toList_ofList]
    rfl
  have hasks : ∀ {word}, Spells name word ∨ Spells (lowercaseChars name) word →
      normalize? (String.ofList word).toList = some (tagNamed name) ∧
        Wanted.ofQuery (String.ofList word) = ⟨[tagNamed name], []⟩ := by
    intro word hword
    rw [String.toList_ofList]
    rcases hword with hword | hword
    · exact hname.asks hword
    · rw [← tagNamed_lowercase]
      exact hlower.asks hword
  cases h with
  | asWritten => exact hasks (.inl .sign)
  | lowercase =>
    rw [lowercase_sign]
    exact hasks (.inr .sign)
  | bare =>
    rw [hbare]
    exact hasks (.inl .bare)
  | bareLowercase =>
    have hlowercase : lowercase (String.ofList name) = String.ofList (lowercaseChars name) := by
      rw [lowercase, String.toList_ofList]
    rw [hbare, hlowercase]
    exact hasks (.inr .bare)

/-- A note carries the tags of its text. -/
theorem hasTag_of_mem_tags {name : List Char} (hname : InlineName name) {known : Metadata}
    (h : String.ofList ('#' :: name) ∈ known.tags) (path : String) (stat : FileStat) :
    (FileRecord.ofParts path stat (some known)).hasTag (tagNamed name) = true := by
  have htrim : trim ('#' :: name) = '#' :: name :=
    trim_eq_self (trimmed_of_no_space (hname.toIsName.no_space_of_spells .sign))
  have hdisplay : FileRecord.displayTag? (String.ofList ('#' :: name)) =
      some (String.ofList ('#' :: name)) := by
    rw [FileRecord.displayTag?, String.toList_ofList, htrim]
    obtain ⟨c, cs, rfl⟩ := List.exists_cons_of_ne_nil hname.ne_nil
    rfl
  refine (FileRecord.hasTag_ofParts path stat _ _).2
    ⟨String.ofList ('#' :: name), List.mem_append_left _ h, ?_⟩
  rw [FileRecord.lookupTag?, hdisplay, ← lowercase_sign]
  rfl

/-- **The tags of a note's text are found**: the record of the note carries each of
them, and a search by any form of it finds the record among all notes. -/
theorem inline_tag_found [Collator] {text tag : String} (htag : tag ∈ (Note.parse text).tags)
    (hbare : tag ≠ "#") (path : String) (stat : FileStat) :
    let note := Note.parse text
    let file := FileRecord.ofParts path stat (some ⟨note.tags, note.frontmatter⟩)
    ∃ normal, file.hasTag normal = true ∧ ∀ query, Writes tag query →
      normalize? query.toList = some normal ∧
        ∀ notes, file ∈ notes → file ∈ (search query notes).matched := by
  intro note file
  obtain ⟨name, rfl, hchars⟩ := Note.exists_name_of_mem_tags_parse htag
  have hne : name ≠ [] := by
    rintro rfl
    exact hbare rfl
  obtain ⟨hname, hlower⟩ := inlineName_of_isTagChar hne hchars
  have hcarries : file.hasTag (tagNamed name) = true := hasTag_of_mem_tags hname htag path stat
  refine ⟨tagNamed name, hcarries, fun query hquery => ?_⟩
  obtain ⟨hnormal, hwanted⟩ := asks_of_writes hname hlower hquery
  refine ⟨hnormal, fun notes hnotes => ?_⟩
  rw [matched_search_of_wanted hwanted, (recentFirst_perm _).mem_iff]
  exact List.mem_filter.2 ⟨hnotes, hcarries⟩

attribute [local instance] Collation.inLowercase

/-- A tag with a part behind a slash, among the notes in which it stands twice, is
found in lower case and without its number sign. -/
theorem inline_tag_found_plan :
    let note := Note.parse "# Week\n(#Home/Plan/) or #home/plan #7\n"
    let file := FileRecord.ofParts "a.md" .unknown (some ⟨note.tags, note.frontmatter⟩)
    "#Home/Plan" ∈ note.tags ∧ "#Home/Plan" ≠ "#" ∧ Writes "#Home/Plan" "home/plan" ∧
      file.hasTag "#home/plan" = true ∧ file ∈ (search "home/plan" [file]).matched := by
  intro note file
  have htag : "#Home/Plan" ∈ note.tags := by decide +kernel
  have hne : "#Home/Plan" ≠ "#" := by decide
  have hwrites : Writes "#Home/Plan" "home/plan" := by
    have hlower : lowercase (String.ofList (bareName "#Home/Plan")) = "home/plan" := by
      decide +kernel
    exact hlower ▸ .bareLowercase
  obtain ⟨normal, hcarries, hfound⟩ := inline_tag_found htag hne "a.md" .unknown
  obtain ⟨hnormal, hsearch⟩ := hfound "home/plan" hwrites
  have hplan : normalize? "home/plan".toList = some "#home/plan" := by decide +kernel
  obtain rfl := Option.some.inj (hplan.symm.trans hnormal)
  exact ⟨htag, hne, hwrites, hcarries, hsearch [file] (List.mem_singleton.2 rfl)⟩

end Tag

end NoteVault
