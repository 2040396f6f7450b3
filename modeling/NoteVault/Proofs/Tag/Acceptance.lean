import NoteVault.Proofs.Tag.Sidebar
import NoteVault.Proofs.Tag.Suggestion

/-!
# Accepting a suggestion

A tag that is accepted takes the place of the word at the cursor, behind the mark of that
word and in front of a blank (`accept_of_active`).  What stands before the word is empty or
ends in a blank, so a search reads the tag as one word, between the words before it and
those behind the cursor.  If the tag was suggested from the tags of an index, the index has
it under the name that the search looks up (`accept_suggested`).
-/

namespace NoteVault.Tag

open Text Unicode

variable {query tag : String} {cursor : Nat} {active : Active}
variable {before after head mark name : List Char}

/-! ## The text with the tag -/

/-- Without a tag at the cursor nothing is put in. -/
theorem accept_of_none (hcursor : PartsAt cursor query.toList before after)
    (h : Active.at? query cursor = none) (tag : String) :
    accept query cursor tag = (query, byteLength before) := by
  rw [Active.at?, splitAtByte_eq_iff.2 hcursor] at h
  rw [accept, splitAtByte_eq_iff.2 hcursor]
  simp only [h]

theorem accept_of_active (hcursor : PartsAt cursor query.toList before after)
    (h : active.TypedBehind head before) (tag : String) :
    accept query cursor tag =
      (String.ofList (head ++ (active.mark ++ tag.toList) ++ ' ' :: after),
        byteLength (head ++ (active.mark ++ tag.toList) ++ [' '])) := by
  have hactive : Active.ofBefore? before = some active := Active.ofBefore?_eq_some_iff.2 ⟨head, h⟩
  have hhead : splitAtByte active.start before = (head, active.mark ++ active.typed) := by
    rw [splitAtByte_eq_iff, h.start, ← h.whole]
    exact PartsAt.append _ _
  rw [accept, splitAtByte_eq_iff.2 hcursor]
  simp only [hactive, hhead, List.append_assoc, List.singleton_append]

/-! ## The word that is read -/

theorem Active.TypedBehind.wordStart (h : active.TypedBehind head before) : WordStart head := by
  intro c hc
  rw [h.head_blank c hc]
  decide

namespace IsMark

theorem isWord_append (h : IsMark mark) (hspace : ∀ c ∈ name, isSpace c = false) :
    IsWord (mark ++ name) := by
  cases h with
  | sign => exact ⟨List.cons_ne_nil _ _, List.forall_mem_cons.2 ⟨by decide, hspace⟩⟩
  | bangSign =>
    refine ⟨List.cons_ne_nil _ _, List.forall_mem_cons.2 ⟨by decide, ?_⟩⟩
    exact List.forall_mem_cons.2 ⟨by decide, hspace⟩

/-- Behind a mark a name means its tag, on the side of the mark. -/
theorem named?_append (h : IsMark mark) (hname : IsName name) :
    Wanted.named? (decide (mark = ['!', '#'])) (mark ++ name) = some (tagNamed name) := by
  have hnormal := hname.normalize? .sign
  cases h with
  | sign => exact (Wanted.named?_of_ne false (by simp)).trans hnormal
  | bangSign => exact hnormal

end IsMark

/-! ## The tags of an index -/

/-- **The names of the tags are those under which they are looked up**: each is the tag of
what is left of it without its number sign. -/
theorem tagNamed_bareName [Collator] {s : Snapshot} {rules : Exclusion}
    (h : tag ∈ (VaultIndex.classify s rules).tagNames) :
    tagNamed (bareName tag) = tag ∧
      ((VaultIndex.classify s rules).tagIndex.find? tag).isSome = true := by
  have hkey : ((VaultIndex.classify s rules).tagIndex.find? tag).isSome = true := by
    rw [← NameMap.mem_keys_iff]
    exact (VaultIndex.classify_tagNames_perm s rules).mem_iff.1 h
  refine ⟨?_, hkey⟩
  -- Some file carries the tag.
  obtain ⟨files, hfind⟩ := Option.isSome_iff_exists.1 hkey
  have hfiles : (s.shown rules).filter (·.hasTag tag) = files := by
    rw [← VaultIndex.classify_tagged, hfind]
    rfl
  have hne : files ≠ [] := by
    rintro rfl
    exact VaultIndex.classify_tagged_ne_nil s rules tag hfind
  obtain ⟨file, hfile⟩ := List.exists_mem_of_ne_nil _ hne
  rw [← hfiles] at hfile
  obtain ⟨hshown, hcarries⟩ := List.mem_filter.1 hfile
  obtain ⟨written, -, rfl⟩ :=
    exists_tagNamed_of_hasTag (s.built_of_mem_records (List.mem_filter.1 hshown).1) hcarries
  rw [show bareName (tagNamed written) = lowercaseChars written from bareName_sign _,
    tagNamed_lowercase]

/-! ## Accepting what was suggested -/

/-- A tag has been put in the place of the word at the cursor of a query: behind what stood
before the word, and before what stood behind the cursor. -/
structure Accepted (active : Active) (head name after : List Char) (result : String × Nat) :
    Prop where
  text : result.1.toList = head ++ (active.mark ++ name) ++ [' '] ++ after
  /-- The cursor is right behind the blank. -/
  cursor : result.2 = byteLength (head ++ (active.mark ++ name) ++ [' '])
  words : words result.1.toList = words head ++ (active.mark ++ name) :: words after
  /-- A search reads the tag on the side of its mark. -/
  asked : active.mark = ['#'] → tagNamed name ∈ (Wanted.ofQuery result.1).primary
  ruledOut : active.mark = ['!', '#'] → tagNamed name ∈ (Wanted.ofQuery result.1).excluded

theorem accepted_accept (hcursor : PartsAt cursor query.toList before after)
    (h : active.TypedBehind head before) (hname : IsName tag.toList) :
    Accepted active head tag.toList after (accept query cursor tag) := by
  have htext : (accept query cursor tag).1.toList =
      head ++ (active.mark ++ tag.toList) ++ ' ' :: after := by
    rw [accept_of_active hcursor h, String.toList_ofList]
  have hwords : words (accept query cursor tag).1.toList =
      words head ++ (active.mark ++ tag.toList) :: words after := by
    rw [htext, words_append_word h.wordStart (h.isMark.isWord_append hname.no_space) (by decide)]
  have hside : tagNamed tag.toList ∈ (Wanted.ofQuery (accept query cursor tag).1).side
      (decide (active.mark = ['!', '#'])) := by
    rw [Wanted.mem_side_ofQuery, hwords]
    exact ⟨_, List.mem_append_right _ List.mem_cons_self, h.isMark.named?_append hname⟩
  refine ⟨?_, ?_, hwords, fun hmark => ?_, fun hmark => ?_⟩
  · rw [htext, List.append_assoc _ [' '], List.singleton_append]
  · rw [accept_of_active hcursor h]
  · rw [hmark] at hside
    exact hside
  · rw [hmark] at hside
    exact hside

/-- **Accepting a suggestion gives the tag that was suggested.**  The cursor may be any
number and means the last place between two characters that is not behind it.  The tag is
read as a word of its own where the word at the cursor was, with the mark of that word, and
the index has a tag of that name.  Without a tag at the cursor the text stays as it is. -/
theorem accept_suggested [Collator] (s : Snapshot) (rules : Exclusion)
    (hcursor : PartsAt cursor query.toList before after) :
    (Active.at? query cursor = none → ∀ tag, (accept query cursor tag).1 = query) ∧
      ∀ tag ∈ suggest query cursor (VaultIndex.classify s rules).tagNames,
        (∀ c ∈ tag.toList, isSpace c = false) → tag.toList.head? ≠ some '#' →
          normalize? ('#' :: tag.toList) = some (tagNamed tag.toList) ∧
            ((VaultIndex.classify s rules).tagIndex.find? (tagNamed tag.toList)).isSome = true ∧
              ∃ active head, Active.at? query cursor = some active ∧
                active.TypedBehind head before ∧
                  Accepted active head tag.toList after (accept query cursor tag) := by
  refine ⟨fun h tag => by rw [accept_of_none hcursor h], fun tag htag hspace hsign => ?_⟩
  obtain ⟨active, hactive, htyped, ⟨name, hname, hbare⟩, hbegins⟩ := mem_suggest_iff.1 htag
  obtain ⟨hnamed, hkey⟩ := tagNamed_bareName hname
  rw [hbare] at hnamed
  have hne : tag.toList ≠ [] := by
    intro hnil
    rw [hnil] at hbegins
    exact lowercaseChars_ne_nil htyped (List.prefix_nil.1 hbegins)
  have hisName : IsName tag.toList := ⟨hne, hspace, hsign⟩
  obtain ⟨head, hbehind⟩ := (Active.at?_eq_some_iff hcursor).1 hactive
  refine ⟨hisName.normalize? .sign, ?_, active, head, hactive, hbehind,
    accepted_accept hcursor hbehind hisName⟩
  rwa [hnamed]

attribute [local instance] Collation.inLowercase

/-- A cursor inside the character behind the word, and a tag that is to be ruled out. -/
theorem accept_suggested_idea :
    PartsAt 8 "é !#IDé x".toList ['é', ' ', '!', '#', 'I', 'D'] ['é', ' ', 'x'] ∧
      "idea" ∈ suggest "é !#IDé x" 8 (VaultIndex.classify oddTags .none).tagNames ∧
      words (accept "é !#IDé x" 8 "idea").1.toList =
        [['é'], "!#idea".toList, ['é'], ['x']] ∧
      "#idea" ∈ (Wanted.ofQuery (accept "é !#IDé x" 8 "idea").1).excluded := by
  have hcursor : PartsAt 8 "é !#IDé x".toList ['é', ' ', '!', '#', 'I', 'D'] ['é', ' ', 'x'] :=
    splitAtByte_eq_iff.1 (by decide)
  have hactive : Active.at? "é !#IDé x" 8 = some ⟨['!', '#'], ['I', 'D'], 3⟩ := by decide
  have hlisted : "#idea" ∈ (VaultIndex.classify oddTags .none).tagNames := by
    rw [(VaultIndex.classify_tagNames_perm oddTags .none).mem_iff]
    decide +kernel
  have hsuggested :
      "idea" ∈ suggest "é !#IDé x" 8 (VaultIndex.classify oddTags .none).tagNames :=
    mem_suggest_iff.2 ⟨_, hactive, List.cons_ne_nil _ _, ⟨_, hlisted, by decide⟩, by decide⟩
  obtain ⟨-, -, active, head, hat, htyped, haccepted⟩ :=
    (accept_suggested oddTags .none hcursor).2 "idea" hsuggested
      (no_space_of_any (by decide)) (by decide)
  obtain rfl := Option.some.inj (hactive.symm.trans hat)
  have hhead : head = ['é', ' '] :=
    (append_inj_of_byteLength (htyped.whole : _ = ['é', ' '] ++ ['!', '#', 'I', 'D'])
      htyped.start.symm).1
  refine ⟨hcursor, hsuggested, ?_, haccepted.ruledOut rfl⟩
  rw [haccepted.words, hhead]
  decide

end NoteVault.Tag
