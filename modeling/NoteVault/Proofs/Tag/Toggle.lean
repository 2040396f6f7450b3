import NoteVault.Proofs.Tag.Name
import NoteVault.Proofs.Unicode.AsciiCase
import NoteVault.Tag.Toggle

/-!
# Turning a tag on and off

A query names tags on two sides: those that it asks for and those that it rules out
(`Wanted.side`).  Turning a tag around on one side should take it off that side or put it
there, take it off the other side, and leave all other tags alone (`Toggled`).  It does so
exactly if each word by which the query names the tag is one of the two words that are
compared (`toggle_toggled_iff`), the tag in lower case with its mark, but for the case of
ASCII letters (`spelled`).  A word that names the tag otherwise stays where it is
(`toggle_leaves_accent`).
-/

namespace NoteVault

open Text Unicode

theorem Text.trim_map_toLower (cs : List Char) :
    trim (cs.map Char.toLower) = (trim cs).map Char.toLower := by
  have hspace : isSpace ∘ Char.toLower = isSpace := funext isSpace_toLower
  rw [trim, trim, trimStart, trimStart, trimEnd, trimEnd, dropEndWhile, dropEndWhile,
    List.dropWhile_map, hspace, ← List.map_reverse, List.dropWhile_map, hspace, List.map_reverse]

namespace Tag

/-! ## The words that name a tag -/

theorem normalize?_map_toLower (word : List Char) :
    normalize? (word.map Char.toLower) = normalize? word := by
  have hsign : (fun c : Char => c == '#') ∘ Char.toLower = fun c => c == '#' := by
    funext c
    rw [Function.comp_apply, Bool.eq_iff_iff, beq_iff_eq, beq_iff_eq, toLower_eq_iff (by decide)]
  rw [normalize?, normalize?, trim_map_toLower, List.dropWhile_map, hsign]
  cases (trim word).dropWhile fun c => c == '#' with
  | nil => rfl
  | cons c body =>
    show some (String.ofList ('#' :: lowercaseChars ((c :: body).map Char.toLower))) = _
    rw [lowercaseChars_map_toLower]

namespace Wanted

theorem named?_map_toLower (exclude : Bool) (word : List Char) :
    named? exclude (word.map Char.toLower) = named? exclude word := by
  by_cases hbang : word.head? = some '!'
  · obtain ⟨rest, rfl⟩ := List.head?_eq_some_iff.1 hbang
    rw [List.map_cons, show '!'.toLower = '!' from rfl, named?_bang, named?_bang,
      normalize?_map_toLower]
  · have hbang' : (word.map Char.toLower).head? ≠ some '!' := by
      rw [List.head?_map]
      intro h
      obtain ⟨c, hc, hlow⟩ := Option.map_eq_some_iff.1 h
      rw [(toLower_eq_iff (by decide) c).1 hlow] at hc
      exact hbang hc
    rw [named?_of_ne exclude hbang, named?_of_ne exclude hbang', normalize?_map_toLower]

/-- **Words that are the same but for the case of ASCII letters** name the same tag. -/
theorem named?_of_sameWord {word other : List Char} (h : sameWord word other = true)
    (exclude : Bool) : named? exclude word = named? exclude other := by
  rw [← named?_map_toLower exclude word, eq_of_beq h, named?_map_toLower]

end Wanted

/-- A tag in its normal form that is one word. -/
structure IsPlain (tag : String) (name : List Char) : Prop where
  isName : IsName name
  toList_eq : tag.toList = '#' :: name
  tagNamed_eq : tagNamed name = tag

theorem head?_lowercaseChars_ne_sign {cs : List Char} (h : cs.head? ≠ some '#') :
    (lowercaseChars cs).head? ≠ some '#' := by
  cases cs with
  | nil => exact h
  | cons c cs =>
    intro hhead
    rw [lowercaseChars, lowercaseFrom, lowercaseAt] at hhead
    split at hhead
    · split at hhead
      · exact absurd (Option.some.inj hhead) (by decide)
      · exact absurd (Option.some.inj hhead) (by decide)
    · split at hhead
      · exact absurd (Option.some.inj hhead) (by decide)
      · have hlow : lowercaseChar c = '#' := Option.some.inj hhead
        rcases (lowercaseChar_settled c).2 with hsame | hpoint
        · exact h (by rw [← hlow, hsame]; rfl)
        · rw [hlow] at hpoint
          exact absurd hpoint (by decide)

theorem exists_isPlain_of_normalize? {raw : List Char} {tag : String}
    (h : normalize? raw = some tag) (hspace : ∀ c ∈ tag.toList, isSpace c = false) :
    ∃ name, IsPlain tag name := by
  rw [normalize?] at h
  have hnot := List.head?_dropWhile_not (fun c => c == '#') (trim raw)
  cases hread : (trim raw).dropWhile (fun c => c == '#') with
  | nil =>
    rw [hread] at h
    cases h
  | cons c body =>
    rw [hread] at h hnot
    obtain rfl := Option.some.inj h
    rw [String.toList_ofList] at hspace
    have hsign : (c :: body).head? ≠ some '#' := by
      intro hhead
      rw [hhead] at hnot
      revert hnot
      decide
    have hname : IsName (lowercaseChars (c :: body)) :=
      ⟨lowercaseChars_ne_nil (List.cons_ne_nil _ _), (List.forall_mem_cons.1 hspace).2,
        head?_lowercaseChars_ne_sign hsign⟩
    exact ⟨_, hname, String.toList_ofList, tagNamed_lowercase _⟩

/-- The word that names a tag on one side. -/
def wordOf (tag : String) (exclude : Bool) : List Char :=
  if exclude then '!' :: tag.toList else tag.toList

/-- Whether a word is one of the two that name a tag, but for the case of ASCII letters. -/
def spelled (tag : String) (word : List Char) : Bool :=
  sameWord word (wordOf tag false) || sameWord word (wordOf tag true)

theorem spelled_iff {tag : String} {word : List Char} :
    spelled tag word = true ↔ ∃ exclude, sameWord word (wordOf tag exclude) = true := by
  rw [spelled, Bool.or_eq_true, Bool.exists_bool]

theorem spelled_wordOf (tag : String) (exclude : Bool) : spelled tag (wordOf tag exclude) = true :=
  spelled_iff.2 ⟨exclude, beq_self_eq_true _⟩

namespace IsPlain

variable {tag : String} {name : List Char}

theorem named?_wordOf (h : IsPlain tag name) (side exclude : Bool) :
    Wanted.named? side (wordOf tag exclude) = if side = exclude then some tag else none := by
  have hnormal : normalize? tag.toList = some tag := by
    rw [h.toList_eq, h.isName.normalize? .sign, h.tagNamed_eq]
  have hbang : tag.toList.head? ≠ some '!' := by simp [h.toList_eq]
  cases exclude with
  | false =>
    rw [wordOf, if_neg (by decide), Wanted.named?_of_ne side hbang, hnormal]
    cases side <;> rfl
  | true =>
    rw [wordOf, if_pos rfl, Wanted.named?_bang, hnormal]

theorem isWord_wordOf (h : IsPlain tag name) (exclude : Bool) : IsWord (wordOf tag exclude) := by
  have hspace := h.isName.no_space_of_spells .sign
  rw [← h.toList_eq] at hspace
  cases exclude with
  | false => exact ⟨by simp [wordOf, h.toList_eq], hspace⟩
  | true => exact ⟨List.cons_ne_nil _ _, List.forall_mem_cons.2 ⟨by decide, hspace⟩⟩

/-- A word that is spelled like the one of a side names the tag on this side, and nothing on
the other. -/
theorem named?_of_sameWord_wordOf (h : IsPlain tag name) {word : List Char} {exclude : Bool}
    (hsame : sameWord word (wordOf tag exclude) = true) (side : Bool) :
    Wanted.named? side word = if side = exclude then some tag else none := by
  rw [Wanted.named?_of_sameWord hsame, h.named?_wordOf]

/-- A word that is spelled like one of the two names no other tag. -/
theorem eq_of_named?_of_spelled (h : IsPlain tag name) {word : List Char}
    (hspelled : spelled tag word = true) {side : Bool} {other : String}
    (hnamed : Wanted.named? side word = some other) : other = tag := by
  obtain ⟨exclude, hsame⟩ := spelled_iff.1 hspelled
  rw [h.named?_of_sameWord_wordOf hsame] at hnamed
  split at hnamed
  · exact (Option.some.inj hnamed).symm
  · cases hnamed

/-- Such a word that names the tag on a side is spelled like the one of this side. -/
theorem sameWord_of_named? (h : IsPlain tag name) {word : List Char}
    (hspelled : spelled tag word = true) {side : Bool}
    (hnamed : Wanted.named? side word = some tag) : sameWord word (wordOf tag side) = true := by
  obtain ⟨exclude, hsame⟩ := spelled_iff.1 hspelled
  rw [h.named?_of_sameWord_wordOf hsame] at hnamed
  split at hnamed
  · rename_i hside
    rwa [hside]
  · cases hnamed

end IsPlain

/-! ## What is left of a query -/

/-- The words of a query in which a tag has been turned around. -/
def toggledWords (tag : String) (exclude : Bool) (all : List (List Char)) : List (List Char) :=
  all.filter (fun word => !spelled tag word) ++
    if all.any (sameWord · (wordOf tag exclude)) then [] else [wordOf tag exclude]

variable {query raw tag : String} {name : List Char}

theorem toggle_eq (hnormal : normalize? raw.toList = some tag) (query : String) (exclude : Bool) :
    toggle query raw exclude =
      joinWith " " ((toggledWords tag exclude (words query.toList)).map String.ofList) := by
  have hkept : (fun word => !sameWord word (wordOf tag exclude) &&
      !sameWord word (wordOf tag (!exclude))) = fun word => !spelled tag word := by
    funext word
    cases exclude with
    | false => rw [spelled, Bool.not_or]; rfl
    | true => rw [spelled, Bool.not_or, Bool.and_comm]; rfl
  have hadd : ∀ kept : List (List Char),
      (if (words query.toList).any (sameWord · (wordOf tag exclude)) then kept
        else kept ++ [wordOf tag exclude]) =
      kept ++ if (words query.toList).any (sameWord · (wordOf tag exclude)) then []
        else [wordOf tag exclude] := by
    intro kept
    split
    · exact (List.append_nil kept).symm
    · rfl
  rw [toggledWords, ← hadd, ← hkept, toggle, hnormal]
  cases exclude with
  | false => rfl
  | true => rfl

/-- **What is left of a query** are its words but those that are spelled like one of the
two, and the one of the side unless it was there. -/
theorem words_toggle (hnormal : normalize? raw.toList = some tag) (h : IsPlain tag name)
    (query : String) (exclude : Bool) :
    words (toggle query raw exclude).toList = toggledWords tag exclude (words query.toList) := by
  rw [toggle_eq hnormal]
  refine words_joinWith fun word hword => ?_
  rcases List.mem_append.1 hword with hword | hword
  · exact isWord_of_mem_words (List.mem_filter.1 hword).1
  · split at hword
    · cases hword
    · rw [List.mem_singleton.1 hword]
      exact h.isWord_wordOf exclude

theorem mem_toggledWords {exclude : Bool} {all : List (List Char)} {word : List Char} :
    word ∈ toggledWords tag exclude all ↔
      word ∈ all ∧ spelled tag word = false ∨
        word = wordOf tag exclude ∧ ∀ old ∈ all, sameWord old (wordOf tag exclude) = false := by
  rw [toggledWords, List.mem_append, List.mem_filter, Bool.not_eq_true']
  refine or_congr Iff.rfl ?_
  cases hany : all.any (sameWord · (wordOf tag exclude)) with
  | true =>
    obtain ⟨old, hold, hsame⟩ := List.any_eq_true.1 hany
    rw [if_pos rfl]
    refine ⟨nofun, fun h => ?_⟩
    rw [h.2 old hold] at hsame
    cases hsame
  | false =>
    rw [if_neg (by decide), List.mem_singleton]
    refine (and_iff_left fun old hold => ?_).symm
    exact Bool.eq_false_iff.2 (List.any_eq_false.1 hany old hold)

/-- The tags that the words name are the same as before, but for the tag itself. -/
theorem filterMap_named?_toggledWords (h : IsPlain tag name) (exclude side : Bool)
    (all : List (List Char)) :
    ((toggledWords tag exclude all).filterMap (Wanted.named? side)).filter (· ≠ tag) =
      (all.filterMap (Wanted.named? side)).filter (· ≠ tag) := by
  have hskip : ∀ word, spelled tag word = true →
      (Wanted.named? side word).filter (· ≠ tag) = none := by
    intro word hspelled
    cases hnamed : Wanted.named? side word with
    | none => rfl
    | some other => simp [h.eq_of_named?_of_spelled hspelled hnamed]
  have hadded : ∀ present : Bool,
      (if present then [] else [wordOf tag exclude]).filterMap
        (fun word => (Wanted.named? side word).filter (· ≠ tag)) = [] := by
    intro present
    cases present with
    | true => rfl
    | false =>
      rw [if_neg (by decide), List.filterMap_cons, hskip _ (spelled_wordOf tag exclude)]
      rfl
  have hkept : (fun word => if !spelled tag word then
      (Wanted.named? side word).filter (· ≠ tag) else none) =
        fun word => (Wanted.named? side word).filter (· ≠ tag) := by
    funext word
    cases hspelled : spelled tag word with
    | false => rfl
    | true => exact (hskip word hspelled).symm
  rw [List.filter_filterMap, List.filter_filterMap, toggledWords, List.filterMap_append, hadded,
    List.append_nil, List.filterMap_filter, hkept]

/-- A tag has been turned around on one side of the tags that a query names. -/
structure Toggled (tag : String) (exclude : Bool) (before after : Wanted) : Prop where
  /-- On this side it is there if it was not. -/
  own : tag ∈ after.side exclude ↔ tag ∉ before.side exclude
  /-- On the other side it is not there. -/
  other : tag ∉ after.side (!exclude)
  /-- The other tags are the same as before, in the same order. -/
  rest : ∀ side, (after.side side).filter (· ≠ tag) = (before.side side).filter (· ≠ tag)

theorem rest_of_toggle (hnormal : normalize? raw.toList = some tag) (h : IsPlain tag name)
    (query : String) (exclude side : Bool) :
    ((Wanted.ofQuery (toggle query raw exclude)).side side).filter (· ≠ tag) =
      ((Wanted.ofQuery query).side side).filter (· ≠ tag) := by
  rw [Wanted.side_ofQuery, Wanted.side_ofQuery, filter_firstOccurrences, filter_firstOccurrences,
    words_toggle hnormal h, filterMap_named?_toggledWords h]

/-- Once each word that names the tag is spelled like one of the two, the tag is found by
looking for the one of a side. -/
theorem mem_side_iff_of_spelled (h : IsPlain tag name)
    (hspelled : ∀ word ∈ words query.toList,
      (∃ side, Wanted.named? side word = some tag) → spelled tag word = true) (side : Bool) :
    tag ∈ (Wanted.ofQuery query).side side ↔
      ∃ word ∈ words query.toList, sameWord word (wordOf tag side) = true := by
  rw [Wanted.mem_side_ofQuery]
  constructor
  · rintro ⟨word, hword, hnamed⟩
    exact ⟨word, hword, h.sameWord_of_named? (hspelled word hword ⟨side, hnamed⟩) hnamed⟩
  · rintro ⟨word, hword, hsame⟩
    refine ⟨word, hword, ?_⟩
    rw [h.named?_of_sameWord_wordOf hsame, if_pos rfl]

/-- **The tag itself** is afterwards where one of the words that are not spelled like the
two names it, and on its side unless the word of this side was there. -/
theorem mem_side_toggle (hnormal : normalize? raw.toList = some tag) (h : IsPlain tag name)
    (query : String) (exclude side : Bool) :
    tag ∈ (Wanted.ofQuery (toggle query raw exclude)).side side ↔
      (∃ word ∈ words query.toList,
        Wanted.named? side word = some tag ∧ spelled tag word = false) ∨
      side = exclude ∧ ∀ old ∈ words query.toList, sameWord old (wordOf tag exclude) = false := by
  rw [Wanted.mem_side_ofQuery, words_toggle hnormal h]
  constructor
  · rintro ⟨word, hword, hnamed⟩
    rcases mem_toggledWords.1 hword with ⟨hold, hspelled⟩ | ⟨rfl, habsent⟩
    · exact .inl ⟨word, hold, hnamed, hspelled⟩
    · rw [h.named?_wordOf] at hnamed
      split at hnamed
      · exact .inr ⟨‹side = exclude›, habsent⟩
      · cases hnamed
  · rintro (⟨word, hold, hnamed, hspelled⟩ | ⟨rfl, habsent⟩)
    · exact ⟨word, mem_toggledWords.2 (.inl ⟨hold, hspelled⟩), hnamed⟩
    · exact ⟨_, mem_toggledWords.2 (.inr ⟨rfl, habsent⟩), by rw [h.named?_wordOf, if_pos rfl]⟩

theorem spelled_of_toggled (hnormal : normalize? raw.toList = some tag) (h : IsPlain tag name)
    {exclude side : Bool}
    (htoggled : Toggled tag exclude (.ofQuery query) (.ofQuery (toggle query raw exclude)))
    {word : List Char} (hword : word ∈ words query.toList)
    (hnamed : Wanted.named? side word = some tag) : spelled tag word = true := by
  refine Decidable.of_not_not fun hspelled => ?_
  -- A word that stays names the tag as before.
  have hstays : tag ∈ (Wanted.ofQuery (toggle query raw exclude)).side side :=
    (mem_side_toggle hnormal h query exclude side).2
      (.inl ⟨word, hword, hnamed, Bool.eq_false_iff.2 hspelled⟩)
  by_cases hside : side = exclude
  · subst hside
    exact htoggled.own.1 hstays (Wanted.mem_side_ofQuery.2 ⟨word, hword, hnamed⟩)
  · rw [Bool.eq_not.2 hside] at hstays
    exact htoggled.other hstays

theorem toggled_of_spelled (hnormal : normalize? raw.toList = some tag) (h : IsPlain tag name)
    (hspelled : ∀ word ∈ words query.toList,
      (∃ side, Wanted.named? side word = some tag) → spelled tag word = true) (exclude : Bool) :
    Toggled tag exclude (.ofQuery query) (.ofQuery (toggle query raw exclude)) := by
  have hafter : ∀ side, tag ∈ (Wanted.ofQuery (toggle query raw exclude)).side side ↔
      side = exclude ∧ tag ∉ (Wanted.ofQuery query).side exclude := by
    intro side
    rw [mem_side_toggle hnormal h, mem_side_iff_of_spelled h hspelled]
    simp only [not_exists, not_and, Bool.not_eq_true]
    refine or_iff_right ?_
    rintro ⟨word, hword, hnamed, hfalse⟩
    rw [hspelled word hword ⟨side, hnamed⟩] at hfalse
    cases hfalse
  refine ⟨(hafter _).trans (and_iff_right rfl), fun hmem => ?_,
    rest_of_toggle hnormal h query exclude⟩
  exact absurd ((hafter _).1 hmem).1 (by cases exclude <;> decide)

/-- **Turning a tag around does what the search reads** exactly if each word by which the
query names the tag, on either side, is the tag in lower case with its mark, but for the
case of ASCII letters. -/
theorem toggle_toggled_iff (query : String) (exclude : Bool)
    (hnormal : normalize? raw.toList = some tag)
    (hspace : ∀ c ∈ tag.toList, isSpace c = false) :
    Toggled tag exclude (.ofQuery query) (.ofQuery (toggle query raw exclude)) ↔
      ∀ word ∈ words query.toList,
        (∃ side, Wanted.named? side word = some tag) → spelled tag word = true := by
  obtain ⟨name, h⟩ := exists_isPlain_of_normalize? hnormal hspace
  constructor
  · rintro htoggled word hword ⟨side, hnamed⟩
    exact spelled_of_toggled hnormal h htoggled hword hnamed
  · exact fun hspelled => toggled_of_spelled hnormal h hspelled exclude

/-- Both forms of a tag, in capital letters of ASCII, and another tag between them. -/
theorem toggle_toggled_both_forms :
    normalize? "Work".toList = some "#work" ∧
      (∀ c ∈ "#work".toList, isSpace c = false) ∧
        Toggled "#work" true (.ofQuery "#WORK #a !#Work")
          (.ofQuery (toggle "#WORK #a !#Work" "Work" true)) := by
  have hnormal : normalize? "Work".toList = some "#work" := by decide
  have hspace : ∀ c ∈ "#work".toList, isSpace c = false := no_space_of_any (by decide)
  refine ⟨hnormal, hspace, (toggle_toggled_iff "#WORK #a !#Work" true hnormal hspace).2 ?_⟩
  have hwords : words "#WORK #a !#Work".toList =
      ["#WORK".toList, ['#', 'a'], "!#Work".toList] := by decide
  rw [hwords, List.forall_mem_cons, List.forall_mem_cons, List.forall_mem_singleton]
  refine ⟨fun _ => by decide, ?_, fun _ => by decide⟩
  rintro ⟨side, hside⟩
  revert side
  decide

set_option maxRecDepth 20000 in
theorem lowercaseRuns_image?_acute :
    lowercaseRuns.findSome? (·.image? 0xc9) = some 0xe9 := by
  unfold lowercaseRuns
  rw [String.toList_ofList]
  decide +kernel

/-- **Beyond ASCII the case of letters counts**: the tag stands in the query in a capital
letter, and instead of going away it is added in a small one. -/
theorem toggle_leaves_accent :
    normalize? "#É".toList = some "#é" ∧ "#é" ∈ (Wanted.ofQuery "#É").primary ∧
      toggle "#É" "#É" false = "#É #é" ∧
        ¬ Toggled "#é" false (.ofQuery "#É") (.ofQuery (toggle "#É" "#É" false)) := by
  have hlower : lowercaseChars ['É'] = ['é'] := by
    have hchar : lowercaseChar 'É' = 'é' :=
      lowercaseChar_of_image (by decide) lowercaseRuns_image?_acute
    rw [lowercaseChars, lowercaseFrom, lowercaseFrom, lowercaseAt, if_neg (by decide),
      if_neg (by decide), hchar]
    rfl
  have hnormal : normalize? "#É".toList = some "#é" := by
    show some (String.ofList ('#' :: lowercaseChars ['É'])) = some "#é"
    rw [hlower]
  have hbefore : "#é" ∈ (Wanted.ofQuery "#É").side false :=
    Wanted.mem_side_ofQuery.2 ⟨['#', 'É'], by decide, hnormal⟩
  have htoggle : toggle "#É" "#É" false = "#É #é" := by
    rw [toggle_eq hnormal]
    decide
  have hafter : "#é" ∈ (Wanted.ofQuery "#É #é").side false :=
    Wanted.mem_side_ofQuery.2 ⟨['#', 'É'], by decide, hnormal⟩
  refine ⟨hnormal, hbefore, htoggle, fun htoggled => ?_⟩
  rw [htoggle] at htoggled
  exact htoggled.own.1 hafter hbefore

end Tag

end NoteVault
