import Mathlib.Data.List.Basic
import NoteVault.Proofs.Tag.ActiveWord
import NoteVault.Proofs.Unicode.Prefix

/-!
# Suggestions while a tag is typed

What is suggested are the tags whose lower case begins with the lower case of what is typed
(`mem_suggest_iff`).  More typed means fewer suggestions, in the same order, because the
lower case of a text begins with that of its beginnings.  The exception to that is the one
exception here (`typing_narrows`): what is typed so far ends in a capital sigma, which is
read as a final one, and in the tag a character with case follows
(`capital_sigma_hides_tag`).
-/

namespace NoteVault.Tag

open Text Unicode

variable {query tag : String} {cursor : Nat} {active : Active} {names : List String}

theorem bareName_sign (name : List Char) : bareName (String.ofList ('#' :: name)) = name := by
  rw [bareName, String.toList_ofList]
  rfl

/-! ## What is suggested -/

theorem suggest_of_active (h : Active.at? query cursor = some active) (hne : active.typed ≠ [])
    (names : List String) : suggest query cursor names = ((names.map bareName).filter fun name =>
      (lowercaseChars active.typed).isPrefixOf (lowercaseChars name)).map String.ofList := by
  rw [suggest, h]
  exact if_neg (by simpa using hne)

theorem mem_suggest_of_active (h : Active.at? query cursor = some active)
    (hne : active.typed ≠ []) :
    tag ∈ suggest query cursor names ↔ (∃ name ∈ names, bareName name = tag.toList) ∧
      lowercaseChars active.typed <+: lowercaseChars tag.toList := by
  rw [suggest_of_active h hne, List.mem_map]
  constructor
  · rintro ⟨bare, hbare, rfl⟩
    obtain ⟨hmem, hbegins⟩ := List.mem_filter.1 hbare
    rw [String.toList_ofList]
    exact ⟨List.mem_map.1 hmem, List.isPrefixOf_iff_prefix.1 hbegins⟩
  · rintro ⟨hname, hbegins⟩
    refine ⟨tag.toList, List.mem_filter.2 ⟨List.mem_map.2 hname, ?_⟩, String.ofList_toList⟩
    exact List.isPrefixOf_iff_prefix.2 hbegins

/-- **What is suggested**: the tags that begin with what is typed, in lower case. -/
theorem mem_suggest_iff :
    tag ∈ suggest query cursor names ↔
      ∃ active, Active.at? query cursor = some active ∧ active.typed ≠ [] ∧
        (∃ name ∈ names, bareName name = tag.toList) ∧
        lowercaseChars active.typed <+: lowercaseChars tag.toList := by
  constructor
  · intro h
    have hsuggest := h
    unfold suggest at hsuggest
    split at hsuggest
    · cases hsuggest
    · rename_i active hactive
      by_cases hne : active.typed = []
      · rw [if_pos (by rw [hne]; rfl)] at hsuggest
        cases hsuggest
      · exact ⟨active, hactive, hne, (mem_suggest_of_active hactive hne).1 h⟩
  · rintro ⟨active, hactive, hne, h⟩
    exact (mem_suggest_of_active hactive hne).2 h

/-- Where more is typed, less is suggested, as long as lower case keeps the beginning. -/
theorem suggest_sublist {query' : String} {cursor' : Nat} {active' : Active}
    (h : Active.at? query cursor = some active) (hne : active.typed ≠ [])
    (h' : Active.at? query' cursor' = some active') (hne' : active'.typed ≠ [])
    (hbegins : lowercaseChars active.typed <+: lowercaseChars active'.typed)
    (names : List String) : (suggest query' cursor' names).Sublist (suggest query cursor names) := by
  rw [suggest_of_active h hne, suggest_of_active h' hne']
  refine (List.monotone_filter_right _ fun name hname => ?_).map _
  exact List.isPrefixOf_iff_prefix.2 (hbegins.trans (List.isPrefixOf_iff_prefix.1 hname))

/-! ## One character more -/

/-- The tag at the end of a query goes on with any character but a blank. -/
theorem Active.TypedBehind.concat {head before : List Char} (h : active.TypedBehind head before)
    {c : Char} (hc : c ≠ ' ') :
    { active with typed := active.typed ++ [c] }.TypedBehind head (before ++ [c]) where
  whole := by rw [← h.whole, List.append_assoc, List.append_assoc]
  isMark := h.isMark
  no_blank := by
    rw [List.mem_append, List.mem_singleton, not_or]
    exact ⟨h.no_blank, hc.symm⟩
  head_blank := h.head_blank
  start := h.start

theorem Active.at?_push (h : Active.at? query query.utf8ByteSize = some active) {c : Char}
    (hc : c ≠ ' ') : Active.at? (query.push c) (query.push c).utf8ByteSize =
      some { active with typed := active.typed ++ [c] } := by
  obtain ⟨head, htyped⟩ := (at?_eq_some_iff (PartsAt.utf8ByteSize query)).1 h
  refine (at?_eq_some_iff (PartsAt.utf8ByteSize _)).2 ⟨head, ?_⟩
  rw [String.toList_push]
  exact htyped.concat hc

/-- **Typing narrows suggestions.**  At the end of a query a tag is being typed, and
something is typed of its name.  With one character more the suggestions are some of those
before, in the same order, whatever the tags are; and a tag that goes on from what is typed
in the same letters is suggested.  Both hold but for a capital sigma at which what is typed
breaks off, when a character with case follows. -/
theorem typing_narrows (hactive : Active.at? query query.utf8ByteSize = some active)
    (htyped : active.typed ≠ []) :
    (∀ c, c ≠ ' ' →
      ((∀ names, (suggest (query.push c) (query.push c).utf8ByteSize names).Sublist
          (suggest query query.utf8ByteSize names)) ↔
        ¬ (OpenSigma [] active.typed ∧ meetsCased [c] = true))) ∧
      ∀ names rest, String.ofList ('#' :: (active.typed ++ rest)) ∈ names →
        (String.ofList (active.typed ++ rest) ∈ suggest query query.utf8ByteSize names ↔
          ¬ (OpenSigma [] active.typed ∧ meetsCased rest = true)) := by
  have hgoesOn : ∀ names rest, String.ofList ('#' :: (active.typed ++ rest)) ∈ names →
      (String.ofList (active.typed ++ rest) ∈ suggest query query.utf8ByteSize names ↔
        ¬ (OpenSigma [] active.typed ∧ meetsCased rest = true)) := by
    intro names rest hname
    rw [mem_suggest_of_active hactive htyped, String.toList_ofList, lowercaseChars_prefix_iff]
    exact and_iff_right ⟨_, hname, bareName_sign _⟩
  refine ⟨fun c hc => ?_, hgoesOn⟩
  have hpush := Active.at?_push hactive hc
  have hne : active.typed ++ [c] ≠ [] := List.append_ne_nil_of_left_ne_nil htyped _
  rw [← lowercaseChars_prefix_iff]
  constructor
  · intro h
    -- The tag that consists of what is typed with the character more tells.
    let name := String.ofList (active.typed ++ [c])
    have hname : bareName (String.ofList ('#' :: (active.typed ++ [c]))) = name.toList := by
      rw [bareName_sign, String.toList_ofList]
    have hlonger : name ∈ suggest (query.push c) (query.push c).utf8ByteSize
        [String.ofList ('#' :: (active.typed ++ [c]))] := by
      refine (mem_suggest_of_active hpush hne).2 ⟨⟨_, List.mem_singleton_self _, hname⟩, [], ?_⟩
      rw [List.append_nil, String.toList_ofList]
    have hshorter := ((mem_suggest_of_active hactive htyped).1 ((h _).subset hlonger)).2
    rwa [String.toList_ofList] at hshorter
  · exact fun hbegins => suggest_sublist hactive htyped hpush hne hbegins

/-- A capital sigma breaks off what is typed, but what follows has no case. -/
theorem typing_narrows_street :
    Active.at? "a !#ΟΔΟΣ" "a !#ΟΔΟΣ".utf8ByteSize = some ⟨['!', '#'], ['Ο', 'Δ', 'Ο', 'Σ'], 2⟩ ∧
      (∀ names, (suggest "a !#ΟΔΟΣ/" "a !#ΟΔΟΣ/".utf8ByteSize names).Sublist
        (suggest "a !#ΟΔΟΣ" "a !#ΟΔΟΣ".utf8ByteSize names)) ∧
      "ΟΔΟΣ/Α" ∈ suggest "a !#ΟΔΟΣ" "a !#ΟΔΟΣ".utf8ByteSize ["#home", "#ΟΔΟΣ/Α"] := by
  have hactive : Active.at? "a !#ΟΔΟΣ" "a !#ΟΔΟΣ".utf8ByteSize =
      some ⟨['!', '#'], ['Ο', 'Δ', 'Ο', 'Σ'], 2⟩ := by decide
  obtain ⟨hnarrows, hgoesOn⟩ := typing_narrows hactive (List.cons_ne_nil _ _)
  have hslash : ∀ rest, meetsCased ('/' :: rest) = false := fun rest => rfl
  refine ⟨hactive, ?_, ?_⟩
  · exact (hnarrows '/' (by decide)).2 fun h => by simp [hslash] at h
  · exact (hgoesOn ["#home", "#ΟΔΟΣ/Α"] ['/', 'Α'] (by decide)).2 fun h => by simp [hslash] at h

/-- **A capital sigma hides a tag** that goes on in the same letters: it comes back with
the next letter. -/
theorem capital_sigma_hides_tag :
    Active.at? "#aΣ" "#aΣ".utf8ByteSize = some ⟨['#'], ['a', 'Σ'], 0⟩ ∧
      suggest "#aΣ" "#aΣ".utf8ByteSize ["#aΣa"] = [] ∧
      suggest "#aΣa" "#aΣa".utf8ByteSize ["#aΣa"] = ["aΣa"] := by
  decide

end NoteVault.Tag
