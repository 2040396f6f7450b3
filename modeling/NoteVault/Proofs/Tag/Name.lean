import NoteVault.Proofs.Query.Token
import NoteVault.Proofs.Tag.Cooccurrence
import NoteVault.Proofs.Text.Words
import NoteVault.Proofs.Unicode.Lowercase

/-!
# Tags that are one word

A query names tags by its words.  A name without white space and without a number
sign in front of it (`IsName`) is one word, with a number sign of its own or without
one, and both forms mean the same tag, the lower case of the name behind a number
sign (`tagNamed`); so does the name in lower case, for lower case is settled.  A
query of one such word asks for this tag alone (`IsName.ofQuery`), and finds the notes
that carry it (`matched_search_of_wanted`).
-/

namespace NoteVault

open Unicode

namespace Tag

open Text

/-- A name that a query can give to a tag: a word that begins with no number sign. -/
structure IsName (name : List Char) : Prop where
  ne_nil : name ≠ []
  no_space : ∀ c ∈ name, isSpace c = false
  no_sign : name.head? ≠ some '#'

/-- The tag with a name, as it is looked up. -/
def tagNamed (name : List Char) : String := String.ofList ('#' :: lowercaseChars name)

theorem tagNamed_lowercase (name : List Char) : tagNamed (lowercaseChars name) = tagNamed name := by
  rw [tagNamed, lowercaseChars_lowercaseChars, tagNamed]

theorem lowercase_sign (name : List Char) :
    lowercase (String.ofList ('#' :: name)) = tagNamed name := by
  rw [lowercase, String.toList_ofList, lowercaseChars_numberSign, tagNamed]

/-- The two forms in which a word gives a name: as it is, or behind a number sign. -/
inductive Spells (name : List Char) : List Char → Prop
  | bare : Spells name name
  | sign : Spells name ('#' :: name)

namespace IsName

variable {name word : List Char}

theorem dropWhile_sign (h : IsName name) : name.dropWhile (· == '#') = name := by
  obtain ⟨c, cs, rfl⟩ := List.exists_cons_of_ne_nil h.ne_nil
  have hc : ¬ (c == '#') = true := fun heq => h.no_sign (by rw [eq_of_beq heq]; rfl)
  exact List.dropWhile_cons_of_neg hc

theorem no_space_of_spells (h : IsName name) (hword : Spells name word) :
    ∀ c ∈ word, isSpace c = false := by
  cases hword with
  | bare => exact h.no_space
  | sign => exact List.forall_mem_cons.2 ⟨by decide, h.no_space⟩

/-- **Both forms of a name mean the same tag.** -/
theorem normalize? (h : IsName name) (hword : Spells name word) :
    normalize? word = some (tagNamed name) := by
  have hdrop : word.dropWhile (· == '#') = name := by
    cases hword with
    | bare => exact h.dropWhile_sign
    | sign => exact h.dropWhile_sign
  rw [Tag.normalize?, trim_eq_self (trimmed_of_no_space (h.no_space_of_spells hword)), hdrop]
  obtain ⟨c, cs, rfl⟩ := List.exists_cons_of_ne_nil h.ne_nil
  rfl

/-- A query of one word that gives a name asks for its tag alone. -/
theorem ofQuery (h : IsName name) (hword : Spells name word) (hbang : word.head? ≠ some '!') :
    Wanted.ofQuery (String.ofList word) = ⟨[tagNamed name], []⟩ := by
  have hne : word ≠ [] := by
    cases hword with
    | bare => exact h.ne_nil
    | sign => exact List.cons_ne_nil _ _
  have hplain : ∀ rest, word ≠ '!' :: rest := by
    rintro rest rfl
    exact hbang rfl
  rw [Wanted.ofQuery, String.toList_ofList, words_eq_singleton hne (h.no_space_of_spells hword),
    Wanted.foldl_addWord, List.filterMap_cons, List.filterMap_cons, Wanted.asked?_of_ne hplain,
    Wanted.ruledOut?_of_ne hplain, h.normalize? hword]
  rfl

end IsName

/-- **A query that asks for one tag** finds the notes that carry it. -/
theorem matched_search_of_wanted [Collator] {query tag : String}
    (h : Wanted.ofQuery query = ⟨[tag], []⟩) (notes : List FileRecord) :
    (search query notes).matched = recentFirst (notes.filter (·.hasTag tag)) := by
  have haccepts : Wanted.accepts ⟨[tag], []⟩ = (·.hasTag tag) := by
    funext note
    simp [Wanted.accepts]
  rw [matched_search (by rw [h]; exact List.cons_ne_nil _ _), h, haccepts]

end Tag

end NoteVault
