import NoteVault.Proofs.Text.Bytes
import NoteVault.Proofs.Text.Cut
import NoteVault.Proofs.Text.Words
import NoteVault.Tag.Completion

/-!
# The tag at the cursor

The tag that is being typed at a cursor is a mark and what is typed of a name; it reaches
from a blank, or from the beginning of the query, up to the cursor
(`Active.at?_eq_some_iff`).  A search reads words, which any white space ends.  As long as
the last white space before the cursor is a blank, both see the same word
(`Active.at?_sees_word`).  Behind a tab they do not (`Active.at?_behind_tab`).
-/

namespace NoteVault.Tag

open Text Unicode

/-- The marks of a tag in a query, which asks for it or rules it out. -/
inductive IsMark : List Char → Prop
  | sign : IsMark ['#']
  | bangSign : IsMark ['!', '#']

theorem IsMark.ne_nil {mark : List Char} (h : IsMark mark) : mark ≠ [] := by
  cases h with
  | sign => exact List.cons_ne_nil _ _
  | bangSign => exact List.cons_ne_nil _ _

theorem exists_isMark_iff {word : List Char} :
    (∃ mark, IsMark mark ∧ mark <+: word) ↔ ['#'] <+: word ∨ ['!', '#'] <+: word := by
  constructor
  · rintro ⟨mark, hmark, h⟩
    cases hmark with
    | sign => exact .inl h
    | bangSign => exact .inr h
  · rintro (h | h)
    · exact ⟨_, .sign, h⟩
    · exact ⟨_, .bangSign, h⟩

namespace Active

variable {query : String} {cursor : Nat} {active : Active} {before after head word : List Char}

theorem lastWord_eq_iff :
    lastWord before = (head, word) ↔
      head ++ word = before ∧ ' ' ∉ word ∧ ∀ c ∈ head.getLast?, c = ' ' := by
  constructor
  · intro h
    unfold lastWord at h
    split at h
    · rename_i a b hcut
      obtain ⟨rfl, hnot⟩ := cutLast_eq_some_iff.1 hcut
      obtain ⟨rfl, rfl⟩ := Prod.mk.inj h
      refine ⟨by rw [List.append_assoc, List.singleton_append], hnot, fun c hc => ?_⟩
      rw [List.getLast?_concat] at hc
      exact (Option.some.inj hc).symm
    · rename_i hcut
      obtain ⟨rfl, rfl⟩ := Prod.mk.inj h
      exact ⟨rfl, cutLast_eq_none_iff.1 hcut, fun c hc => absurd hc (by simp)⟩
  · rintro ⟨rfl, hnot, hlast⟩
    unfold lastWord
    rcases List.eq_nil_or_concat head with rfl | ⟨a, c, rfl⟩
    · rw [List.nil_append, cutLast_eq_none_iff.2 hnot]
    · rw [List.concat_eq_append] at hlast ⊢
      obtain rfl := hlast c (by rw [List.getLast?_concat]; rfl)
      have hcut : cutLast ' ' (a ++ [' '] ++ word) = some (a, word) :=
        cutLast_eq_some_iff.2 ⟨by rw [List.append_assoc, List.singleton_append], hnot⟩
      rw [hcut]

theorem markAndName?_eq_some_iff {mark name : List Char} :
    markAndName? word = some (mark, name) ↔ mark ++ name = word ∧ IsMark mark := by
  constructor
  · intro h
    unfold markAndName? at h
    split at h
    · obtain ⟨rfl, rfl⟩ := Prod.mk.inj (Option.some.inj h)
      exact ⟨rfl, .bangSign⟩
    · obtain ⟨rfl, rfl⟩ := Prod.mk.inj (Option.some.inj h)
      exact ⟨rfl, .sign⟩
    · cases h
  · rintro ⟨rfl, hmark⟩
    cases hmark with
    | sign => rfl
    | bangSign => rfl

/-- A tag is typed at the end of a text: behind a head that is empty or ends in a blank
stand its mark and what is typed of its name. -/
structure TypedBehind (active : Active) (head before : List Char) : Prop where
  whole : head ++ (active.mark ++ active.typed) = before
  isMark : IsMark active.mark
  no_blank : ' ' ∉ active.typed
  head_blank : ∀ c ∈ head.getLast?, c = ' '
  start : active.start = byteLength head

theorem blank_not_mem_iff {mark name : List Char} (h : IsMark mark) :
    ' ' ∉ mark ++ name ↔ ' ' ∉ name := by
  cases h with
  | sign => simp
  | bangSign => simp

theorem TypedBehind.lastWord_eq (h : active.TypedBehind head before) :
    lastWord before = (head, active.mark ++ active.typed) :=
  lastWord_eq_iff.2 ⟨h.whole, (blank_not_mem_iff h.isMark).2 h.no_blank, h.head_blank⟩

theorem ofBefore?_eq_some_iff :
    ofBefore? before = some active ↔ ∃ head, active.TypedBehind head before := by
  constructor
  · intro h
    obtain ⟨⟨mark, typed⟩, hread, rfl⟩ := Option.map_eq_some_iff.1 h
    obtain ⟨hwhole, hnot, hblank⟩ := lastWord_eq_iff.1 (rfl : lastWord before = (_, _))
    obtain ⟨hword, hmark⟩ := markAndName?_eq_some_iff.1 hread
    rw [← hword] at hwhole hnot
    exact ⟨_, hwhole, hmark, (blank_not_mem_iff hmark).1 hnot, hblank, rfl⟩
  · rintro ⟨head, h⟩
    have hread : markAndName? (active.mark ++ active.typed) = some (active.mark, active.typed) :=
      markAndName?_eq_some_iff.2 ⟨rfl, h.isMark⟩
    rw [ofBefore?, h.lastWord_eq]
    show Option.map _ (markAndName? (active.mark ++ active.typed)) = _
    rw [hread, Option.map_some, ← h.start]

/-- **The tag at a cursor** is typed at the end of what stands before it. -/
theorem at?_eq_some_iff (h : PartsAt cursor query.toList before after) :
    at? query cursor = some active ↔ ∃ head, active.TypedBehind head before := by
  rw [at?, splitAtByte_eq_iff.2 h, ofBefore?_eq_some_iff]

/-- A text ends in a word as a search reads it: behind a head that is empty or ends in
white space.  The word is empty if the text itself ends so. -/
structure EndsInWord (head word text : List Char) : Prop where
  whole : head ++ word = text
  no_space : ∀ c ∈ word, isSpace c = false
  wordStart : WordStart head

namespace EndsInWord

/-- A search reads this word last. -/
theorem words_eq (h : EndsInWord head word before) (hne : word ≠ []) :
    words before = words head ++ [word] := by
  rw [← h.whole, words_append_of_wordStart h.wordStart, words_eq_singleton hne h.no_space]

/-- Behind a blank this word is also the one that a tag is read from. -/
theorem typedBehind_iff (h : EndsInWord head word before)
    (hblank : ∀ c ∈ head.getLast?, c = ' ') :
    (∃ head', active.TypedBehind head' before) ↔
      active.mark ++ active.typed = word ∧ IsMark active.mark ∧ active.start = byteLength head := by
  have hnot : ' ' ∉ word := by
    intro hmem
    have hspace := h.no_space ' ' hmem
    revert hspace
    decide
  constructor
  · rintro ⟨head', htyped⟩
    have hlast : lastWord before = (head, word) := lastWord_eq_iff.2 ⟨h.whole, hnot, hblank⟩
    obtain ⟨rfl, rfl⟩ := Prod.mk.inj (hlast.symm.trans htyped.lastWord_eq)
    exact ⟨rfl, htyped.isMark, htyped.start⟩
  · rintro ⟨rfl, hmark, hstart⟩
    exact ⟨head, h.whole, hmark, (blank_not_mem_iff hmark).1 hnot, hblank, hstart⟩

end EndsInWord

/-- **Completion sees the word that a search reads**, where the last white space before
the cursor, if there is any, is a blank.  There is a tag at the cursor exactly if this word
begins with a mark, and then it is the whole word up to the cursor. -/
theorem at?_sees_word (hcursor : PartsAt cursor query.toList before after)
    (hword : EndsInWord head word before) (hblank : ∀ c ∈ head.getLast?, c = ' ') :
    ((at? query cursor).isSome = true ↔ ['#'] <+: word ∨ ['!', '#'] <+: word) ∧
      ∀ active, at? query cursor = some active →
        active.mark ++ active.typed = word ∧ IsMark active.mark ∧
          active.start = byteLength head ∧
          active.start + byteLength active.mark + byteLength active.typed = byteLength before ∧
          words before = words head ++ [word] := by
  have hactive : ∀ active, at? query cursor = some active ↔
      active.mark ++ active.typed = word ∧ IsMark active.mark ∧ active.start = byteLength head :=
    fun active => (at?_eq_some_iff hcursor).trans (hword.typedBehind_iff hblank)
  refine ⟨?_, fun active h => ?_⟩
  · rw [Option.isSome_iff_exists, ← exists_isMark_iff]
    constructor
    · rintro ⟨active, h⟩
      obtain ⟨rfl, hmark, -⟩ := (hactive active).1 h
      exact ⟨_, hmark, List.prefix_append _ _⟩
    · rintro ⟨mark, hmark, name, rfl⟩
      exact ⟨⟨mark, name, byteLength head⟩, (hactive _).2 ⟨rfl, hmark, rfl⟩⟩
  · obtain ⟨rfl, hmark, hstart⟩ := (hactive active).1 h
    have hne : active.mark ++ active.typed ≠ [] := List.append_ne_nil_of_left_ne_nil hmark.ne_nil _
    refine ⟨rfl, hmark, hstart, ?_, hword.words_eq hne⟩
    rw [← hword.whole, byteLength_append, byteLength_append, hstart, Nat.add_assoc]

/-- A cursor inside the last character, behind a word that ends in a tab. -/
theorem at?_sees_word_in_character :
    PartsAt 8 "á\tb #pé".toList ['á', '\t', 'b', ' ', '#', 'p'] ['é'] ∧
      EndsInWord ['á', '\t', 'b', ' '] ['#', 'p'] ['á', '\t', 'b', ' ', '#', 'p'] ∧
      (at? "á\tb #pé" 8).isSome = true ∧
      ∀ active, at? "á\tb #pé" 8 = some active →
        active.mark ++ active.typed = ['#', 'p'] ∧ active.start = 5 := by
  have hcursor : PartsAt 8 "á\tb #pé".toList ['á', '\t', 'b', ' ', '#', 'p'] ['é'] :=
    splitAtByte_eq_iff.1 (by decide)
  have hword : EndsInWord ['á', '\t', 'b', ' '] ['#', 'p'] ['á', '\t', 'b', ' ', '#', 'p'] :=
    ⟨rfl, no_space_of_any (by decide), by decide⟩
  have hblank : ∀ c ∈ ['á', '\t', 'b', ' '].getLast?, c = ' ' :=
    fun c hc => (Option.some.inj hc).symm
  obtain ⟨hsome, hactive⟩ := at?_sees_word hcursor hword hblank
  refine ⟨hcursor, hword, hsome.2 (.inl ⟨['p'], rfl⟩), fun active h => ?_⟩
  obtain ⟨htyped, -, hstart, -⟩ := hactive active h
  exact ⟨htyped, hstart⟩

/-- **Behind a tab completion sees another word**: the word behind the tab has a mark, and
there is no tag at the cursor; and the word behind the tab has none, and there is a tag at
the cursor, which holds the tab. -/
theorem at?_behind_tab :
    (PartsAt 5 "x\t#ho".toList ['x', '\t', '#', 'h', 'o'] [] ∧
        EndsInWord ['x', '\t'] ['#', 'h', 'o'] ['x', '\t', '#', 'h', 'o'] ∧
        at? "x\t#ho" 5 = none) ∧
      PartsAt 4 "#a\tb".toList ['#', 'a', '\t', 'b'] [] ∧
        EndsInWord ['#', 'a', '\t'] ['b'] ['#', 'a', '\t', 'b'] ∧
        at? "#a\tb" 4 = some ⟨['#'], ['a', '\t', 'b'], 0⟩ := by
  have hsign : EndsInWord ['x', '\t'] ['#', 'h', 'o'] ['x', '\t', '#', 'h', 'o'] :=
    ⟨rfl, no_space_of_any (by decide), by decide⟩
  have hplain : EndsInWord ['#', 'a', '\t'] ['b'] ['#', 'a', '\t', 'b'] :=
    ⟨rfl, no_space_of_any (by decide), by decide⟩
  exact ⟨⟨splitAtByte_eq_iff.1 (by decide), hsign, by decide⟩,
    splitAtByte_eq_iff.1 (by decide), hplain, by decide⟩

end Active

end NoteVault.Tag
