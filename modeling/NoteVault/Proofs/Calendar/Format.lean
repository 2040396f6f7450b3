import NoteVault.Calendar.Format
import NoteVault.Proofs.Text.Cut

/-!
# Date formats are written as they are read

A date format is read from the left.  Text in brackets is literal; else the longest word
that stands there is a field, and where no word stands the next character is literal
(`Reads`).  A format can be read in exactly one way, and its pattern is what has been
read, written item by item (`Reads.translateFrom_eq`).

Nothing that is written of an item runs into what stands behind it
(`items?_written_append`): a percent sign of the text is doubled, and each directive ends
with its letter.  So the items are found again in every pattern, and a date format writes
every moment that the calendar reaches.
-/

namespace NoteVault.Calendar

open Text

/-- An item as it stands in a pattern. -/
def Item.written : Item → List Char
  | .literal c => literalText c
  | .field f => f.directive.toList

/-! ## Items in a pattern -/

theorem items?_cons {c : Char} (h : c ≠ '%') (cs : List Char) :
    items? (c :: cs) = (items? cs).map (.literal c :: ·) := by
  rw [items?, if_neg h]
  all_goals
    intros
    exact absurd ‹c = '%'› h

/-- **An item is found again** in front of anything else. -/
theorem items?_written_append (item : Item) (rest : List Char) :
    items? (item.written ++ rest) = (items? rest).map (item :: ·) := by
  cases item with
  | field f => cases f <;> rfl
  | literal c =>
    by_cases hc : c = '%'
    · subst hc
      rfl
    · rw [Item.written, literalText, if_neg hc, List.singleton_append, items?_cons hc]

theorem items?_flatMap_written (items : List Item) :
    items? (items.flatMap Item.written) = some items := by
  induction items with
  | nil => rfl
  | cons item items ih => rw [List.flatMap_cons, items?_written_append, ih, Option.map_some]

/-! ## Words -/

/-- A word with its field stands at the beginning of a text, and no longer word does. -/
structure LongestWord (cs : List Char) (word : String) (field : Field) : Prop where
  mem : (word, field) ∈ formatWords
  leads : word.toList <+: cs
  longest : ∀ other ∈ formatWords, other.1.toList <+: cs → other.1.length ≤ word.length

theorem leadingWord?_eq_none_iff {words : List (String × Field)} {cs : List Char} :
    leadingWord? words cs = none ↔ ∀ entry ∈ words, ¬ entry.1.toList <+: cs := by
  induction words with
  | nil => simp [leadingWord?]
  | cons entry words ih =>
    obtain ⟨word, field⟩ := entry
    rw [leadingWord?, List.forall_mem_cons, ← ih, ← List.isPrefixOf_iff_prefix]
    split <;> simp_all

/-- Of words in the order of their lengths the first that stands there is the longest. -/
theorem exists_of_leadingWord? {words : List (String × Field)} {cs : List Char} {field : Field}
    {more : Nat} (hsorted : words.Pairwise fun a b => b.1.length ≤ a.1.length)
    (h : leadingWord? words cs = some (field, more)) :
    ∃ word, (word, field) ∈ words ∧ word.toList <+: cs ∧ more = word.length - 1 ∧
      ∀ other ∈ words, other.1.toList <+: cs → other.1.length ≤ word.length := by
  induction words with
  | nil => cases h
  | cons entry words ih =>
    obtain ⟨word, found⟩ := entry
    obtain ⟨hlonger, hsorted⟩ := List.pairwise_cons.1 hsorted
    rw [leadingWord?] at h
    split at h
    · rename_i hleads
      obtain ⟨rfl, rfl⟩ := Prod.mk.inj (Option.some.inj h)
      refine ⟨word, List.mem_cons_self, List.isPrefixOf_iff_prefix.1 hleads, rfl, ?_⟩
      intro other hother _
      rcases List.mem_cons.1 hother with rfl | hother
      · exact Nat.le_refl _
      · exact hlonger other hother
    · rename_i hleads
      obtain ⟨word', hmem, hbegins, hmore, hlongest⟩ := ih hsorted h
      refine ⟨word', List.mem_cons_of_mem _ hmem, hbegins, hmore, ?_⟩
      intro other hother hled
      rcases List.mem_cons.1 hother with rfl | hother
      · exact absurd (List.isPrefixOf_iff_prefix.2 hled) hleads
      · exact hlongest other hother hled

theorem formatWords_sorted : formatWords.Pairwise fun a b => b.1.length ≤ a.1.length := by
  decide

/-- Each word has one field. -/
theorem formatWords_unique :
    ∀ entry ∈ formatWords, ∀ other ∈ formatWords, entry.1 = other.1 → entry = other := by
  decide

/-- Where a word begins there is no bracket, and it ends behind its first character. -/
theorem exists_cons_of_mem_formatWords {entry : String × Field} (h : entry ∈ formatWords) :
    ∃ c cs, entry.1.toList = c :: cs ∧ c ≠ '[' ∧ entry.1.length - 1 = cs.length := by
  have hall : formatWords.all (fun entry => entry.1.toList.head?.any (· ≠ '[')) = true := by
    decide
  have hhead := List.all_eq_true.1 hall entry h
  cases hword : entry.1.toList with
  | nil => simp [hword] at hhead
  | cons c cs =>
    refine ⟨c, cs, rfl, by simpa [hword] using hhead, ?_⟩
    rw [← String.length_toList, hword, List.length_cons, Nat.add_sub_cancel]

theorem LongestWord.leadingWord?_eq {cs : List Char} {word : String} {field : Field}
    (h : LongestWord cs word field) :
    leadingWord? formatWords cs = some (field, word.length - 1) := by
  cases hfound : leadingWord? formatWords cs with
  | none => exact absurd h.leads (leadingWord?_eq_none_iff.1 hfound _ h.mem)
  | some found =>
    obtain ⟨field', more⟩ := found
    obtain ⟨word', hmem, hleads, rfl, hlongest⟩ :=
      exists_of_leadingWord? formatWords_sorted hfound
    -- Two longest words are equally long, so they are the same beginning of the text.
    have hlength : word'.length = word.length :=
      Nat.le_antisymm (h.longest _ hmem hleads) (hlongest _ h.mem h.leads)
    have hword : word' = word := by
      rw [← String.length_toList, ← String.length_toList] at hlength
      have hbegins := List.prefix_of_prefix_length_le hleads h.leads (Nat.le_of_eq hlength)
      exact String.toList_inj.1 (hbegins.eq_of_length hlength)
    subst hword
    have hentry := formatWords_unique _ hmem _ h.mem rfl
    rw [(Prod.mk.inj hentry).2]

/-! ## Reading a format -/

namespace DateFormat

/-- How a date format is read from the left: the items that it stands for. -/
inductive Reads : List Char → List Item → Prop
  | done : Reads [] []
  /-- Text in brackets, up to the first closing one, is literal. -/
  | bracketed {inner rest : List Char} {items : List Item} (hinner : ']' ∉ inner)
      (hrest : Reads rest items) :
      Reads ('[' :: (inner ++ ']' :: rest)) (inner.map .literal ++ items)
  /-- The longest word that stands there is a field. -/
  | word {word : String} {field : Field} {rest : List Char} {items : List Item}
      (hword : LongestWord (word.toList ++ rest) word field) (hrest : Reads rest items) :
      Reads (word.toList ++ rest) (.field field :: items)
  /-- Any other character is literal, a bracket that is not closed too. -/
  | literal {c : Char} {rest : List Char} {items : List Item} (hopen : c = '[' → ']' ∉ rest)
      (hword : ∀ entry ∈ formatWords, ¬ entry.1.toList <+: c :: rest)
      (hrest : Reads rest items) : Reads (c :: rest) (.literal c :: items)

theorem translateFrom_skip (skip : Nat) (cs : List Char) :
    translateFrom skip cs = translateFrom 0 (cs.drop skip) := by
  induction cs generalizing skip with
  | nil => rw [List.drop_nil, translateFrom, translateFrom]
  | cons c cs ih =>
    cases skip with
    | zero => rfl
    | succ skip => rw [translateFrom, ih, List.drop_succ_cons]

/-- No text in brackets begins where they are not opened, or are not closed. -/
theorem cut_eq_none {c : Char} {rest : List Char} (h : c = '[' → ']' ∉ rest) :
    (if c = '[' then cutFirst ']' rest else none) = none := by
  by_cases hc : c = '['
  · rw [if_pos hc, cutFirst_eq_none_iff.2 (h hc)]
  · rw [if_neg hc]

/-- **The pattern of a date format is what has been read**, written item by item. -/
theorem Reads.translateFrom_eq {cs : List Char} {items : List Item} (h : Reads cs items) :
    translateFrom 0 cs = items.flatMap Item.written := by
  induction h with
  | done => rfl
  | @bracketed inner rest items hinner _ ih =>
    have hcut : cutFirst ']' (inner ++ ']' :: rest) = some (inner, rest) :=
      cutFirst_eq_some_iff.2 ⟨rfl, hinner⟩
    have hdrop : (inner ++ ']' :: rest).drop (inner.length + 1) = rest := by
      rw [← List.drop_drop, List.drop_left]
      rfl
    have hliteral : (inner.map Item.literal).flatMap Item.written = literalTexts inner :=
      List.flatMap_map _ _ _
    rw [translateFrom, if_pos rfl, hcut]
    simp only
    rw [translateFrom_skip, hdrop, ih, List.flatMap_append, hliteral]
  | @word word field rest items hword _ ih =>
    obtain ⟨c, cs, htext, hc, hlength⟩ := exists_cons_of_mem_formatWords hword.mem
    have hleading := hword.leadingWord?_eq
    rw [htext, List.cons_append] at hleading ⊢
    rw [translateFrom, if_neg hc, hleading, hlength]
    simp only
    rw [translateFrom_skip, List.drop_left, ih, List.flatMap_cons]
    rfl
  | literal hopen hword _ ih =>
    rw [translateFrom, cut_eq_none hopen, leadingWord?_eq_none_iff.2 hword]
    simp only
    rw [ih, List.flatMap_cons]
    rfl

/-- Every text can be read. -/
theorem exists_reads (cs : List Char) : ∃ items, Reads cs items := by
  induction hlength : cs.length using Nat.strongRecOn generalizing cs with
  | ind n ih =>
    subst hlength
    cases cs with
    | nil => exact ⟨[], .done⟩
    | cons c cs =>
      by_cases hclosed : c = '[' ∧ ']' ∈ cs
      · obtain ⟨rfl, hclosed⟩ := hclosed
        cases hcut : cutFirst ']' cs with
        | none => exact absurd hclosed (cutFirst_eq_none_iff.1 hcut)
        | some parts =>
          obtain ⟨inner, rest⟩ := parts
          obtain ⟨rfl, hinner⟩ := cutFirst_eq_some_iff.1 hcut
          have hshorter : rest.length < ('[' :: (inner ++ ']' :: rest)).length := by
            rw [List.length_cons, List.length_append, List.length_cons]
            omega
          obtain ⟨items, hrest⟩ := ih rest.length hshorter rest rfl
          exact ⟨_, .bracketed hinner hrest⟩
      · have hopen : c = '[' → ']' ∉ cs := fun hc hmem => hclosed ⟨hc, hmem⟩
        cases hleading : leadingWord? formatWords (c :: cs) with
        | none =>
          obtain ⟨items, hrest⟩ := ih cs.length (Nat.lt_succ_self _) cs rfl
          exact ⟨_, .literal hopen (leadingWord?_eq_none_iff.1 hleading) hrest⟩
        | some found =>
          obtain ⟨field, more⟩ := found
          obtain ⟨word, hmem, hleads, -, hlongest⟩ :=
            exists_of_leadingWord? formatWords_sorted hleading
          obtain ⟨rest, hcs⟩ := hleads
          have hshorter : rest.length < (c :: cs).length := by
            obtain ⟨d, ds, htext, -, -⟩ := exists_cons_of_mem_formatWords hmem
            rw [← hcs, htext, List.length_append, List.length_cons]
            omega
          obtain ⟨items, hrest⟩ := ih rest.length hshorter rest rfl
          rw [← hcs] at hlongest ⊢
          exact ⟨_, .word ⟨hmem, List.prefix_append _ _, hlongest⟩ hrest⟩

/-- **A date format is written as it is read.**  It is read in one way; its pattern holds
the items that have been read and no others, and by them every moment is written that
the calendar reaches. -/
theorem written_as_read (format : String) :
    ∃ items, (∀ other, Reads format.toList other ↔ other = items) ∧
      (ofText format).pattern = String.ofList (items.flatMap Item.written) ∧
      items? (ofText format).pattern.toList = some items ∧
      ∀ ms, (ofText format).write? ms = (Moment.ofMillis? ms).map fun moment =>
        String.ofList (items.flatMap (·.text moment)) := by
  obtain ⟨items, hreads⟩ := exists_reads format.toList
  have hpattern : (ofText format).pattern = String.ofList (items.flatMap Item.written) :=
    congrArg String.ofList hreads.translateFrom_eq
  have hitems : items? (ofText format).pattern.toList = some items := by
    rw [hpattern, String.toList_ofList, items?_flatMap_written]
  refine ⟨items, fun other => ?_, hpattern, hitems, fun ms => ?_⟩
  · constructor
    · intro hother
      have hwritten : other.flatMap Item.written = items.flatMap Item.written :=
        hother.translateFrom_eq.symm.trans hreads.translateFrom_eq
      have hsame := congrArg items? hwritten
      rw [items?_flatMap_written, items?_flatMap_written] at hsame
      exact Option.some.inj hsame
    · rintro rfl
      exact hreads
  · rw [write?, hitems]
    cases Moment.ofMillis? ms <;> rfl

example : items? (ofText "[DD] MMMMM%Y [").pattern.toList =
    some [.literal 'D', .literal 'D', .literal ' ', .field .monthName, .field .monthUnpadded,
      .literal '%', .literal 'Y', .literal ' ', .literal '['] := by
  decide +kernel

end DateFormat

end NoteVault.Calendar
