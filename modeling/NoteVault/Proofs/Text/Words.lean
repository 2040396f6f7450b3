import NoteVault.Text.Cut

/-!
# Words

A text is read from its beginning, and the word that has begun is kept apart.  All that
is needed of this follows from two equations: white space ends a word
(`words_append_space`), and a text without white space is one word unless it is empty
(`words_eq_singleton`).  So what follows a place where a word may begin is read on its own
(`words_append_of_wordStart`), and words with blanks between them are read back
(`words_joinWith`).
-/

namespace NoteVault.Text

open Unicode

/-- A word: it is not empty, and no white space is in it. -/
structure IsWord (word : List Char) : Prop where
  ne_nil : word ≠ []
  no_space : ∀ c ∈ word, isSpace c = false

/-- White space is looked for by a test that can be run. -/
theorem no_space_of_any {cs : List Char} (h : cs.any isSpace = false) :
    ∀ c ∈ cs, isSpace c = false :=
  fun c hc => Bool.eq_false_iff.2 (List.any_eq_false.1 h c hc)

theorem isWord_of_mem_wordsFrom {begun cs : List Char} (hbegun : ∀ c ∈ begun, isSpace c = false) :
    ∀ word ∈ wordsFrom begun cs, IsWord word := by
  induction cs generalizing begun with
  | nil =>
    intro word hword
    cases begun with
    | nil => cases hword
    | cons d begun =>
      obtain rfl := List.mem_singleton.1 hword
      exact ⟨List.cons_ne_nil _ _, hbegun⟩
  | cons c cs ih =>
    intro word hword
    rw [wordsFrom] at hword
    cases hc : isSpace c with
    | true =>
      rw [if_pos hc] at hword
      cases begun with
      | nil => exact ih (List.forall_mem_nil _) word hword
      | cons d begun =>
        rcases List.mem_cons.1 hword with rfl | hword
        · exact ⟨List.cons_ne_nil _ _, hbegun⟩
        · exact ih (List.forall_mem_nil _) word hword
    | false =>
      rw [hc, if_neg (by decide)] at hword
      refine ih (fun d hd => ?_) word hword
      rcases List.mem_append.1 hd with hd | hd
      · exact hbegun d hd
      · rw [List.mem_singleton.1 hd, hc]

/-- **The words of a text are words.** -/
theorem isWord_of_mem_words {cs word : List Char} (h : word ∈ words cs) : IsWord word :=
  isWord_of_mem_wordsFrom (List.forall_mem_nil _) word h

theorem wordsFrom_of_no_space {cs : List Char} (h : ∀ c ∈ cs, isSpace c = false)
    (word : List Char) : wordsFrom word cs = if (word ++ cs).isEmpty then [] else [word ++ cs] := by
  induction cs generalizing word with
  | nil => rw [wordsFrom, List.append_nil]
  | cons c cs ih =>
    obtain ⟨hc, hcs⟩ := List.forall_mem_cons.1 h
    rw [wordsFrom, hc, if_neg (by decide), ih hcs, List.append_assoc]
    rfl

/-- A text without white space is a word. -/
theorem words_eq_singleton {cs : List Char} (hne : cs ≠ []) (h : ∀ c ∈ cs, isSpace c = false) :
    words cs = [cs] := by
  rw [words, wordsFrom_of_no_space h, List.nil_append, if_neg (by simpa using hne)]

theorem wordsFrom_append_space {c : Char} (hc : isSpace c = true) (begun a b : List Char) :
    wordsFrom begun (a ++ c :: b) = wordsFrom begun a ++ words b := by
  induction a generalizing begun with
  | nil =>
    rw [List.nil_append, wordsFrom, wordsFrom, if_pos hc, words]
    cases begun <;> rfl
  | cons d a ih =>
    rw [List.cons_append, wordsFrom, wordsFrom, ih, ih]
    cases isSpace d <;> cases begun <;> rfl

/-- **White space ends a word.** -/
theorem words_append_space {c : Char} (hc : isSpace c = true) (a b : List Char) :
    words (a ++ c :: b) = words a ++ words b :=
  wordsFrom_append_space hc [] a b

/-- A word may begin behind a text: it is empty or ends in white space. -/
def WordStart (head : List Char) : Prop := ∀ c ∈ head.getLast?, isSpace c = true

instance (head : List Char) : Decidable (WordStart head) :=
  decidable_of_iff (head.getLast?.all isSpace = true) (Option.all_eq_true _ _)

/-- What follows such a text is read on its own. -/
theorem words_append_of_wordStart {head : List Char} (h : WordStart head) (cs : List Char) :
    words (head ++ cs) = words head ++ words cs := by
  rcases List.eq_nil_or_concat head with rfl | ⟨before, c, rfl⟩
  · rfl
  · have hc : isSpace c = true := h c (by rw [List.concat_eq_append, List.getLast?_concat]; rfl)
    rw [List.concat_eq_append, List.append_assoc, List.singleton_append, words_append_space hc,
      words_append_space hc, show words [] = [] from rfl, List.append_nil]

/-- A word between such a text and white space is read as it stands. -/
theorem words_append_word {head word : List Char} (hhead : WordStart head) (hword : IsWord word)
    {c : Char} (hc : isSpace c = true) (cs : List Char) :
    words (head ++ word ++ c :: cs) = words head ++ word :: words cs := by
  rw [words_append_space hc, words_append_of_wordStart hhead,
    words_eq_singleton hword.ne_nil hword.no_space, List.append_assoc, List.singleton_append]

/-- **Words with blanks between them are read back.** -/
theorem words_joinWith {parts : List (List Char)} (h : ∀ word ∈ parts, IsWord word) :
    words (joinWith " " (parts.map String.ofList)).toList = parts := by
  induction parts with
  | nil => rfl
  | cons word parts ih =>
    obtain ⟨hword, hparts⟩ := List.forall_mem_cons.1 h
    have hone : words word = [word] := words_eq_singleton hword.ne_nil hword.no_space
    cases parts with
    | nil =>
      rw [joinWith, List.map_singleton, String.intercalate_singleton, String.toList_ofList, hone]
    | cons next parts =>
      have hrest := ih hparts
      rw [joinWith, List.map_cons] at hrest
      rw [joinWith, List.map_cons, List.map_cons, String.intercalate_cons_cons,
        String.toList_append, String.toList_append, String.toList_ofList, List.append_assoc]
      rw [show " ".toList = [' '] from rfl, List.singleton_append,
        words_append_space (by decide), hone, hrest, List.singleton_append]

end NoteVault.Text
