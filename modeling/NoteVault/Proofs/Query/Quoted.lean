import NoteVault.Proofs.Query.Cover

/-!
# Phrases read back as they were written

A phrase is written between two quotes of one kind that does not occur in it
(`Phrase`).  Whatever else stands in it, the reader of tokens goes on to its own
closing quote and stops there (`closing?_phrase`): the only character that could
carry it further is a backslash right before that quote.  So a query of phrases
is cut exactly between them (`tokens_joined`), and each of them asks for its text
alone (`parse_joined`).
-/

namespace NoteVault.Query

open Text Unicode

/-! ## The closing quote -/

theorem closing?_quote (q : Char) (rest : List Char) :
    closing? q (q :: rest) = some ([], rest) := by
  cases rest <;> simp [closing?]

/-- A character that neither is the quote nor shields one is part of the phrase. -/
theorem closing?_cons {q c : Char} {cs : List Char} (hc : c ≠ q)
    (hshield : ¬ (c = '\\' ∧ cs.head? = some q)) :
    closing? q (c :: cs) = (closing? q cs).map fun (phrase, rest) => (c :: phrase, rest) := by
  cases cs with
  | nil => simp [closing?, hc]
  | cons d cs =>
    have hd : ¬ (c = '\\' ∧ d = q) := by simpa using hshield
    simp [closing?, hc, hd]

/-- **A phrase ends at its own closing quote**, if that quote is not in it and no
backslash is at its end. -/
theorem closing?_phrase {q : Char} {body : List Char} (rest : List Char) (hmem : q ∉ body)
    (hlast : body.getLast? ≠ some '\\') :
    closing? q (body ++ q :: rest) = some (body, rest) := by
  induction body with
  | nil => exact closing?_quote q rest
  | cons c body ih =>
    obtain ⟨hc, hbody⟩ := not_or.1 (mt List.mem_cons.2 hmem)
    -- Only at the end of the phrase does the quote come next.
    have hshield : ¬ (c = '\\' ∧ (body ++ q :: rest).head? = some q) := by
      rintro ⟨rfl, hhead⟩
      cases body with
      | nil => exact hlast rfl
      | cons d body => exact hbody (by simp_all)
    have hlast' : body.getLast? ≠ some '\\' := by
      cases body with
      | nil => simp
      | cons d body => simpa using hlast
    rw [List.cons_append, closing?_cons (Ne.symm hc) hshield, ih hbody hlast']
    rfl

/-! ## Phrases -/

/-- A phrase as it can be written: it does not hold the quotes that stand around it,
and does not end with a backslash. -/
structure Phrase where
  /-- Files that have the phrase are ruled out. -/
  negated : Bool
  quote : Char
  body : String
  isQuote_quote : isQuote quote = true
  quote_not_mem : quote ∉ body.toList
  no_last_backslash : body.toList.getLast? ≠ some '\\'

/-- White space in front of a phrase; there may be none. -/
abbrev Gap := { blanks : List Char // ∀ c ∈ blanks, isSpace c = true }

namespace Phrase

variable (p : Phrase)

/-- A phrase between its quotes. -/
def enclosed : List Char := p.quote :: p.body.toList ++ [p.quote]

/-- A phrase in a query. -/
def written : List Char := if p.negated then '!' :: p.enclosed else p.enclosed

/-- What a phrase asks for. -/
def term : Term := if p.negated then .exclude (.text p.body) else .text p.body

/-- Phrases in a query, with white space between them. -/
def joined (first : Phrase) : List (Gap × Phrase) → List Char
  | [] => first.written
  | (gap, next) :: more => first.written ++ (gap.1 ++ next.joined more)

theorem quote_eq : p.quote = '\x22' ∨ p.quote = '\x27' := by
  simpa [isQuote] using p.isQuote_quote

theorem head?_enclosed_append (rest : List Char) : (p.enclosed ++ rest).head? ≠ some '!' := by
  rcases p.quote_eq with h | h <;> simp [enclosed, h]

/-! ## One phrase -/

theorem phrase?_enclosed (rest : List Char) :
    phrase? (p.enclosed ++ rest) = some (p.enclosed, rest) := by
  have hclosing := closing?_phrase rest p.quote_not_mem p.no_last_backslash
  simp [enclosed, phrase?, p.isQuote_quote, hclosing]

/-- A phrase is one token, whatever stands behind it. -/
theorem cutToken_written (rest : List Char) :
    cutToken (p.written ++ rest) = (p.written, rest) := by
  have henclosed : cutToken (p.enclosed ++ rest) = (p.enclosed, rest) := by
    rw [cutToken, quoted?_of_head_ne (p.head?_enclosed_append rest), p.phrase?_enclosed]
    rfl
  unfold written
  split
  · rw [List.cons_append, cutToken_bang (p.head?_enclosed_append rest), henclosed]
  · exact henclosed

/-- A phrase begins and ends with a character that is not white space. -/
theorem written_eq_cons : ∃ c cs, p.written = c :: cs ∧ isSpace c = false := by
  have hquote : isSpace p.quote = false := isSpace_of_isQuote p.isQuote_quote
  unfold written enclosed
  split
  · exact ⟨_, _, rfl, by decide⟩
  · exact ⟨_, _, rfl, hquote⟩

theorem getLast?_written : p.written.getLast? = some p.quote := by
  unfold written enclosed
  split
  · rw [← List.cons_append, List.getLast?_concat]
  · exact List.getLast?_concat

theorem tokens_written_append (rest : List Char) :
    tokens (p.written ++ rest) = p.written :: tokens rest := by
  obtain ⟨c, cs, hp, hc⟩ := p.written_eq_cons
  have hcut := p.cutToken_written rest
  rw [hp, List.cons_append] at hcut ⊢
  rw [tokens_of_not_space _ hc, hcut]

theorem betweenQuotes?_enclosed : betweenQuotes? p.enclosed = some p.body.toList := by
  rcases p.quote_eq with h | h <;>
    simp [enclosed, h, betweenQuotes?, stripPrefix?, stripSuffix?]

theorem termOfToken_written : termOfToken p.written = p.term := by
  have hplain : plainTerm p.enclosed = .text p.body := by
    unfold plainTerm
    rw [p.betweenQuotes?_enclosed]
    exact congrArg Term.text String.ofList_toList
  have henclosed : termOfToken p.enclosed = .text p.body := by
    rw [← hplain]
    have hhead := p.head?_enclosed_append []
    rw [List.append_nil] at hhead
    unfold termOfToken
    split
    · rename_i heq
      rw [heq] at hhead
      exact absurd rfl hhead
    · rfl
  unfold written term
  split
  · rw [← henclosed]
    rfl
  · exact henclosed

/-! ## All phrases -/

theorem tokens_blanks_append {blanks : List Char} (h : ∀ c ∈ blanks, isSpace c = true)
    (rest : List Char) : tokens (blanks ++ rest) = tokens rest := by
  induction blanks with
  | nil => rfl
  | cons c blanks ih =>
    obtain ⟨hc, hblanks⟩ := List.forall_mem_cons.1 h
    rw [List.cons_append, tokens_of_space _ hc, ih hblanks]

/-- **Phrases are cut apart** where one ends and the next begins. -/
theorem tokens_joined (first : Phrase) (more : List (Gap × Phrase)) :
    tokens (first.joined more) = first.written :: more.map fun entry => entry.2.written := by
  induction more generalizing first with
  | nil =>
    have hone := first.tokens_written_append []
    rwa [List.append_nil, tokens_nil] at hone
  | cons entry more ih =>
    obtain ⟨gap, next⟩ := entry
    rw [joined, tokens_written_append, tokens_blanks_append gap.2, ih]
    rfl

theorem getLast?_joined (first : Phrase) (more : List (Gap × Phrase)) :
    ∃ p : Phrase, (first.joined more).getLast? = some p.quote := by
  induction more generalizing first with
  | nil => exact ⟨first, first.getLast?_written⟩
  | cons entry more ih =>
    obtain ⟨gap, next⟩ := entry
    obtain ⟨p, hp⟩ := ih next
    exact ⟨p, by simp [joined, hp]⟩

theorem trimmed_joined (first : Phrase) (more : List (Gap × Phrase)) :
    Trimmed (first.joined more) := by
  constructor
  · obtain ⟨c, cs, hfirst, hc⟩ := first.written_eq_cons
    have hhead : (first.joined more).head? = some c := by
      cases more <;> simp [joined, hfirst]
    intro d hd
    rw [hhead] at hd
    exact Option.some.inj hd ▸ hc
  · obtain ⟨p, hp⟩ := getLast?_joined first more
    intro d hd
    rw [hp] at hd
    exact Option.some.inj hd ▸ isSpace_of_isQuote p.isQuote_quote

/-- **Phrases read back as they were written.**  A query of phrases, each between its
quotes and all with white space between them, asks for these phrases one after the
other, and rules out those that have an exclamation mark in front.  Nothing that
stands inside a phrase matters: neither white space nor the marks that mean
something elsewhere, neither the other quote nor backslashes. -/
theorem parse_joined (first : Phrase) (more : List (Gap × Phrase)) :
    parse (String.ofList (first.joined more)) =
      (first :: more.map Prod.snd).map term := by
  rw [parse, String.toList_ofList, trim_eq_self (trimmed_joined first more), tokens_joined]
  have hterms : ((first.written :: more.map fun entry => entry.2.written).map termOfToken) =
      (first :: more.map Prod.snd).map term := by
    simp [termOfToken_written]
  rw [hterms]
  rfl

/-- A backslash before the other quote, an exclamation mark and an at sign stay in their
phrase. -/
theorem parse_joined_marks :
    parse "'\\\" !x' \t!\"@n \\ .\"" = [.text "\\\" !x", .exclude (.text "@n \\ .")] := by
  let first : Phrase := ⟨false, '\x27', "\\\" !x", by decide, by decide, by decide⟩
  let next : Phrase := ⟨true, '\x22', "@n \\ .", by decide, by decide, by decide⟩
  let gap : Gap := ⟨[' ', '\t'], List.all_eq_true.1 (by decide)⟩
  have htext : String.ofList (first.joined [(gap, next)]) = "'\\\" !x' \t!\"@n \\ .\"" := by
    decide
  rw [← htext]
  exact parse_joined first [(gap, next)]

end Phrase

end NoteVault.Query
