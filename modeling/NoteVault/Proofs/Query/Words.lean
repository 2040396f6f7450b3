import NoteVault.Proofs.Query.Chain
import NoteVault.Proofs.Query.Quoted

/-!
# A longer query

What is cut off at the beginning of a text is decided by the text up to the next white
space, but for one thing: a quote may be closed a long way behind.  So white space
parts a query in two that are read apart as soon as no kind of quote stands on both
sides of it (`tokens_append_space`).  It follows that trimming makes no difference to
the tokens of a query (`tokens_trim`), and that a query without quotes can be added to:
the terms that are added go on with the files that the query has left (`parse_append`,
`files_parse_append`).
-/

namespace NoteVault.Query

open Text Unicode

/-! ## The first token in front of white space -/

theorem closing?_eq_none_of_not_mem {q : Char} {cs : List Char} (h : q ∉ cs) :
    closing? q cs = none := by
  cases hclosing : closing? q cs with
  | none => rfl
  | some cut =>
    have hmem : q ∈ cut.1 ++ q :: cut.2 := List.mem_append_right _ List.mem_cons_self
    rw [← closing?_append hclosing] at hmem
    exact absurd hmem h

/-- The end of a phrase is not moved by text without its quote. -/
theorem closing?_append_of_not_mem {q : Char} {more : List Char} (h : q ∉ more)
    (cs : List Char) :
    closing? q (cs ++ more) = (closing? q cs).map fun cut => (cut.1, cut.2 ++ more) := by
  fun_induction closing? q cs with
  | case1 => exact closing?_eq_none_of_not_mem h
  | case2 => exact closing?_quote q more
  | case3 c hc =>
    refine closing?_eq_none_of_not_mem fun hmem => ?_
    exact (List.mem_cons.1 hmem).elim (fun hq => hc hq.symm) h
  | case4 d cs => exact closing?_quote q (d :: cs ++ more)
  | case5 c d cs hc hd phrase rest hclosing ih =>
    rw [hclosing] at ih
    rw [List.cons_append, List.cons_append, closing?, if_neg hc, if_pos hd, ih]
    rfl
  | case6 c d cs hc hd hclosing ih =>
    rw [hclosing] at ih
    rw [List.cons_append, List.cons_append, closing?, if_neg hc, if_pos hd, ih]
    rfl
  | case7 c d cs hc hd ih =>
    rw [List.cons_append, List.cons_append, closing?, if_neg hc, if_neg hd, ← List.cons_append,
      ih, Option.map_map, Option.map_map]
    rfl

/-- A run ends in front of a character that stops it, at the latest. -/
theorem run_append_stop {p : Char → Bool} {s : Char} (hs : p s = false)
    (cs more : List Char) : (cs ++ s :: more).takeWhile p = cs.takeWhile p ∧
      (cs ++ s :: more).dropWhile p = cs.dropWhile p ++ s :: more := by
  induction cs with
  | nil => simp [hs]
  | cons c cs ih =>
    cases hc : p c with
    | true => simpa [hc] using ih
    | false => simp [hc]

/-- No kind of quote stands both in one text and in another. -/
def QuotesApart (cs more : List Char) : Prop :=
  ∀ q ∈ cs, isQuote q = true → q ∉ more

section Space

variable {s : Char} {cs more : List Char}

theorem QuotesApart.symm (h : QuotesApart cs more) : QuotesApart more cs :=
  fun q hq hquote hmem => h q hmem hquote hq

theorem quotesApart_of_no_quotes (h : ∀ c ∈ cs, isQuote c = false) : QuotesApart cs more := by
  intro q hq hquote
  rw [h q hq] at hquote
  cases hquote

theorem isQuote_of_isSpace (hs : isSpace s = true) : isQuote s = false := by
  rw [← Bool.not_eq_true]
  intro hquote
  rw [isSpace_of_isQuote hquote] at hs
  cases hs

theorem phrase?_append_space (hs : isSpace s = true) (h : QuotesApart cs more) :
    phrase? (cs ++ s :: more) = (phrase? cs).map fun cut => (cut.1, cut.2 ++ s :: more) := by
  cases cs with
  | nil => rw [List.nil_append, phrase?, isQuote_of_isSpace hs]; rfl
  | cons q cs =>
    rw [List.cons_append, phrase?, phrase?]
    split
    · rename_i hq
      have hnot : q ∉ s :: more := by
        intro hmem
        rcases List.mem_cons.1 hmem with rfl | hmem
        · rw [isQuote_of_isSpace hs] at hq
          cases hq
        · exact h q List.mem_cons_self hq hmem
      rw [closing?_append_of_not_mem hnot, Option.map_map, Option.map_map]
      rfl
    · rfl

theorem quoted?_append_space (hs : isSpace s = true) (h : QuotesApart cs more) :
    quoted? (cs ++ s :: more) = (quoted? cs).map fun cut => (cut.1, cut.2 ++ s :: more) := by
  by_cases hbang : cs.head? = some '!'
  · obtain ⟨cs, rfl⟩ : ∃ rest, cs = '!' :: rest := by
      cases cs with
      | nil => cases hbang
      | cons c cs => exact ⟨cs, by rw [Option.some.inj hbang]⟩
    have hrest : QuotesApart cs more := fun q hq => h q (List.mem_cons_of_mem _ hq)
    rw [List.cons_append, quoted?, quoted?, phrase?_append_space hs hrest, Option.map_map,
      Option.map_map]
    rfl
  · have hhead : (cs ++ s :: more).head? ≠ some '!' := by
      cases cs with
      | nil =>
        intro heq
        rw [Option.some.inj heq] at hs
        exact absurd hs (by decide)
      | cons c cs => exact hbang
    rw [quoted?_of_head_ne hhead, quoted?_of_head_ne hbang, phrase?_append_space hs h]

/-- **The first token is the same in front of white space**, if no kind of quote stands
on both sides of it. -/
theorem cutToken_append_space (hs : isSpace s = true) (h : QuotesApart cs more) :
    cutToken (cs ++ s :: more) = ((cutToken cs).1, (cutToken cs).2 ++ s :: more) := by
  have hstop : (!isSpace s) = false := by rw [hs]; rfl
  obtain ⟨htake, hdrop⟩ := run_append_stop (p := fun c => !isSpace c) hstop cs more
  rw [cutToken, cutToken, quoted?_append_space hs h, htake, hdrop]
  cases quoted? cs <;> rfl

/-! ## All tokens -/

/-- **White space parts a text in two that are read apart**, if no kind of quote stands
on both sides of it. -/
theorem tokens_append_space (hs : isSpace s = true) (h : QuotesApart cs more) :
    tokens (cs ++ s :: more) = tokens cs ++ tokens more := by
  fun_induction tokens cs with
  | case1 => exact tokens_of_space more hs
  | case2 c cs hc ih =>
    rw [List.cons_append, tokens_of_space _ hc, ih fun q hq => h q (List.mem_cons_of_mem _ hq)]
  | case3 c cs hc _ ih =>
    have hspace : isSpace c = false := Bool.not_eq_true _ ▸ hc
    -- What is left of the text has no other quotes than the text had.
    have hrest : QuotesApart (cutToken (c :: cs)).2 more := fun q hq =>
      h q (cutToken_append (c :: cs) ▸ List.mem_append_right _ hq)
    have hcut := cutToken_append_space hs h
    rw [List.cons_append] at hcut ⊢
    rw [tokens_of_not_space _ hspace, hcut, ih hrest, List.cons_append]

end Space

theorem tokens_append_blanks (cs : List Char) {blanks : List Char}
    (h : ∀ c ∈ blanks, isSpace c = true) : tokens (cs ++ blanks) = tokens cs := by
  cases blanks with
  | nil => rw [List.append_nil]
  | cons s blanks =>
    obtain ⟨hs, hblanks⟩ := List.forall_mem_cons.1 h
    have hquotes : ∀ c ∈ blanks, isQuote c = false :=
      fun c hc => isQuote_of_isSpace (hblanks c hc)
    rw [tokens_append_space hs (quotesApart_of_no_quotes hquotes).symm, tokens_eq_nil_iff.2 hblanks, List.append_nil]

theorem tokens_trim (cs : List Char) : tokens (trim cs) = tokens cs := by
  obtain ⟨lead, tail, hcs, hlead, htail⟩ := exists_trim cs
  conv => rhs; rw [hcs]
  rw [tokens_append_blanks _ htail, Phrase.tokens_blanks_append hlead]

/-! ## Terms and files -/

theorem parse_of_not_blank {raw : String} (h : ¬ ∀ c ∈ raw.toList, isSpace c = true) :
    parse raw = (tokens raw.toList).map termOfToken := by
  rw [parse, tokens_trim]
  cases htokens : tokens raw.toList with
  | nil => exact absurd (tokens_eq_nil_iff.1 htokens) h
  | cons token rest => rfl

/-- A query leaves the files that the terms of its tokens let pass, also where it has no
tokens. -/
theorem files_parse (ctx : Context) (raw : String) (files : List FileRecord) :
    (evaluate ctx (parse raw) files).files = files.filter fun file =>
      (tokens raw.toList).all fun token => (termOfToken token).admits ctx file := by
  rw [files_evaluate, parse, tokens_trim]
  refine List.filter_congr fun file _ => ?_
  cases tokens raw.toList with
  | nil => rfl
  | cons token rest =>
    show (((token :: rest).map termOfToken).all fun term => term.admits ctx file) = _
    rw [List.all_map]
    rfl

section Append

variable {first more : String}

theorem tokens_append (h : QuotesApart first.toList more.toList) :
    tokens (first ++ " " ++ more).toList = tokens first.toList ++ tokens more.toList := by
  have hlist : (first ++ " " ++ more).toList = first.toList ++ ' ' :: more.toList := by
    simp [String.toList_append]
  rw [hlist, tokens_append_space (by decide) h]

theorem parse_append (h : QuotesApart first.toList more.toList)
    (hfirst : ¬ ∀ c ∈ first.toList, isSpace c = true)
    (hmore : ¬ ∀ c ∈ more.toList, isSpace c = true) :
    parse (first ++ " " ++ more) = parse first ++ parse more := by
  have hblank : ¬ ∀ c ∈ (first ++ " " ++ more).toList, isSpace c = true := by
    intro hall
    refine hmore fun c hc => hall c ?_
    rw [String.toList_append]
    exact List.mem_append_right _ hc
  rw [parse_of_not_blank hblank, parse_of_not_blank hfirst, parse_of_not_blank hmore,
    tokens_append h, List.map_append]

/-- What is added goes on with the files that are left. -/
theorem files_parse_append (h : QuotesApart first.toList more.toList) (ctx : Context)
    (files : List FileRecord) :
    (evaluate ctx (parse (first ++ " " ++ more)) files).files =
      (evaluate ctx (parse more) (evaluate ctx (parse first) files).files).files := by
  rw [files_parse, files_parse, files_parse, tokens_append h, List.filter_filter]
  refine List.filter_congr fun file _ => ?_
  rw [List.all_append, Bool.and_comm]

end Append

/-- **Adding words to a query is searching further.**  The terms of a query without
quotes and of anything behind it are those of the two, one after the other.  So the
longer query leaves the files that the second leaves of those that the first has left:
whatever is added, no file comes back. -/
theorem parse_append_of_no_quotes {first : String}
    (hquotes : ∀ c ∈ first.toList, isQuote c = false) (more : String) :
    ((¬ ∀ c ∈ first.toList, isSpace c = true) → (¬ ∀ c ∈ more.toList, isSpace c = true) →
      parse (first ++ " " ++ more) = parse first ++ parse more) ∧
    ∀ (ctx : Context) (files : List FileRecord),
      (evaluate ctx (parse (first ++ " " ++ more)) files).files =
        (evaluate ctx (parse more) (evaluate ctx (parse first) files).files).files ∧
      List.Sublist (evaluate ctx (parse (first ++ " " ++ more)) files).files
        (evaluate ctx (parse first) files).files := by
  have hapart : QuotesApart first.toList more.toList := quotesApart_of_no_quotes hquotes
  refine ⟨parse_append hapart, fun ctx files => ?_⟩
  have hfiles := files_parse_append hapart ctx files
  refine ⟨hfiles, ?_⟩
  rw [hfiles, files_parse ctx more]
  exact List.filter_sublist

/-- An exclamation mark at the end stands by itself, although a phrase comes next. -/
theorem parse_append_of_no_quotes_bang :
    let ctx : Context := ⟨Calendar.DayRange.epoch, .ofText "YYYY", []⟩
    let files : List FileRecord := [.ofParts "a!.md" .unknown none, .ofParts "b.png" .unknown none]
    (∀ c ∈ "@n !".toList, isQuote c = false) ∧
      parse "@n ! 'a b'" = parse "@n !" ++ parse "'a b'" ∧
      List.Sublist (evaluate ctx (parse "@n ! 'a b'") files).files
        (evaluate ctx (parse "@n !") files).files := by
  intro ctx files
  have hquotes : ∀ c ∈ "@n !".toList, isQuote c = false := by simp [isQuote]
  have hfirst : ¬ ∀ c ∈ "@n !".toList, isSpace c = true :=
    fun h => absurd (h '@' (by simp)) (by decide)
  have hmore : ¬ ∀ c ∈ "'a b'".toList, isSpace c = true :=
    fun h => absurd (h 'a' (by simp)) (by decide)
  have htext : "@n ! 'a b'" = "@n !" ++ " " ++ "'a b'" := by decide
  obtain ⟨hparse, hfiles⟩ := parse_append_of_no_quotes hquotes "'a b'"
  rw [htext]
  exact ⟨hquotes, hparse hfirst hmore, (hfiles ctx files).2⟩

end NoteVault.Query
