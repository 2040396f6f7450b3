import NoteVault.Proofs.Query.Token

/-!
# No token is lost

A token is a phrase that its own quote closes, or a run of characters that goes on up
to white space (`IsToken`).  The second happens in front of a quote only where no
quote of that kind comes later, for a phrase ends as soon as there is a quote to end
it (`not_mem_of_closing?`).  So the tokens of a query are pieces of it in order, with
nothing but white space around them (`tokenizes`), and each of its other characters
is in exactly one of them (`Tokenizes.countP_eq_one`).  A query therefore asks for
nothing in particular exactly where it is all white space (`parse_pieces`).
-/

namespace NoteVault.Query

open Text Unicode

/-! ## Phrases and runs -/

/-- What can stand between the quotes of a phrase: quotes of that kind behind a
backslash, and other characters. -/
inductive PhraseBody (q : Char) : List Char → Prop
  | nil : PhraseBody q []
  | escaped {cs : List Char} (h : PhraseBody q cs) : PhraseBody q ('\\' :: q :: cs)
  | other {c : Char} {cs : List Char} (hc : c ≠ q) (h : PhraseBody q cs) : PhraseBody q (c :: cs)

/-- A phrase between two quotes of one kind, with an exclamation mark before it or
not. -/
inductive ClosedPhrase : List Char → Prop
  | plain {q : Char} {body : List Char} (hq : isQuote q = true) (h : PhraseBody q body) :
      ClosedPhrase (q :: body ++ [q])
  | bang {q : Char} {body : List Char} (hq : isQuote q = true) (h : PhraseBody q body) :
      ClosedPhrase ('!' :: q :: body ++ [q])

/-- The token begins with the quote `q`, or with an exclamation mark and that quote;
`rest` comes behind it. -/
def BeginsWithQuote (q : Char) (rest token : List Char) : Prop :=
  isQuote q = true ∧ (token = q :: rest ∨ token = '!' :: q :: rest)

/-- A longest run of characters that are not white space, with the text behind it.
Where it begins with a quote, no quote of that kind comes later. -/
structure LongestRun (token behind : List Char) : Prop where
  no_space : ∀ c ∈ token, isSpace c = false
  longest : ∀ c ∈ behind.head?, isSpace c = true
  unclosed : ∀ q rest, BeginsWithQuote q rest token → q ∉ rest ++ behind

/-- What a token is, with the text behind it. -/
def IsToken (token behind : List Char) : Prop :=
  ClosedPhrase token ∨ LongestRun token behind

theorem isSpace_of_isQuote {q : Char} (h : isQuote q = true) : isSpace q = false := by
  rcases Bool.or_eq_true_iff.1 h with hq | hq
  · rw [eq_of_beq hq]; decide
  · rw [eq_of_beq hq]; decide

/-- White space behind a text makes no difference to its tokens. -/
theorem IsToken.append_space {token behind tail : List Char} (h : IsToken token behind)
    (htail : ∀ c ∈ tail, isSpace c = true) : IsToken token (behind ++ tail) := by
  rcases h with hphrase | hrun
  · exact .inl hphrase
  · refine .inr ⟨hrun.no_space, fun c hc => ?_, fun q rest hbegin hmem => ?_⟩
    · cases behind with
      | nil => exact htail c (List.mem_of_head? hc)
      | cons d behind => exact hrun.longest c hc
    · rw [← List.append_assoc, List.mem_append] at hmem
      rcases hmem with hmem | hmem
      · exact hrun.unclosed q rest hbegin hmem
      · have hspace := htail q hmem
        rw [isSpace_of_isQuote hbegin.1] at hspace
        cases hspace

/-! ## The token at the beginning -/

/-- A phrase that nothing ends has no quote of its kind behind it. -/
theorem not_mem_of_closing? {q : Char} {cs : List Char} (h : closing? q cs = none) : q ∉ cs := by
  fun_induction closing? q cs with
  | case1 => exact List.not_mem_nil
  | case2 => cases h
  | case3 c hc => simpa using Ne.symm hc
  | case4 => cases h
  | case5 => cases h
  | case6 => cases h
  | case7 c d cs hc hd ih =>
    have htail := ih (Option.map_eq_none_iff.1 h)
    exact fun hmem => (List.mem_cons.1 hmem).elim (fun hq => hc hq.symm) htail

theorem body_of_closing? {q : Char} {cs body rest : List Char}
    (h : closing? q cs = some (body, rest)) : PhraseBody q body := by
  fun_induction closing? q cs generalizing body rest with
  | case1 => cases h
  | case2 => cases h; exact .nil
  | case3 => cases h
  | case4 => cases h; exact .nil
  | case5 c d cs hc hd p r hr ih =>
    obtain ⟨rfl, rfl⟩ := hd
    cases h
    exact .escaped (ih hr)
  | case6 c d cs hc hd hr ih =>
    cases h
    exact .other hc .nil
  | case7 c d cs hc hd ih =>
    obtain ⟨⟨p, r⟩, hp, he⟩ := Option.map_eq_some_iff.1 h
    cases he
    exact .other hc (ih hp)

theorem phrase?_eq_some {cs token rest : List Char} (h : phrase? cs = some (token, rest)) :
    ∃ q body, isQuote q = true ∧ PhraseBody q body ∧ token = q :: body ++ [q] := by
  cases cs with
  | nil => cases h
  | cons q cs =>
    rw [phrase?] at h
    split at h
    · rename_i hq
      obtain ⟨⟨body, r⟩, hclosing, he⟩ := Option.map_eq_some_iff.1 h
      cases he
      exact ⟨q, body, hq, body_of_closing? hclosing, rfl⟩
    · cases h

theorem not_mem_of_phrase? {q : Char} {cs : List Char} (hq : isQuote q = true)
    (h : phrase? (q :: cs) = none) : q ∉ cs := by
  rw [phrase?, if_pos hq] at h
  exact not_mem_of_closing? (Option.map_eq_none_iff.1 h)

theorem closedPhrase_of_quoted? {cs token rest : List Char}
    (h : quoted? cs = some (token, rest)) : ClosedPhrase token := by
  unfold quoted? at h
  split at h
  · obtain ⟨⟨p, r⟩, hp, he⟩ := Option.map_eq_some_iff.1 h
    cases he
    obtain ⟨q, body, hq, hbody, rfl⟩ := phrase?_eq_some hp
    exact .bang hq hbody
  · obtain ⟨q, body, hq, hbody, rfl⟩ := phrase?_eq_some h
    exact .plain hq hbody

/-- Where no phrase is cut, no quote of the kind at the beginning comes later. -/
theorem not_mem_of_quoted? {q : Char} {cs rest : List Char} (h : quoted? cs = none)
    (hbegin : BeginsWithQuote q rest cs) : q ∉ rest := by
  obtain ⟨hq, rfl | rfl⟩ := hbegin
  · have hne : (q :: rest).head? ≠ some '!' := by
      intro hbang
      rw [Option.some.inj hbang] at hq
      exact absurd hq (by decide)
    rw [quoted?_of_head_ne hne] at h
    exact not_mem_of_phrase? hq h
  · exact not_mem_of_phrase? hq (Option.map_eq_none_iff.1 h)

theorem BeginsWithQuote.append {q : Char} {rest token : List Char}
    (h : BeginsWithQuote q rest token) (behind : List Char) :
    BeginsWithQuote q (rest ++ behind) (token ++ behind) := by
  obtain ⟨hq, rfl | rfl⟩ := h
  · exact ⟨hq, .inl rfl⟩
  · exact ⟨hq, .inr rfl⟩

/-- **What is cut at the beginning of a text is a token.** -/
theorem isToken_cutToken (cs : List Char) : IsToken (cutToken cs).1 (cutToken cs).2 := by
  have hcut := cutToken_append cs
  cases hquoted : quoted? cs with
  | some cut =>
    rw [cutToken, hquoted]
    exact .inl (closedPhrase_of_quoted? hquoted)
  | none =>
    have hrun : cutToken cs =
        (cs.takeWhile (fun c => !isSpace c), cs.dropWhile fun c => !isSpace c) := by
      rw [cutToken, hquoted, Option.getD_none]
    refine .inr ⟨fun c hc => ?_, fun c hc => ?_, fun q rest hbegin => ?_⟩
    · rw [hrun] at hc
      simpa using List.all_eq_true.1 List.all_takeWhile c hc
    · have hnext := List.head?_dropWhile_not (fun c => !isSpace c) cs
      rw [hrun] at hc
      rw [Option.mem_def.1 hc] at hnext
      simpa using hnext
    · have hwhole := hbegin.append (cutToken cs).2
      rw [hcut] at hwhole
      exact not_mem_of_quoted? hquoted hwhole

/-! ## Pieces of a text -/

/-- A piece of a text: the places from `start` on and before `stop`. -/
structure Span where
  start : Nat
  stop : Nat
  deriving DecidableEq, Repr

namespace Span

/-- The place `i` lies in the piece. -/
def Covers (s : Span) (i : Nat) : Prop := s.start ≤ i ∧ i < s.stop

instance (s : Span) (i : Nat) : Decidable (s.Covers i) :=
  inferInstanceAs (Decidable (s.start ≤ i ∧ i < s.stop))

/-- The characters of the piece. -/
def piece (s : Span) (text : List Char) : List Char := (text.take s.stop).drop s.start

/-- The characters behind the piece. -/
def behind (s : Span) (text : List Char) : List Char := text.drop s.stop

theorem piece_append (before token after : List Char) :
    piece ⟨before.length, before.length + token.length⟩ (before ++ (token ++ after)) = token := by
  rw [piece, List.take_length_add_append, List.take_left, List.drop_left]

theorem behind_append (before token after : List Char) :
    behind ⟨before.length, before.length + token.length⟩ (before ++ (token ++ after)) = after := by
  rw [behind, List.drop_length_add_append, List.drop_left]

/-- A piece in front of another, or behind it, has none of its places. -/
theorem not_covers {s t : Span} {i : Nat} (hcovers : s.Covers i)
    (h : t.stop ≤ s.start ∨ s.stop ≤ t.start) : ¬ t.Covers i := by
  obtain ⟨hstart, hstop⟩ := hcovers
  rintro ⟨hstart', hstop'⟩
  omega

end Span

/-- Pieces that hold the tokens of a text from the place `first` on. -/
structure Tokenizes (text : List Char) (first : Nat) (spans : List Span) : Prop where
  /-- No piece is empty or reaches beyond the text. -/
  inside : ∀ s ∈ spans, first ≤ s.start ∧ s.start < s.stop ∧ s.stop ≤ text.length
  /-- The pieces are in order, and no two have a place in common. -/
  ordered : spans.Pairwise fun a b => a.stop ≤ b.start
  /-- Outside all pieces there is only white space. -/
  outside : ∀ i c, first ≤ i → text[i]? = some c → (∀ s ∈ spans, ¬ s.Covers i) →
    isSpace c = true
  /-- Each piece is a token, seen with all the text behind it. -/
  isToken : ∀ s ∈ spans, IsToken (s.piece text) (s.behind text)

namespace Tokenizes

variable {text : List Char} {first next : Nat} {spans : List Span}

/-- White space up to the end needs no pieces. -/
theorem nil (h : ∀ c ∈ text.drop first, isSpace c = true) : Tokenizes text first [] where
  inside := nofun
  ordered := .nil
  outside i c hi hc _ := h c (List.mem_iff_getElem?.2 ⟨i - first, by
    rw [List.getElem?_drop, Nat.add_sub_cancel' hi, hc]⟩)
  isToken := nofun

/-- White space in front of the pieces changes nothing. -/
theorem skip (h : Tokenizes text next spans) (hle : first ≤ next)
    (hspace : ∀ i c, first ≤ i → i < next → text[i]? = some c → isSpace c = true) :
    Tokenizes text first spans where
  inside s hs := ⟨Nat.le_trans hle (h.inside s hs).1, (h.inside s hs).2⟩
  ordered := h.ordered
  outside i c hi hc hout := by
    rcases Nat.lt_or_ge i next with hlt | hge
    · exact hspace i c hi hlt hc
    · exact h.outside i c hge hc hout
  isToken := h.isToken

/-- A token in front of the pieces is one more. -/
theorem cons (h : Tokenizes text next spans) (hlt : first < next) (hle : next ≤ text.length)
    (htoken : IsToken (Span.piece ⟨first, next⟩ text) (Span.behind ⟨first, next⟩ text)) :
    Tokenizes text first (⟨first, next⟩ :: spans) where
  inside s hs := by
    rcases List.mem_cons.1 hs with rfl | hs
    · exact ⟨Nat.le_refl _, hlt, hle⟩
    · obtain ⟨hstart, hrest⟩ := h.inside s hs
      exact ⟨Nat.le_trans (Nat.le_of_lt hlt) hstart, hrest⟩
  ordered := .cons (fun s hs => (h.inside s hs).1) h.ordered
  outside i c hi hc hout := by
    obtain ⟨hfirst, hrest⟩ := List.forall_mem_cons.1 hout
    have hge : next ≤ i := Nat.le_of_not_lt fun hilt => hfirst ⟨hi, hilt⟩
    exact h.outside i c hge hc hrest
  isToken s hs := by
    rcases List.mem_cons.1 hs with rfl | hs
    · exact htoken
    · exact h.isToken s hs

/-- **A character that is not white space is in one piece, and in no other.** -/
theorem countP_eq_one (h : Tokenizes text 0 spans) {i : Nat} {c : Char}
    (hc : text[i]? = some c) (hspace : isSpace c = false) :
    spans.countP (fun s => s.Covers i) = 1 := by
  have hcovered : ∃ s ∈ spans, s.Covers i := by
    refine Classical.byContradiction fun hnone => ?_
    have hout := h.outside i c (Nat.zero_le i) hc fun s hs hcov => hnone ⟨s, hs, hcov⟩
    rw [hspace] at hout
    cases hout
  obtain ⟨s, hs, hcov⟩ := hcovered
  obtain ⟨before, after, rfl⟩ := List.append_of_mem hs
  obtain ⟨-, hsafter, hbefore⟩ := List.pairwise_append.1 h.ordered
  have hzero : before.countP (fun s => s.Covers i) = 0 :=
    List.countP_eq_zero.2 fun t ht hcovt =>
      Span.not_covers hcov (.inl (hbefore t ht s List.mem_cons_self)) (of_decide_eq_true hcovt)
  have hzero' : after.countP (fun s => s.Covers i) = 0 :=
    List.countP_eq_zero.2 fun t ht hcovt =>
      Span.not_covers hcov (.inr ((List.pairwise_cons.1 hsafter).1 t ht)) (of_decide_eq_true hcovt)
  rw [List.countP_append, List.countP_cons, hzero, hzero', if_pos (decide_eq_true hcov)]

end Tokenizes

/-- **The tokens of a text are pieces of it in order, and white space is all there is
around them**, whatever text comes before and whatever white space behind. -/
theorem tokenizes (before cs : List Char) {tail : List Char}
    (htail : ∀ c ∈ tail, isSpace c = true) :
    ∃ spans, Tokenizes (before ++ cs ++ tail) before.length spans ∧
      tokens cs = spans.map (·.piece (before ++ cs ++ tail)) := by
  -- By the recursion of `tokens`: what has been read is always before what is left.
  fun_induction tokens cs generalizing before with
  | case1 =>
    refine ⟨[], .nil ?_, rfl⟩
    simpa using htail
  | case2 c cs hc ih =>
    obtain ⟨spans, hspans, hmap⟩ := ih (before ++ [c])
    rw [List.append_assoc before [c] cs, List.singleton_append] at hspans hmap
    refine ⟨spans, hspans.skip (by simp) fun i d hi hlt hd => ?_, hmap⟩
    obtain rfl : i = before.length := by
      rw [List.length_append, List.length_singleton] at hlt
      omega
    rw [List.append_assoc, List.getElem?_append_right (Nat.le_refl _), Nat.sub_self] at hd
    cases hd
    exact hc
  | case3 c cs hc hlt ih =>
    have hsplit := cutToken_append (c :: cs)
    have hne := cutToken_ne_nil cs (Bool.not_eq_true _ ▸ hc)
    have htoken := isToken_cutToken (c :: cs)
    generalize cutToken (c :: cs) = cut at *
    obtain ⟨token, rest⟩ := cut
    dsimp only at hsplit hne htoken ih ⊢
    obtain ⟨spans, hspans, hmap⟩ := ih (before ++ token)
    rw [List.append_assoc before token rest, hsplit] at hspans hmap
    rw [List.length_append] at hspans
    have htext : before ++ c :: cs ++ tail = before ++ (token ++ (rest ++ tail)) := by
      rw [← hsplit, List.append_assoc, List.append_assoc]
    refine ⟨⟨before.length, before.length + token.length⟩ :: spans,
      hspans.cons ?_ ?_ ?_, ?_⟩
    · have hpos := List.length_pos_iff.2 hne
      omega
    · rw [htext, List.length_append, List.length_append]
      omega
    · rw [htext, Span.piece_append, Span.behind_append]
      exact htoken.append_space htail
    · rw [List.map_cons, hmap, htext, Span.piece_append]

/-! ## The terms of the tokens -/

theorem plainTerm_ne_all (token : List Char) : plainTerm token ≠ .all := by
  unfold plainTerm
  split
  · nofun
  · split
    · unfold keywordTerm
      repeat' split
      all_goals nofun
    all_goals nofun

theorem termOfToken_ne_all (token : List Char) : termOfToken token ≠ .all := by
  unfold termOfToken
  split
  · nofun
  · exact plainTerm_ne_all token

/-- A query asks for nothing in particular exactly where it is all white space. -/
theorem parse_eq_all_iff (raw : String) :
    parse raw = [.all] ↔ ∀ c ∈ raw.toList, isSpace c = true := by
  obtain ⟨lead, tail, hraw, hlead, htail⟩ := exists_trim raw.toList
  have htrim : (∀ c ∈ trim raw.toList, isSpace c = true) ↔
      ∀ c ∈ raw.toList, isSpace c = true := by
    refine ⟨fun h c hc => ?_, fun h c hc => h c ?_⟩
    · rw [hraw, List.mem_append, List.mem_append] at hc
      rcases hc with (hc | hc) | hc
      · exact hlead c hc
      · exact h c hc
      · exact htail c hc
    · rw [hraw]
      exact List.mem_append_left _ (List.mem_append_right _ hc)
  rw [← htrim, ← tokens_eq_nil_iff, parse]
  cases tokens (trim raw.toList) with
  | nil => exact ⟨fun _ => rfl, fun _ => rfl⟩
  | cons token rest =>
    refine ⟨fun h => ?_, fun h => absurd h (List.cons_ne_nil _ _)⟩
    exact absurd (List.cons.inj h).1 (termOfToken_ne_all token)

/-- **No token of a query is lost.**  Its tokens are pieces of it, in order and apart
from each other; each is a closed phrase or a longest run, and a run begins with a
quote only where no such quote comes later.  What is around them is white space, so
each other character is in exactly one of them.  The terms of the query are theirs,
and it asks for nothing in particular exactly where it is all white space. -/
theorem parse_pieces (raw : String) : ∃ spans : List Span,
    Tokenizes raw.toList 0 spans ∧
    tokens (trim raw.toList) = spans.map (·.piece raw.toList) ∧
    (∀ (i : Nat) (c : Char), raw.toList[i]? = some c → isSpace c = false →
      spans.countP (fun s => s.Covers i) = 1) ∧
    (spans ≠ [] → parse raw = spans.map fun s => termOfToken (s.piece raw.toList)) ∧
    (parse raw = [.all] ↔ ∀ c ∈ raw.toList, isSpace c = true) := by
  obtain ⟨lead, tail, hraw, hlead, htail⟩ := exists_trim raw.toList
  obtain ⟨spans, hspans, hmap⟩ := tokenizes lead (trim raw.toList) htail
  rw [← hraw] at hspans hmap
  have hall : Tokenizes raw.toList 0 spans := by
    refine hspans.skip (Nat.zero_le _) fun i c _ hlt hc => hlead c ?_
    rw [hraw, List.append_assoc, List.getElem?_append_left hlt] at hc
    exact List.mem_of_getElem? hc
  refine ⟨spans, hall, hmap, fun i c => hall.countP_eq_one, fun hne => ?_, parse_eq_all_iff raw⟩
  rw [parse, hmap, List.map_map]
  cases spans with
  | nil => exact absurd rfl hne
  | cons span spans => rfl

end NoteVault.Query
