import NoteVault.Proofs.Text.Trim
import NoteVault.Query.Parser

/-!
# Where tokens are cut

A token is cut at the beginning of what is left of a query, once white space has
been passed over (`tokens_of_space`, `tokens_of_not_space`).  An exclamation mark
in front of a text that does not begin with one goes with the first token and
changes nothing else (`cutToken_bang`), so it turns around the term of a query
that is a single token (`parse_bang`).
-/

namespace NoteVault.Query

open Text Unicode

/-! ## Tokens -/

theorem tokens_nil : tokens [] = [] := by rw [tokens]

theorem tokens_of_space {c : Char} (cs : List Char) (h : isSpace c = true) :
    tokens (c :: cs) = tokens cs := by
  rw [tokens, dif_pos h]

theorem tokens_of_not_space {c : Char} (cs : List Char) (h : isSpace c = false) :
    tokens (c :: cs) = (cutToken (c :: cs)).1 :: tokens (cutToken (c :: cs)).2 := by
  rw [tokens, dif_neg (by rw [h]; decide)]

/-- Only white space has no tokens. -/
theorem tokens_eq_nil_iff {cs : List Char} : tokens cs = [] ↔ ∀ c ∈ cs, isSpace c = true := by
  induction cs with
  | nil => exact ⟨fun _ => nofun, fun _ => tokens_nil⟩
  | cons c cs ih =>
    cases hc : isSpace c with
    | true =>
      rw [tokens_of_space cs hc, ih, List.forall_mem_cons]
      exact ⟨fun h => ⟨hc, h⟩, And.right⟩
    | false =>
      rw [tokens_of_not_space cs hc]
      refine ⟨nofun, fun h => ?_⟩
      have hspace := h c List.mem_cons_self
      rw [hc] at hspace
      cases hspace

/-- A query without white space around it that is a single token is cut at its
end. -/
theorem cutToken_of_tokens_eq_singleton {cs token : List Char} (htrim : Trimmed cs)
    (h : tokens cs = [token]) : token = cs ∧ cutToken cs = (cs, []) := by
  cases cs with
  | nil => rw [tokens_nil] at h; cases h
  | cons c cs =>
    rw [tokens_of_not_space cs (htrim.1 c rfl)] at h
    obtain ⟨htoken, hrest⟩ := List.cons.inj h
    have hcut := cutToken_append (c :: cs)
    -- What is left would end like the query, but it is all white space.
    have hnil : (cutToken (c :: cs)).2 = [] := by
      rcases List.eq_nil_or_concat (cutToken (c :: cs)).2 with hnil | ⟨ds, d, hds⟩
      · exact hnil
      · exfalso
        rw [List.concat_eq_append] at hds
        have hspace : isSpace d = true :=
          tokens_eq_nil_iff.1 hrest d (by rw [hds]; exact List.mem_append_right _ List.mem_cons_self)
        have hlast : isSpace d = false := htrim.2 d (by
          rw [← hcut, hds, ← List.append_assoc, List.getLast?_concat]
          rfl)
        rw [hspace] at hlast
        cases hlast
    rw [hnil, List.append_nil] at hcut
    exact ⟨htoken.symm.trans hcut, Prod.ext hcut hnil⟩

/-! ## An exclamation mark in front -/

theorem quoted?_of_head_ne {cs : List Char} (h : cs.head? ≠ some '!') :
    quoted? cs = phrase? cs := by
  unfold quoted?
  split
  · exact absurd rfl h
  · rfl

/-- An exclamation mark in front goes with the first token. -/
theorem cutToken_bang {cs : List Char} (h : cs.head? ≠ some '!') :
    cutToken ('!' :: cs) = ('!' :: (cutToken cs).1, (cutToken cs).2) := by
  have hbang : quoted? ('!' :: cs) =
      (phrase? cs).map fun cut => ('!' :: cut.1, cut.2) := rfl
  rw [cutToken, cutToken, hbang, quoted?_of_head_ne h]
  cases phrase? cs with
  | some cut => rfl
  | none => rfl

theorem trimmed_bang {cs : List Char} (h : Trimmed cs) : Trimmed ('!' :: cs) := by
  refine ⟨fun c hc => ?_, fun c hc => ?_⟩
  · obtain rfl := Option.some.inj hc
    decide
  · rw [List.getLast?_cons] at hc
    cases hlast : cs.getLast? with
    | none =>
      rw [hlast] at hc
      obtain rfl := Option.some.inj hc
      decide
    | some d =>
      rw [hlast] at hc
      obtain rfl := Option.some.inj hc
      exact h.2 d hlast

/-- The tokens of a query that has a term of its own. -/
theorem tokens_of_parse_eq_singleton {raw : String} {term : Term} (htrim : Trimmed raw.toList)
    (h : parse raw = [term]) (hterm : term ≠ .all) :
    tokens raw.toList = [raw.toList] ∧ cutToken raw.toList = (raw.toList, []) ∧
      termOfToken raw.toList = term := by
  rw [parse, trim_eq_self htrim] at h
  cases htokens : tokens raw.toList with
  | nil =>
    rw [htokens] at h
    exact absurd (List.cons.inj h).1.symm hterm
  | cons token rest =>
    rw [htokens] at h
    obtain ⟨hone, hrest⟩ := List.cons.inj h
    obtain rfl := List.map_eq_nil_iff.1 hrest
    obtain ⟨rfl, hcut⟩ := cutToken_of_tokens_eq_singleton htrim htokens
    exact ⟨rfl, hcut, hone⟩

/-- **An exclamation mark in front of a single term turns it around.** -/
theorem parse_bang {raw : String} {term : Term} (htrim : Trimmed raw.toList)
    (hhead : raw.toList.head? ≠ some '!') (h : parse raw = [term]) (hterm : term ≠ .all) :
    parse ("!" ++ raw) = [.exclude term] := by
  obtain ⟨htokens, hcut, hone⟩ := tokens_of_parse_eq_singleton htrim h hterm
  have hlist : ("!" ++ raw).toList = '!' :: raw.toList := String.toList_append
  rw [parse, hlist, trim_eq_self (trimmed_bang htrim), tokens_of_not_space _ (by decide),
    cutToken_bang hhead, hcut, tokens_nil]
  cases hraw : raw.toList with
  | nil => rw [hraw, tokens_nil] at htokens; cases htokens
  | cons c cs =>
    rw [← hone, hraw]
    rfl

end NoteVault.Query
