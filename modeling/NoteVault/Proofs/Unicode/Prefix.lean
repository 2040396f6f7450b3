import NoteVault.Unicode.Lowercase

/-!
# Beginnings in lower case

The lower case of a text begins with the lower case of each of its beginnings, with one
exception (`lowercaseChars_prefix_iff`).  A capital sigma that ends a word becomes a final
sigma, so a beginning that breaks off at one (`OpenSigma`) reads differently once a
character with case follows.
-/

namespace NoteVault.Unicode

variable {before cs rest : List Char} {c : Char}

/-! ## The next character that is not skipped -/

theorem meetsCased_nil : meetsCased [] = false := rfl

theorem meetsCased_cons (c : Char) (cs : List Char) :
    meetsCased (c :: cs) = if isCaseIgnorable c then meetsCased cs else isCased c := by
  unfold meetsCased
  cases hc : isCaseIgnorable c with
  | true => rw [List.dropWhile_cons_of_pos hc, if_pos rfl]
  | false => rw [List.dropWhile_cons_of_neg (by rw [hc]; decide), if_neg (by decide)]

theorem meetsCased_append_of_skipped (h : ∀ d ∈ cs, isCaseIgnorable d = true) :
    meetsCased (cs ++ rest) = meetsCased rest := by
  unfold meetsCased
  rw [List.dropWhile_append_of_pos h]

/-- What is behind a character that is not skipped does not matter. -/
theorem meetsCased_append_of_not_skipped (h : ¬ ∀ d ∈ cs, isCaseIgnorable d = true) :
    meetsCased (cs ++ rest) = meetsCased cs := by
  induction cs with
  | nil => exact absurd (List.forall_mem_nil _) h
  | cons c cs ih =>
    rw [List.cons_append, meetsCased_cons, meetsCased_cons]
    cases hc : isCaseIgnorable c with
    | true => rw [if_pos rfl, if_pos rfl, ih fun hcs => h (List.forall_mem_cons.2 ⟨hc, hcs⟩)]
    | false => rfl

/-! ## A sigma at which a text breaks off -/

/-- A text breaks off at a capital sigma that ends a word so far: case stands before it,
and behind it only characters that are skipped.  What stands before the text itself is
given in reverse. -/
def OpenSigma (before cs : List Char) : Prop :=
  ∃ a b, cs = a ++ 'Σ' :: b ∧ meetsCased (a.reverse ++ before) = true ∧
    ∀ d ∈ b, isCaseIgnorable d = true

theorem not_openSigma_nil : ¬ OpenSigma before [] := by
  rintro ⟨a, b, h, -, -⟩
  exact absurd h.symm (List.append_ne_nil_of_right_ne_nil _ (List.cons_ne_nil _ _))

theorem openSigma_cons :
    OpenSigma before (c :: cs) ↔
      (c = 'Σ' ∧ meetsCased before = true ∧ ∀ d ∈ cs, isCaseIgnorable d = true) ∨
        OpenSigma (c :: before) cs := by
  constructor
  · rintro ⟨a, b, h, hcased, hskipped⟩
    cases a with
    | nil =>
      obtain ⟨rfl, rfl⟩ := List.cons.inj h
      exact .inl ⟨rfl, hcased, hskipped⟩
    | cons d a =>
      obtain ⟨rfl, rfl⟩ := List.cons.inj h
      rw [List.reverse_cons, List.append_assoc, List.singleton_append] at hcased
      exact .inr ⟨a, b, rfl, hcased, hskipped⟩
  · rintro (⟨rfl, hcased, hskipped⟩ | ⟨a, b, rfl, hcased, hskipped⟩)
    · exact ⟨[], cs, rfl, hcased, hskipped⟩
    · refine ⟨c :: a, b, rfl, ?_, hskipped⟩
      rwa [List.reverse_cons, List.append_assoc, List.singleton_append]

/-- One character reads differently once a text goes on, if it is such a sigma and the
text goes on with case. -/
theorem lowercaseAt_append_eq_iff :
    lowercaseAt before c cs = lowercaseAt before c (cs ++ rest) ↔
      ¬ ((c = 'Σ' ∧ meetsCased before = true ∧ ∀ d ∈ cs, isCaseIgnorable d = true) ∧
        meetsCased rest = true) := by
  by_cases hc : c = 'Σ'
  · rw [lowercaseAt, lowercaseAt, if_pos hc, if_pos hc]
    by_cases hskipped : ∀ d ∈ cs, isCaseIgnorable d = true
    · have hnone : meetsCased cs = false := by
        rw [← List.append_nil cs, meetsCased_append_of_skipped hskipped, meetsCased_nil]
      rw [meetsCased_append_of_skipped hskipped, hnone]
      cases meetsCased before with
      | false => simp
      | true =>
        cases meetsCased rest with
        | false => simp
        | true => exact ⟨fun h => absurd h (by decide), fun h => absurd ⟨⟨hc, rfl, hskipped⟩, rfl⟩ h⟩
    · rw [meetsCased_append_of_not_skipped hskipped]
      exact ⟨fun _ h => hskipped h.1.2.2, fun _ => rfl⟩
  · rw [lowercaseAt, lowercaseAt, if_neg hc, if_neg hc]
    exact ⟨fun _ h => hc h.1.1, fun _ => rfl⟩

theorem length_lowercaseAt (after after' : List Char) :
    (lowercaseAt before c after).length = (lowercaseAt before c after').length := by
  unfold lowercaseAt
  split
  · rfl
  · rfl

theorem lowercaseFrom_prefix_iff :
    lowercaseFrom before cs <+: lowercaseFrom before (cs ++ rest) ↔
      ¬ (OpenSigma before cs ∧ meetsCased rest = true) := by
  induction cs generalizing before with
  | nil => exact ⟨fun _ h => not_openSigma_nil h.1, fun _ => List.nil_prefix⟩
  | cons c cs ih =>
    rw [List.cons_append, lowercaseFrom, lowercaseFrom, openSigma_cons, or_and_right, not_or,
      ← lowercaseAt_append_eq_iff, ← ih]
    constructor
    · rintro ⟨tail, h⟩
      rw [List.append_assoc] at h
      obtain ⟨hat, hfrom⟩ := List.append_inj h (length_lowercaseAt _ _)
      exact ⟨hat, tail, hfrom⟩
    · rintro ⟨hat, hfrom⟩
      rw [hat]
      exact (List.prefix_append_right_inj _).2 hfrom

/-- **The lower case of a text begins with that of a beginning**, unless the beginning
breaks off at a capital sigma and the text goes on with case. -/
theorem lowercaseChars_prefix_iff :
    lowercaseChars cs <+: lowercaseChars (cs ++ rest) ↔
      ¬ (OpenSigma [] cs ∧ meetsCased rest = true) :=
  lowercaseFrom_prefix_iff

end NoteVault.Unicode
