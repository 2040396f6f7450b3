import Mathlib.Data.List.DropRight
import NoteVault.Text.Cut

/-!
# Trimming

Dropping the longest end of some characters leaves a text that does not end in one of
them (`getLast?_dropEndWhile`), and the same whatever of them is added behind
(`dropEndWhile_append`).

Trimming takes white space away at both ends of a text and nothing else
(`exists_trim`), as much of it as there is (`trimmed_trim`).  So white space in front
of a text or behind it makes no difference to what trimming leaves (`trim_append_left`,
`trim_append_right`).
-/

namespace NoteVault.Text

open Unicode

/-! ## Dropping an end -/

section DropEnd

variable {p : Char → Bool}

theorem exists_dropEndWhile (p : Char → Bool) (cs : List Char) :
    ∃ tail, cs = dropEndWhile p cs ++ tail ∧ ∀ c ∈ tail, p c = true :=
  ⟨cs.rtakeWhile p, List.rdropWhile_append_rtakeWhile.symm, fun _ => List.mem_rtakeWhile_imp⟩

theorem dropEndWhile_subset (p : Char → Bool) (cs : List Char) : dropEndWhile p cs ⊆ cs :=
  (List.rdropWhile_prefix p cs).subset

theorem dropEndWhile_append {tail : List Char} (h : ∀ c ∈ tail, p c = true) (cs : List Char) :
    dropEndWhile p (cs ++ tail) = dropEndWhile p cs := by
  have hreverse : ∀ c ∈ tail.reverse, p c = true := fun c hc => h c (List.mem_reverse.1 hc)
  rw [dropEndWhile, dropEndWhile, List.reverse_append, List.dropWhile_append_of_pos hreverse]

theorem getLast?_dropEndWhile (p : Char → Bool) (cs : List Char) :
    ∀ c ∈ (dropEndWhile p cs).getLast?, p c = false := by
  intro c hc
  rw [dropEndWhile, List.getLast?_reverse] at hc
  have hlast := List.head?_dropWhile_not p cs.reverse
  rw [Option.mem_def.1 hc] at hlast
  exact hlast

theorem dropEndWhile_eq_self {cs : List Char} (h : ∀ c ∈ cs.getLast?, p c = false) :
    dropEndWhile p cs = cs := by
  refine List.rdropWhile_eq_self_iff.2 fun hne => ?_
  rw [h _ (List.getLast?_eq_some_getLast hne)]
  exact Bool.false_ne_true

end DropEnd

/-! ## Trimmed texts -/

/-- A text without white space at its beginning and at its end. -/
def Trimmed (cs : List Char) : Prop :=
  (∀ c ∈ cs.head?, isSpace c = false) ∧ ∀ c ∈ cs.getLast?, isSpace c = false

theorem trimmed_of_no_space {cs : List Char} (h : ∀ c ∈ cs, isSpace c = false) : Trimmed cs :=
  ⟨fun c hc => h c (List.mem_of_head? hc), fun c hc => h c (List.mem_of_getLast? hc)⟩

theorem trim_eq_self {cs : List Char} (h : Trimmed cs) : trim cs = cs := by
  have hstart : trimStart cs = cs := by
    cases cs with
    | nil => rfl
    | cons c cs =>
      have hc : isSpace c = false := h.1 c rfl
      rw [trimStart, List.dropWhile_cons_of_neg (by rw [hc]; decide)]
  have hend : trimEnd cs = cs := dropEndWhile_eq_self h.2
  rw [trim, hstart, hend]

/-! ## What is taken away -/

/-- Trimming takes white space away at both ends, and nothing else. -/
theorem exists_trim (cs : List Char) : ∃ lead tail : List Char, cs = lead ++ trim cs ++ tail ∧
    (∀ c ∈ lead, isSpace c = true) ∧ ∀ c ∈ tail, isSpace c = true := by
  obtain ⟨tail, hend, htail⟩ := exists_dropEndWhile isSpace (trimStart cs)
  refine ⟨cs.takeWhile isSpace, tail, ?_,
    fun c hc => List.all_eq_true.1 List.all_takeWhile c hc, htail⟩
  rw [trim, trimEnd, List.append_assoc, ← hend, trimStart, List.takeWhile_append_dropWhile]

/-- A text that is not blank is not trimmed to nothing. -/
theorem trim_ne_nil {cs : List Char} (h : ∃ c ∈ cs, isSpace c = false) : trim cs ≠ [] := by
  obtain ⟨lead, tail, hcs, hlead, htail⟩ := exists_trim cs
  intro hnil
  obtain ⟨c, hmem, hc⟩ := h
  rw [hcs, hnil, List.append_nil] at hmem
  have hspace : isSpace c = true := (List.mem_append.1 hmem).elim (hlead c) (htail c)
  rw [hc] at hspace
  cases hspace

/-- What trimming leaves is a piece of the text. -/
theorem trim_infix_self (cs : List Char) : trim cs <:+: cs := by
  obtain ⟨lead, tail, hcs, -, -⟩ := exists_trim cs
  exact ⟨lead, tail, hcs.symm⟩

/-- No white space is left at the ends. -/
theorem trimmed_trim (cs : List Char) : Trimmed (trim cs) := by
  constructor
  · intro c hc
    -- What is left after the end has been trimmed begins like what it was left of.
    obtain ⟨tail, hend, -⟩ := exists_dropEndWhile isSpace (trimStart cs)
    have hhead : (trimStart cs).head? = some c := by
      rw [hend, List.head?_append, ← trimEnd, ← trim, Option.mem_def.1 hc]
      rfl
    have hfirst := List.head?_dropWhile_not isSpace cs
    rw [← trimStart, hhead] at hfirst
    exact hfirst
  · exact getLast?_dropEndWhile isSpace (trimStart cs)

theorem trim_trim (cs : List Char) : trim (trim cs) = trim cs := trim_eq_self (trimmed_trim cs)

/-- Nothing is taken away exactly where there is no white space at the ends. -/
theorem trim_eq_self_iff {cs : List Char} : trim cs = cs ↔ Trimmed cs :=
  ⟨fun h => h ▸ trimmed_trim cs, trim_eq_self⟩

instance (cs : List Char) : Decidable (Trimmed cs) :=
  decidable_of_iff (trim cs = cs) trim_eq_self_iff

/-! ## White space around a text -/

theorem trim_append_left {lead : List Char} (h : ∀ c ∈ lead, isSpace c = true)
    (cs : List Char) : trim (lead ++ cs) = trim cs := by
  rw [trim, trim, trimStart, trimStart, List.dropWhile_append_of_pos h]

theorem trim_append_right {tail : List Char} (h : ∀ c ∈ tail, isSpace c = true)
    (cs : List Char) : trim (cs ++ tail) = trim cs := by
  rw [trim, trim, trimStart, trimStart, List.dropWhile_append]
  split
  · rename_i hblank
    have htail : (tail ++ []).dropWhile isSpace = [] := List.dropWhile_append_of_pos h
    rw [List.append_nil] at htail
    rw [List.isEmpty_iff.1 hblank, htail]
  · exact dropEndWhile_append h _

end NoteVault.Text
