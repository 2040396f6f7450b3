/-!
# Codes that tell where they end

A code writes members of a type as lists.  It is *self-delimiting* when a list
that begins with the code of a member determines that member and what follows
its code.  What is written by such codes one after the other can be taken apart
again, whatever stands behind it.

Two ways to make such a code of another one are enough here: a sequence up to a
mark that no member begins with (`flatMap_append_inj`), and writing its letters by
another code (`comp`).
-/

namespace NoteVault

variable {α β γ : Type}

/-- A list that begins with the code of a member with property `P` determines
the member and the rest. -/
def SelfDelimiting (P : α → Prop) (code : α → List β) : Prop :=
  ∀ ⦃a b : α⦄, P a → P b → ∀ ⦃x y : List β⦄, code a ++ x = code b ++ y → a = b ∧ x = y

namespace SelfDelimiting

variable {P : α → Prop} {code : α → List β}

/-- **A sequence of codes up to a mark.**  `Stop` is what may stand behind the
sequence: a list that does not begin with the code of a member. -/
theorem flatMap_append_inj (h : SelfDelimiting P code) (Stop : List β → Prop)
    (hstop : ∀ a, P a → ∀ x, ¬ Stop (code a ++ x)) {as bs : List α}
    (has : ∀ a ∈ as, P a) (hbs : ∀ b ∈ bs, P b) {x y : List β} (hx : Stop x) (hy : Stop y)
    (he : as.flatMap code ++ x = bs.flatMap code ++ y) : as = bs ∧ x = y := by
  induction as generalizing bs with
  | nil =>
    cases bs with
    | nil => exact ⟨rfl, he⟩
    | cons b bs =>
      -- What stops this sequence would begin with a code.
      rw [List.flatMap_nil, List.nil_append, List.flatMap_cons, List.append_assoc] at he
      exact absurd (he ▸ hx) (hstop b (hbs b List.mem_cons_self) _)
  | cons a as ih =>
    cases bs with
    | nil =>
      rw [List.flatMap_nil, List.nil_append, List.flatMap_cons, List.append_assoc] at he
      exact absurd (he.symm ▸ hy) (hstop a (has a List.mem_cons_self) _)
    | cons b bs =>
      rw [List.flatMap_cons, List.flatMap_cons, List.append_assoc, List.append_assoc] at he
      obtain ⟨rfl, hrest⟩ := h (has a List.mem_cons_self) (hbs b List.mem_cons_self) he
      obtain ⟨rfl, hxy⟩ := ih (fun c hc => has c (List.mem_cons_of_mem _ hc))
        (fun c hc => hbs c (List.mem_cons_of_mem _ hc)) hrest
      exact ⟨rfl, hxy⟩

/-- Of two sequences of codes with anything behind them, one goes on where the
other ends. -/
theorem prefix_or_prefix (h : SelfDelimiting (fun _ => True) code) {as bs : List α}
    {x y : List β} (he : as.flatMap code ++ x = bs.flatMap code ++ y) :
    as <+: bs ∨ bs <+: as := by
  induction as generalizing bs with
  | nil => exact Or.inl List.nil_prefix
  | cons a as ih =>
    cases bs with
    | nil => exact Or.inr List.nil_prefix
    | cons b bs =>
      rw [List.flatMap_cons, List.flatMap_cons, List.append_assoc, List.append_assoc] at he
      obtain ⟨rfl, hrest⟩ := h trivial trivial he
      exact (ih hrest).imp (List.prefix_cons_inj a).2 (List.prefix_cons_inj a).2

/-- Writing the letters of a self-delimiting code by another one. -/
theorem comp {letter : β → List γ} (h : SelfDelimiting P code)
    (hletter : SelfDelimiting (fun _ => True) letter) :
    SelfDelimiting P (fun a => (code a).flatMap letter) := by
  intro a b ha hb x y he
  -- The letters that are left over on one side stand behind the code of the other.
  have hab : a = b := by
    rcases hletter.prefix_or_prefix he with ⟨z, hz⟩ | ⟨z, hz⟩
    · exact (h ha hb (show code a ++ z = code b ++ [] by rw [hz, List.append_nil])).1
    · exact (h ha hb (show code a ++ [] = code b ++ z by rw [hz, List.append_nil])).1
  subst hab
  exact ⟨rfl, List.append_cancel_left he⟩

end SelfDelimiting

end NoteVault
