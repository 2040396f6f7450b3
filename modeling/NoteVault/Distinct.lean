/-!
Lists that hold each element once. Main statement: the first occurrences of the elements of a list
have no repetition, and are the same elements.
-/

namespace NoteVault

variable {α : Type} [DecidableEq α]

/-- Adds an element at the end of a list, unless it is there already. -/
def addNew (seen : List α) (a : α) : List α := if a ∈ seen then seen else seen ++ [a]

/-- The elements of a list, each at its first place only. -/
def firstOccurrences (as : List α) : List α := as.foldl addNew []

theorem mem_addNew {seen : List α} {a b : α} : b ∈ addNew seen a ↔ b ∈ seen ∨ b = a := by
  unfold addNew
  split
  · rename_i h
    exact ⟨.inl, fun hb => hb.elim id fun hb => hb ▸ h⟩
  · simp

theorem nodup_addNew {seen : List α} (a : α) (h : seen.Nodup) : (addNew seen a).Nodup := by
  unfold addNew
  split
  · exact h
  · rename_i ha
    exact List.nodup_append.2 ⟨h, by simp, by
      rintro b hb c hc rfl
      exact ha (List.mem_singleton.1 hc ▸ hb)⟩

theorem mem_foldl_addNew {as seen : List α} {b : α} :
    b ∈ as.foldl addNew seen ↔ b ∈ seen ∨ b ∈ as := by
  induction as generalizing seen with
  | nil => simp
  | cons a as ih => simp [ih, mem_addNew, or_assoc]

/-- Adding elements leaves those that are there in front. -/
theorem prefix_foldl_addNew (as seen : List α) : seen <+: as.foldl addNew seen := by
  induction as generalizing seen with
  | nil => exact List.prefix_refl _
  | cons a as ih =>
    refine List.IsPrefix.trans ?_ (ih (addNew seen a))
    unfold addNew
    split
    · exact List.prefix_refl _
    · exact List.prefix_append _ _

theorem nodup_foldl_addNew {as seen : List α} (h : seen.Nodup) : (as.foldl addNew seen).Nodup := by
  induction as generalizing seen with
  | nil => exact h
  | cons a as ih => exact ih (nodup_addNew a h)

theorem mem_firstOccurrences {as : List α} {b : α} : b ∈ firstOccurrences as ↔ b ∈ as := by
  simp [firstOccurrences, mem_foldl_addNew]

theorem filter_foldl_addNew (p : α → Bool) (as seen : List α) :
    (as.foldl addNew seen).filter p = (as.filter p).foldl addNew (seen.filter p) := by
  induction as generalizing seen with
  | nil => rfl
  | cons a as ih =>
    rw [List.foldl_cons, ih]
    cases ha : p a with
    | true =>
      have hmem : a ∈ seen.filter p ↔ a ∈ seen := by simp [ha]
      rw [List.filter_cons_of_pos ha, List.foldl_cons, addNew, addNew, apply_ite (List.filter p),
        List.filter_append, List.filter_cons_of_pos ha, List.filter_nil]
      simp only [hmem]
    | false =>
      have ha' : ¬ p a = true := by rw [ha]; decide
      rw [List.filter_cons_of_neg ha', addNew, apply_ite (List.filter p), List.filter_append,
        List.filter_cons_of_neg ha', List.filter_nil, List.append_nil, ite_self]

/-- Leaving elements out and leaving repetitions out can be done in either order. -/
theorem filter_firstOccurrences (p : α → Bool) (as : List α) :
    (firstOccurrences as).filter p = firstOccurrences (as.filter p) :=
  filter_foldl_addNew p as []

theorem nodup_firstOccurrences (as : List α) : (firstOccurrences as).Nodup :=
  nodup_foldl_addNew List.nodup_nil

theorem firstOccurrences_append (as bs : List α) :
    firstOccurrences (as ++ bs) = bs.foldl addNew (firstOccurrences as) :=
  List.foldl_append

theorem eraseDups_concat [BEq α] [LawfulBEq α] (as : List α) (a : α) :
    (as ++ [a]).eraseDups = addNew as.eraseDups a := by
  rw [List.eraseDups_append, addNew]
  by_cases ha : a ∈ as
  · have hnew : [a].removeAll as = [] := by simp [List.removeAll, ha]
    rw [if_pos (List.mem_eraseDups.2 ha), hnew]
    exact List.append_nil _
  · have hnew : [a].removeAll as = [a] := by simp [List.removeAll, ha]
    rw [if_neg (mt List.mem_eraseDups.1 ha), hnew]
    rfl

/-- Adding the elements one by one and erasing repetitions come to the same. -/
theorem firstOccurrences_eq_eraseDups [BEq α] [LawfulBEq α] (as : List α) :
    firstOccurrences as = as.eraseDups := by
  rw [← List.reverse_reverse as]
  induction as.reverse with
  | nil => rfl
  | cons a as ih =>
    rw [List.reverse_cons, firstOccurrences_append, ih, eraseDups_concat]
    rfl

end NoteVault
