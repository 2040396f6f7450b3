import NoteVault.Text.Cut

/-!
# Joined texts

Texts with a separator between them begin with the first of them and end in the last
one (`exists_joinWith_of_head?`, `exists_joinWith_of_getLast?`), and grow by one text at
a time (`toList_joinWith_concat`).
-/

namespace NoteVault.Text

variable {parts : List String} {part : String}

theorem joinWith_nil (sep : String) : joinWith sep [] = "" := String.intercalate_nil

/-- Joined texts begin with the first of them. -/
theorem exists_joinWith_of_head? (sep : String) (h : parts.head? = some part) :
    ∃ after, (joinWith sep parts).toList = part.toList ++ after := by
  obtain ⟨rest, rfl⟩ := List.head?_eq_some_iff.1 h
  cases rest with
  | nil => exact ⟨[], by rw [joinWith, String.intercalate_singleton, List.append_nil]⟩
  | cons other rest =>
    refine ⟨sep.toList ++ (joinWith sep (other :: rest)).toList, ?_⟩
    rw [joinWith, String.intercalate_cons_cons, String.toList_append, String.toList_append,
      List.append_assoc]
    rfl

/-- Joined texts end in the last of them. -/
theorem exists_joinWith_of_getLast? (sep : String) (h : parts.getLast? = some part) :
    ∃ before, (joinWith sep parts).toList = before ++ part.toList := by
  obtain ⟨rest, rfl⟩ := List.getLast?_eq_some_iff.1 h
  -- The joining text stands before the last part unless that is the only one.
  by_cases hrest : rest = []
  · subst hrest
    exact ⟨[], by rw [joinWith, List.nil_append, String.intercalate_singleton, List.nil_append]⟩
  · refine ⟨(joinWith sep rest).toList ++ sep.toList, ?_⟩
    rw [joinWith, String.intercalate_append_of_ne_nil hrest (List.cons_ne_nil _ _),
      String.intercalate_singleton, String.toList_append, String.toList_append]
    rfl

/-- Where all texts begin with one character, what is joined of them begins with it. -/
theorem head?_joinWith (sep : String) {c : Char}
    (h : ∀ part ∈ parts, part.toList.head? = some c) :
    ∀ d ∈ (joinWith sep parts).toList.head?, d = c := by
  intro d hd
  cases hfirst : parts.head? with
  | none =>
    rw [List.head?_eq_none_iff.1 hfirst, joinWith_nil] at hd
    cases hd
  | some part =>
    obtain ⟨after, htext⟩ := exists_joinWith_of_head? sep hfirst
    rw [htext, List.head?_append, h part (List.mem_of_head? hfirst)] at hd
    exact (Option.some.inj hd).symm

/-- Where all texts end in one character, what is joined of them ends in it. -/
theorem getLast?_joinWith (sep : String) {c : Char}
    (h : ∀ part ∈ parts, part.toList.getLast? = some c) :
    ∀ d ∈ (joinWith sep parts).toList.getLast?, d = c := by
  intro d hd
  cases hlast : parts.getLast? with
  | none =>
    rw [List.getLast?_eq_none_iff.1 hlast, joinWith_nil] at hd
    cases hd
  | some part =>
    obtain ⟨before, htext⟩ := exists_joinWith_of_getLast? sep hlast
    rw [htext, List.getLast?_append, h part (List.mem_of_getLast? hlast)] at hd
    exact (Option.some.inj hd).symm

/-- Behind joined texts a further one stands after a separator, unless it is the first. -/
theorem toList_joinWith_concat (sep : String) (parts : List String) (part : String) :
    (joinWith sep (parts ++ [part])).toList =
      if parts = [] then part.toList
      else (joinWith sep parts).toList ++ (sep.toList ++ part.toList) := by
  by_cases hparts : parts = []
  · rw [if_pos hparts, hparts, joinWith, List.nil_append, String.intercalate_singleton]
  · rw [if_neg hparts, joinWith,
      String.intercalate_append_of_ne_nil hparts (List.cons_ne_nil _ _),
      String.intercalate_singleton, String.toList_append, String.toList_append, List.append_assoc]
    rfl

/-- Only where there is no text, nothing is joined. -/
theorem joinWith_eq_empty_iff {sep : String} (h : ∀ part ∈ parts, part ≠ "") :
    joinWith sep parts = "" ↔ parts = [] := by
  cases parts with
  | nil => exact iff_of_true (joinWith_nil sep) rfl
  | cons part parts =>
    refine iff_of_false (fun hempty => ?_) (List.cons_ne_nil _ _)
    have hhead : (part :: parts).head? = some part := rfl
    obtain ⟨after, htext⟩ := exists_joinWith_of_head? sep hhead
    rw [hempty] at htext
    have hpart : part.toList = [] := (List.append_eq_nil_iff.1 htext.symm).1
    exact h part List.mem_cons_self (String.toList_eq_nil_iff.1 hpart)

end NoteVault.Text
