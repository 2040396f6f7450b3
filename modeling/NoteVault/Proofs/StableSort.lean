/-!
# Stable sorting

`List.mergeSort` by a comparison that is a total preorder (`Std.TransCmp`) is
stable: entries that the comparison does not tell apart keep their order
(`filter_mergeSort_of_ties`).  So sorting a list that has an order already refines
the new order by the old one (`pairwise_mergeSort_then`), and the result is the
only arrangement of the entries that is in order and keeps ties as they are
(`eq_of_ties`).  Sorting the entries that a test chooses is therefore choosing from
the sorted list (`filter_mergeSort`).
-/

namespace NoteVault

/-- A comparison of what is read off the entries. -/
theorem transCmp_comap {α β : Type} (cmp : β → β → Ordering) [order : Std.TransCmp cmp]
    (f : α → β) : Std.TransCmp fun a b => cmp (f a) (f b) where
  eq_swap := order.eq_swap
  isLE_trans := order.isLE_trans

/-- Sorting two entries is comparing them once. -/
theorem mergeSort_pair {α : Type} (le : α → α → Bool) (a b : α) :
    [a, b].mergeSort le = if le a b then [a, b] else [b, a] := by
  simp [List.mergeSort, List.merge]

namespace StableSort

variable {α : Type} (cmp : α → α → Ordering)

/-- Whether a comparison does not tell two entries apart. -/
def ties (a b : α) : Bool := cmp a b == .eq

variable [order : Std.TransCmp cmp]

theorem isLE_total (a b : α) : ((cmp a b).isLE || (cmp b a).isLE) = true := by
  rw [order.eq_swap (a := b)]
  cases cmp a b <;> rfl

theorem ties_self (a : α) : ties cmp a a = true := beq_iff_eq.2 Std.ReflCmp.compare_self

variable {cmp}

/-- What ties with one entry ties with each other. -/
theorem eq_of_ties_left {a b c : α} (hb : ties cmp a b = true) (hc : ties cmp a c = true) :
    cmp b c = .eq :=
  Std.TransCmp.eq_trans (Std.OrientedCmp.eq_symm (eq_of_beq hb)) (eq_of_beq hc)

variable (cmp) in
theorem pairwise_mergeSort (as : List α) :
    (as.mergeSort fun a b => (cmp a b).isLE).Pairwise fun a b => (cmp a b).isLE = true :=
  List.pairwise_mergeSort (fun _ _ _ => Std.TransCmp.isLE_trans) (isLE_total cmp) as

/-- **Ties keep their order**: sorting does not move entries against each other
that are chosen by a test whose entries all tie. -/
theorem filter_mergeSort_of_ties {p : α → Bool}
    (hties : ∀ a b, p a = true → p b = true → cmp a b = .eq) (as : List α) :
    (as.mergeSort fun a b => (cmp a b).isLE).filter p = as.filter p := by
  have hordered : (as.filter p).Pairwise fun a b => (cmp a b).isLE = true := by
    rw [List.pairwise_filter, List.pairwise_iff_forall_sublist]
    intro a b _ ha hb
    rw [hties a b ha hb]
    rfl
  have hsub : (as.filter p).Sublist (as.mergeSort fun a b => (cmp a b).isLE) :=
    List.sublist_mergeSort (fun _ _ _ => Std.TransCmp.isLE_trans) (isLE_total cmp) hordered
      List.filter_sublist
  -- The chosen entries are a part of the sorted list, and it has no others.
  have hkept := hsub.filter p
  rw [List.filter_filter] at hkept
  simp only [Bool.and_self] at hkept
  exact (hkept.eq_of_length ((List.mergeSort_perm as _).filter p).length_eq.symm).symm

/-- **Sorting refines the new order by the old one.** -/
theorem pairwise_mergeSort_then {R : α → α → Prop} {as : List α} (h : as.Pairwise R) :
    (as.mergeSort fun a b => (cmp a b).isLE).Pairwise fun a b =>
      cmp a b = .lt ∨ cmp a b = .eq ∧ R a b := by
  have hle := pairwise_mergeSort cmp as
  rw [List.pairwise_iff_forall_sublist] at hle ⊢
  intro a b hab
  have hcases := hle hab
  cases hcmp : cmp a b with
  | lt => exact Or.inl rfl
  | gt => rw [hcmp] at hcases; cases hcases
  | eq =>
    refine Or.inr ⟨rfl, ?_⟩
    -- Both entries tie with the first one, so they stand in the old order.
    have hclass : [a, b].filter (ties cmp a) = [a, b] := by
      refine List.filter_eq_self.2 fun c hc => ?_
      rcases List.mem_cons.1 hc with rfl | hc
      · exact ties_self cmp c
      · rw [List.mem_singleton.1 hc]
        exact beq_iff_eq.2 hcmp
    have hpair := hab.filter (ties cmp a)
    rw [hclass, filter_mergeSort_of_ties fun _ _ => eq_of_ties_left] at hpair
    exact List.pairwise_iff_forall_sublist.1 h (hpair.trans List.filter_sublist)

/-- **What is in order and keeps ties is determined.** -/
theorem eq_of_ties {as bs : List α} (hperm : as.Perm bs)
    (has : as.Pairwise fun a b => (cmp a b).isLE = true)
    (hbs : bs.Pairwise fun a b => (cmp a b).isLE = true)
    (hties : ∀ c, as.filter (ties cmp c) = bs.filter (ties cmp c)) : as = bs := by
  induction as generalizing bs with
  | nil => exact (List.nil_perm.1 hperm).symm
  | cons a as ih =>
    cases bs with
    | nil => exact absurd hperm.symm (List.not_perm_nil_cons _ _)
    | cons b bs =>
      have hab : ties cmp a b = true := by
        have hle : (cmp a b).isLE = true := by
          rcases List.mem_cons.1 (hperm.mem_iff.2 List.mem_cons_self) with h | h
          · rw [h]; exact Std.ReflCmp.isLE_rfl
          · exact List.rel_of_pairwise_cons has h
        have hge : (cmp b a).isLE = true := by
          rcases List.mem_cons.1 (hperm.mem_iff.1 List.mem_cons_self) with h | h
          · rw [h]; exact Std.ReflCmp.isLE_rfl
          · exact List.rel_of_pairwise_cons hbs h
        exact beq_iff_eq.2 (Std.OrientedCmp.isLE_antisymm hle hge)
      have hhead := hties a
      rw [List.filter_cons_of_pos (ties_self cmp a), List.filter_cons_of_pos hab] at hhead
      obtain ⟨rfl, -⟩ := List.cons.inj hhead
      refine congrArg (a :: ·) (ih (List.Perm.cons_inv hperm) has.tail hbs.tail fun c => ?_)
      have hc := hties c
      by_cases hca : ties cmp c a = true
      · rw [List.filter_cons_of_pos hca, List.filter_cons_of_pos hca] at hc
        exact (List.cons.inj hc).2
      · rwa [List.filter_cons_of_neg hca, List.filter_cons_of_neg hca] at hc

/-- **Choosing and sorting commute.** -/
theorem filter_mergeSort (p : α → Bool) (as : List α) :
    (as.mergeSort fun a b => (cmp a b).isLE).filter p =
      (as.filter p).mergeSort fun a b => (cmp a b).isLE := by
  refine eq_of_ties ?_ ?_ (pairwise_mergeSort cmp _) fun c => ?_
  · exact ((List.mergeSort_perm as _).filter p).trans (List.mergeSort_perm _ _).symm
  · exact (pairwise_mergeSort cmp as).sublist List.filter_sublist
  · rw [filter_mergeSort_of_ties fun _ _ => eq_of_ties_left, List.filter_filter,
      List.filter_filter]
    refine filter_mergeSort_of_ties (fun a b ha hb => ?_) as
    exact eq_of_ties_left (Bool.and_eq_true_iff.1 ha).1 (Bool.and_eq_true_iff.1 hb).1

/-- Of two sorts by comparisons that have the same ties, only the later one
counts. -/
theorem mergeSort_mergeSort_of_ties {earlier : α → α → Ordering} [Std.TransCmp earlier]
    (hsame : ∀ a b, cmp a b = .eq → earlier a b = .eq) (as : List α) :
    ((as.mergeSort fun a b => (earlier a b).isLE).mergeSort fun a b => (cmp a b).isLE) =
      as.mergeSort fun a b => (cmp a b).isLE := by
  refine eq_of_ties ?_ (pairwise_mergeSort cmp _) (pairwise_mergeSort cmp _) fun c => ?_
  · exact (List.mergeSort_perm _ _).trans
      ((List.mergeSort_perm _ _).trans (List.mergeSort_perm _ _).symm)
  · rw [filter_mergeSort_of_ties fun _ _ => eq_of_ties_left,
      filter_mergeSort_of_ties fun _ _ => eq_of_ties_left]
    exact filter_mergeSort_of_ties
      (fun a b ha hb => hsame a b (eq_of_ties_left ha hb)) as

end StableSort

end NoteVault
