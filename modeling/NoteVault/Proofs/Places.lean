/-!
# Places of a list

A list with the places of its entries is `List.zipIdx`.  Choosing places by what
stands there is choosing entries (`map_fst_filter_zipIdx`); so the parts of a list
that a function of its entries makes share out its places (`shared_filter`).

Places can also be kept or left out without regard to what stands there (`atPlaces`).
-/

namespace NoteVault

/-- Choosing places by what stands there is choosing by what stands there. -/
theorem map_fst_filter_zipIdx {α : Type} {all : List α} {chosen : Nat → Bool} {p : α → Bool}
    (h : ∀ i a, all[i]? = some a → chosen i = p a) :
    (all.zipIdx.filter fun entry => chosen entry.2).map Prod.fst = all.filter p := by
  have hentries : all.zipIdx.filter (fun entry => chosen entry.2) =
      all.zipIdx.filter (p ∘ Prod.fst) :=
    List.filter_congr fun entry hentry =>
      h entry.2 entry.1 (List.mk_mem_zipIdx_iff_getElem?.1 hentry)
  rw [hentries, ← List.filter_map, List.zipIdx_map_fst]

/-- The places of a list go up. -/
theorem pairwise_zipIdx {α : Type} (all : List α) (start : Nat) :
    (all.zipIdx start).Pairwise fun a b => a.2 < b.2 := by
  have hplaces : ((all.zipIdx start).map Prod.snd).Pairwise (· < ·) := by
    rw [List.zipIdx_map_snd]
    exact List.pairwise_lt_range'
  exact List.pairwise_map.1 hplaces

/-- Lists, one for each of several kinds, share out the places of a list: each
place goes to the list of exactly one kind, and all keep the order of the list. -/
def Shared {α κ : Type} [DecidableEq κ] (all : List α) (parts : κ → List α) : Prop :=
  ∃ kindAt : Nat → κ,
    ∀ k, parts k = (all.zipIdx.filter fun entry => kindAt entry.2 = k).map Prod.fst

/-- The parts that a function of the entries makes share out the places; there is
no place behind the end, so any kind will do there. -/
theorem shared_filter {α κ : Type} [DecidableEq κ] (kind : α → κ) (behind : κ)
    (all : List α) : Shared all fun k => all.filter (kind · = k) := by
  refine ⟨fun i => (all[i]?.map kind).getD behind, fun k => ?_⟩
  have hkind : ∀ (i : Nat) (a : α), all[i]? = some a →
      decide ((all[i]?.map kind).getD behind = k) = decide (kind a = k) := by
    intro i a h
    rw [h]
    rfl
  exact (map_fst_filter_zipIdx hkind).symm

/-- The entries at the places that are kept, counted from zero. -/
def atPlaces {α : Type} (keep : Nat → Bool) : List α → List α
  | [] => []
  | a :: as =>
    if keep 0 then a :: atPlaces (fun i => keep (i + 1)) as
    else atPlaces (fun i => keep (i + 1)) as

end NoteVault
