import Mathlib.Algebra.Group.Nat.Defs
import NoteVault.Query.Page

/-!
# Pages tile a list

A page is a slice of a list, and its place is computed from its number.  The number of
pages is the least one whose pages hold all items (`lt_count_iff`), so the numbers that
a page can have lead to places inside the list (`start_nearest_le`), and the pages one
behind the other are the list (`flatMap_slices`).

For lists of fewer than 2 to the power of 63 items nothing that is computed on the way
leaves the range of machine words (`InWords`), whatever the size of the pages:
there is a second page only if the size is less than the number of items.
`pages_tile` puts these facts together.
-/

namespace NoteVault.Query.Page

variable {α : Type} {items size wanted number : Nat}

/-! ## The number of pages -/

/-- **There is a page with a number behind another** exactly if the pages up to the other
do not hold all items. -/
theorem lt_count_iff (hsize : 0 < size) : number < count items size ↔ number * size < items := by
  have hdiv : size * (items / size) + items % size = items := Nat.div_add_mod items size
  have hmod : items % size < size := Nat.mod_lt items hsize
  rw [Nat.mul_comm] at hdiv
  unfold count
  -- Below the quotient a whole page follows; at the quotient, what the division leaves.
  by_cases hle : number ≤ items / size
  · have hmul : number * size ≤ items / size * size := Nat.mul_le_mul_right size hle
    rcases Nat.lt_or_eq_of_le hle with hlt | rfl
    · have hnext : (number + 1) * size ≤ items / size * size := Nat.mul_le_mul_right size hlt
      rw [Nat.succ_mul] at hnext
      split <;> omega
    · split <;> omega
  · have hmul : (items / size + 1) * size ≤ number * size := Nat.mul_le_mul_right size (by omega)
    rw [Nat.succ_mul] at hmul
    split <;> omega

theorem le_count_mul (hsize : 0 < size) (items : Nat) : items ≤ count items size * size :=
  Nat.le_of_not_lt fun h => Nat.lt_irrefl _ ((lt_count_iff hsize).2 h)

theorem count_le (hsize : 0 < size) (items : Nat) : count items size ≤ items := by
  refine Nat.le_of_not_lt fun h => ?_
  have hlt := (lt_count_iff hsize).1 h
  have hle : items * 1 ≤ items * size := Nat.mul_le_mul_left items hsize
  omega

/-- Only an empty list has no pages. -/
theorem count_eq_zero_iff (hsize : 0 < size) : count items size = 0 ↔ items = 0 := by
  have hpos : 0 < count items size ↔ 0 < items := by
    rw [lt_count_iff hsize, Nat.zero_mul]
  omega

/-! ## The place of a page -/

theorem nearest_bounds (pages wanted : Nat) :
    1 ≤ nearest pages wanted ∧ nearest pages wanted ≤ max 1 pages := by
  unfold nearest
  omega

theorem nearest_eq (pages wanted : Nat) :
    nearest pages wanted =
      if wanted < 1 then 1 else if max 1 pages < wanted then max 1 pages else wanted := by
  unfold nearest
  split
  · omega
  · split <;> omega

/-- **A page that is shown begins inside the list**, or the list is empty and it is the
first. -/
theorem start_nearest_le (hsize : 0 < size) (items wanted : Nat) :
    start (nearest (count items size) wanted) size ≤ items ∧
      (start (nearest (count items size) wanted) size ≠ 0 → size < items) := by
  obtain ⟨hone, hmost⟩ := nearest_bounds (count items size) wanted
  unfold start
  -- Only the bounds of the number matter, not how it has been found.
  generalize nearest (count items size) wanted = number at hone hmost
  by_cases hfirst : number = 1
  · rw [hfirst, Nat.sub_self, Nat.zero_mul]
    exact ⟨Nat.zero_le _, fun h => absurd rfl h⟩
  · have hlt : (number - 1) * size < items := (lt_count_iff hsize).1 (by omega)
    have hle : 1 * size ≤ (number - 1) * size := Nat.mul_le_mul_right size (by omega)
    exact ⟨Nat.le_of_lt hlt, fun _ => by omega⟩

/-- **What is computed for a page stays in machine words**: no sum or product is too
great, and no difference is negative. -/
structure InWords (items size wanted : Nat) : Prop where
  pages : count items size + 1 < UInt64.size
  number_pos : 1 ≤ nearest (count items size) wanted
  number : nearest (count items size) wanted < UInt64.size
  first : start (nearest (count items size) wanted) size < UInt64.size
  next : start (nearest (count items size) wanted) size + size < UInt64.size
  ordered : start (nearest (count items size) wanted) size ≤
    finish (nearest (count items size) wanted) size items
  inside : finish (nearest (count items size) wanted) size items ≤ items

theorem inWords (hitems : items < 2 ^ 63) (hsize : 0 < size) (hword : size < UInt64.size)
    (wanted : Nat) : InWords items size wanted := by
  obtain ⟨hone, hmost⟩ := nearest_bounds (count items size) wanted
  obtain ⟨hstart, hsecond⟩ := start_nearest_le hsize items wanted
  have hcount := count_le hsize items
  have hmax : UInt64.size = 2 ^ 64 := rfl
  have hfinish : ∀ number, finish number size items = min (start number size + size) items :=
    fun _ => rfl
  exact {
    pages := by omega
    number_pos := hone
    number := by omega
    first := by omega
    next := by omega
    ordered := by rw [hfinish]; omega
    inside := by rw [hfinish]; omega }

/-! ## Slices -/

/-- The items of the page with a number, counted from zero. -/
def sliceAt (items : List α) (size k : Nat) : List α := (items.drop (k * size)).take size

/-- The slices of the first pages, one behind the other, are the first items. -/
theorem flatMap_slices (items : List α) (size pages : Nat) :
    (List.range pages).flatMap (sliceAt items size) = items.take (pages * size) := by
  -- On the number of pages: one more page is what stands behind the items so far.
  induction pages with
  | zero => rw [Nat.zero_mul, List.take_zero, List.range_zero, List.flatMap_nil]
  | succ pages ih =>
    rw [List.range_succ, List.flatMap_append, ih, Nat.succ_mul, List.take_add]
    exact congrArg _ (List.append_nil _)

theorem length_sliceAt (items : List α) (size k : Nat) :
    (sliceAt items size k).length = min size (items.length - k * size) := by
  rw [sliceAt, List.length_take, List.length_drop]

/-- The items between the two places of a page are its slice. -/
theorem slice_start_finish (items : List α) (number size : Nat) :
    slice items (start number size) (finish number size items.length) =
      sliceAt items size (number - 1) := by
  unfold slice finish start sliceAt
  rw [List.take_eq_take_iff, List.length_drop]
  omega

/-! ## Pages -/

/-- **The page that is asked for**: its number is the nearest to the one asked for, and it
holds the slice at that number. -/
structure IsPage (items : List α) (size wanted : Nat) (page : Page α) : Prop where
  totalItems : page.totalItems = items.length
  totalPages : page.totalPages = count items.length size
  number : page.number =
    if wanted < 1 then 1
    else if max 1 page.totalPages < wanted then max 1 page.totalPages
    else wanted
  items : page.items = (items.drop ((page.number - 1) * size)).take size

/-- A page is shown exactly if its size is positive. -/
theorem of_eq_error_iff {items : List α} {fault : Fault} :
    Page.of items size wanted = .error fault ↔ size = 0 ∧ fault = .invalidPageSize := by
  unfold Page.of
  split
  · rename_i h
    exact ⟨fun he => ⟨h, (Except.error.inj he).symm⟩, fun ⟨_, he⟩ => congrArg _ he.symm⟩
  · rename_i h
    exact ⟨nofun, fun he => absurd he.1 h⟩

theorem exists_isPage (items : List α) (hsize : 0 < size) (wanted : Nat) :
    ∃ page, Page.of items size wanted = .ok page ∧ IsPage items size wanted page := by
  unfold Page.of
  rw [if_neg (Nat.ne_of_gt hsize)]
  exact ⟨_, rfl, rfl, rfl, nearest_eq _ wanted, slice_start_finish items _ size⟩

/-- The items of a page; there are none where no page is shown. -/
def itemsAt (items : List α) (size number : Nat) : List α :=
  match Page.of items size number with
  | .ok page => page.items
  | .error _ => []

/-- **A page is the slice at its number.** -/
theorem itemsAt_succ (items : List α) (hsize : 0 < size) {k : Nat}
    (hk : k < count items.length size) : itemsAt items size (k + 1) = sliceAt items size k := by
  obtain ⟨page, hpage, hshown⟩ := exists_isPage items hsize (k + 1)
  have hnumber := hshown.number
  rw [hshown.totalPages, if_neg (by omega), if_neg (by omega)] at hnumber
  rw [itemsAt, hpage]
  show page.items = _
  rw [hshown.items, hnumber]
  rfl

theorem flatMap_itemsAt (items : List α) (hsize : 0 < size) :
    (List.range' 1 (count items.length size)).flatMap (itemsAt items size) = items := by
  have hslices : (List.range' 1 (count items.length size)).flatMap (itemsAt items size) =
      (List.range (count items.length size)).flatMap (sliceAt items size) := by
    rw [List.range'_eq_map_range, List.flatMap_map, List.flatMap_def, List.flatMap_def]
    refine congrArg List.flatten (List.map_congr_left fun k hk => ?_)
    rw [Nat.add_comm]
    exact itemsAt_succ items hsize (List.mem_range.1 hk)
  rw [hslices, flatMap_slices, List.take_of_length_le (le_count_mul hsize items.length)]

/-- **The pages of a list tile it.** -/
structure Tiles (items : List α) (size : Nat) : Prop where
  /-- Each page that is asked for is shown, and computed in machine words. -/
  page : ∀ wanted, InWords items.length size wanted ∧
    ∃ page, Page.of items size wanted = .ok page ∧ IsPage items size wanted page
  /-- The pages one behind the other are the list. -/
  joined : (List.range' 1 (count items.length size)).flatMap (itemsAt items size) = items
  full : ∀ number, 1 ≤ number → number < count items.length size →
    (itemsAt items size number).length = size
  last : count items.length size ≠ 0 →
    1 ≤ (itemsAt items size (count items.length size)).length ∧
      (itemsAt items size (count items.length size)).length ≤ size
  no_pages : count items.length size = 0 ↔ items = []
  first_of_nil : items = [] → Page.of items size 1 = .ok ⟨[], 1, 0, 0⟩

theorem tiles (items : List α) (hitems : items.length < 2 ^ 63) (hsize : 0 < size)
    (hword : size < UInt64.size) : Tiles items size where
  page wanted := ⟨inWords hitems hsize hword wanted, exists_isPage items hsize wanted⟩
  joined := flatMap_itemsAt items hsize
  full := by
    intro number hone hlt
    obtain ⟨k, rfl⟩ := Nat.exists_eq_add_of_le' hone
    have hnext : (k + 1) * size < items.length := (lt_count_iff hsize).1 hlt
    rw [itemsAt_succ items hsize (by omega), length_sliceAt]
    rw [Nat.succ_mul] at hnext
    omega
  last := by
    intro hne
    obtain ⟨k, hk⟩ := Nat.exists_eq_succ_of_ne_zero hne
    have hlast : k * size < items.length := (lt_count_iff hsize).1 (by omega)
    rw [hk, itemsAt_succ items hsize (by omega), length_sliceAt]
    omega
  no_pages := by rw [count_eq_zero_iff hsize, List.length_eq_zero_iff]
  first_of_nil := by
    rintro rfl
    have hcount : count 0 size = 0 := (count_eq_zero_iff hsize).2 rfl
    have hslice : ∀ first last, slice ([] : List α) first last = [] :=
      fun first last => by rw [slice, List.drop_nil, List.take_nil]
    rw [Page.of, if_neg (Nat.ne_of_gt hsize)]
    show Except.ok (Page.mk (slice [] _ _) (nearest (count 0 size) 1) (count 0 size) 0) = _
    rw [hslice, hcount]
    rfl

/-- **Pages tile the list.**  The only size of pages that fails is zero, and with any other
one of a machine word the pages of a list of fewer than 2 to the power of 63 items tile
it. -/
theorem pages_tile (items : List α) (hitems : items.length < 2 ^ 63) :
    (∀ size wanted fault, Page.of items size wanted = .error fault ↔
        size = 0 ∧ fault = .invalidPageSize) ∧
      ∀ size, 1 ≤ size → size < UInt64.size → Tiles items size :=
  ⟨fun _ _ _ => of_eq_error_iff, fun _ hsize hword => tiles items hitems hsize hword⟩

/-- Seven items, in pages of three and in pages of the greatest size there is. -/
theorem pages_tile_seven :
    let items := [1, 2, 3, 4, 5, 6, 7]
    items.length < 2 ^ 63 ∧ Tiles items 3 ∧ Tiles items (UInt64.size - 1) ∧
      itemsAt items 3 1 = [1, 2, 3] ∧ itemsAt items 3 99 = [7] := by
  intro items
  have hitems : items.length < 2 ^ 63 := by decide
  obtain ⟨-, htiles⟩ := pages_tile items hitems
  exact ⟨hitems, htiles 3 (by decide) (by decide), htiles _ (by decide) (by decide),
    by decide +kernel, by decide +kernel⟩

end NoteVault.Query.Page
