import NoteVault.Unicode.Segments

/-!
# Bisection finds the segment of a code point

A bisection ends between a start that is at most the code point and one that is
greater (`startsUpTo_between`); nothing is assumed of the order of the starts.  So a
code point has a kind only if a segment of that kind holds it, and one pass over a
table shows that the segments of a kind hold none of some points (`segmentsMiss`).
-/

namespace NoteVault.Unicode

/-- A place among some starts is right for a code point: the start before it is at
most the code point, and the start there is greater. -/
structure Between (starts : Array Nat) (point place : Nat) : Prop where
  le_size : place ≤ starts.size
  before : ∀ i, place = i + 1 → starts.getD i 0 ≤ point
  behind : place < starts.size → point < starts.getD place 0

theorem between_bisect {starts : Array Nat} {point lo hi : Nat} (hle : lo ≤ hi)
    (hsize : hi ≤ starts.size) (hlo : ∀ i, lo = i + 1 → starts.getD i 0 ≤ point)
    (hhi : hi < starts.size → point < starts.getD hi 0) :
    Between starts point (bisect starts point lo hi) := by
  fun_induction bisect starts point lo hi with
  | case1 lo hi hlt mid hmid ih =>
    refine ih (by omega) hsize (fun i hi => ?_) hhi
    obtain rfl : mid = i := Nat.succ.inj hi
    exact hmid
  | case2 lo hi hlt mid hmid ih => exact ih (by omega) (by omega) hlo fun _ => Nat.lt_of_not_le hmid
  | case3 lo hi hge =>
    obtain rfl : lo = hi := by omega
    exact ⟨hsize, hlo, hhi⟩

/-- **Bisection finds the place of a code point.** -/
theorem startsUpTo_between (starts : Array Nat) (point : Nat) :
    Between starts point (startsUpTo starts point) :=
  between_bisect (Nat.zero_le _) (Nat.le_refl _) nofun fun h => absurd h (Nat.lt_irrefl _)

/-- Whether the segments with a label of some kind hold none of some points. -/
def segmentsMiss {α : Type} (kind : α → Bool) (points : List Nat) : List Nat → List α → Bool
  | start :: next :: starts, label :: labels =>
    (!kind label || points.all fun point => point.blt start || next.ble point) &&
      segmentsMiss kind points (next :: starts) labels
  | [start], label :: _ => !kind label || points.all (·.blt start)
  | _, _ => true

/-- What the pass over a table says about one of its segments. -/
theorem not_kind_of_segmentsMiss {α : Type} {kind : α → Bool} {points starts : List Nat}
    {labels : List α} (h : segmentsMiss kind points starts labels = true) {i start point : Nat}
    {label : α} (hpoint : point ∈ points) (hstart : starts[i]? = some start)
    (hlabel : labels[i]? = some label) (hbefore : start ≤ point)
    (hbehind : ∀ next, starts[i + 1]? = some next → point < next) : kind label = false := by
  induction starts, labels using segmentsMiss.induct generalizing i with
  | case1 first next starts label' labels ih =>
    obtain ⟨hfirst, hrest⟩ := Bool.and_eq_true_iff.1 h
    cases i with
    | zero =>
      obtain rfl := Option.some.inj hstart
      obtain rfl := Option.some.inj hlabel
      have hnext : point < next := hbehind next rfl
      rcases Bool.or_eq_true_iff.1 hfirst with hkind | hall
      · simpa using hkind
      · have hout := List.all_eq_true.1 hall point hpoint
        simp only [Bool.or_eq_true, Nat.blt_eq, Nat.ble_eq] at hout
        omega
    | succ i => exact ih hrest hstart hlabel hbehind
  | case2 first label' labels =>
    cases i with
    | zero =>
      obtain rfl := Option.some.inj hstart
      obtain rfl := Option.some.inj hlabel
      rcases Bool.or_eq_true_iff.1 h with hkind | hall
      · simpa using hkind
      · have hout := List.all_eq_true.1 hall point hpoint
        rw [Nat.blt_eq] at hout
        omega
    | succ i => cases hstart
  | case3 starts labels hmany hone =>
    cases starts with
    | nil => cases hstart
    | cons first starts =>
      cases labels with
      | nil => cases hlabel
      | cons label' labels =>
        cases starts with
        | nil => exact absurd rfl (hone first label' labels rfl)
        | cons next starts => exact absurd rfl (hmany first next starts label' labels rfl)

/-- The segment that bisection finds is of no kind whose segments all miss the
point. -/
theorem Between.not_kind {starts : Array Nat} {point i : Nat}
    (hbetween : Between starts point (i + 1)) {α : Type} {kind : α → Bool} {points : List Nat}
    {labels : List α} (h : segmentsMiss kind points starts.toList labels = true)
    (hpoint : point ∈ points) {label : α} (hlabel : labels[i]? = some label) :
    kind label = false := by
  have hi : i < starts.size := hbetween.le_size
  have hstart : starts.toList[i]? = some (starts.getD i 0) := by
    rw [Array.getElem?_toList, Array.getD_eq_getD_getElem?, Array.getElem?_eq_getElem hi]
    rfl
  refine not_kind_of_segmentsMiss h hpoint hstart hlabel (hbetween.before i rfl) ?_
  intro next hnext
  rw [Array.getElem?_toList] at hnext
  obtain ⟨hsize, -⟩ := Array.getElem?_eq_some_iff.1 hnext
  have hbehind := hbetween.behind hsize
  rwa [Array.getD_eq_getD_getElem?, hnext] at hbehind

/-- **A label of some kind is read off no point that the segments of the kind
miss.** -/
theorem SegmentMap.label_not_kind {map : SegmentMap} {kind : Char → Bool} {points : List Nat}
    (hnone : kind '?' = false)
    (h : segmentsMiss kind points map.starts.toList map.labels.toList = true) {point : Nat}
    (hpoint : point ∈ points) : kind (map.label point) = false := by
  have hbetween := startsUpTo_between map.starts point
  unfold label
  cases hplace : startsUpTo map.starts point with
  | zero => exact hnone
  | succ i =>
    rw [hplace] at hbetween
    show kind (map.labels.getD i '?') = false
    rw [Array.getD_eq_getD_getElem?]
    cases hlabel : map.labels[i]? with
    | none => exact hnone
    | some label =>
      rw [← Array.getElem?_toList] at hlabel
      exact hbetween.not_kind h hpoint hlabel

/-- The segments of a set and those between them, in turn. -/
def FlipSet.labels (set : FlipSet) : List Bool :=
  (List.range set.flips.size).map fun i => i % 2 == 0

/-- **A set holds no point that its segments miss.** -/
theorem FlipSet.not_contains {set : FlipSet} {points : List Nat}
    (h : segmentsMiss id points set.flips.toList set.labels = true) {point : Nat}
    (hpoint : point ∈ points) : set.contains point = false := by
  have hbetween := startsUpTo_between set.flips point
  unfold contains
  cases hplace : startsUpTo set.flips point with
  | zero => rfl
  | succ i =>
    rw [hplace] at hbetween
    have hlabel : set.labels[i]? = some (i % 2 == 0) := by
      rw [labels, List.getElem?_map, List.getElem?_range hbetween.le_size]
      rfl
    have hodd := hbetween.not_kind h hpoint hlabel
    simp only [id_eq, beq_eq_false_iff_ne] at hodd
    rw [beq_eq_false_iff_ne]
    omega

end NoteVault.Unicode
