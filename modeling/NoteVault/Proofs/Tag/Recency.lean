import NoteVault.Proofs.StableSort
import NoteVault.Proofs.Tag.Search

/-!
# The latest files first

Lists of files are shown from the latest to the earliest, and files of one time
keep their order.  `LatestFirst` says so without a way to sort, and `recentFirst`
arranges every list in this way (`latestFirst_recentFirst`).  Since ties keep their
order, choosing some of the files before the sort or after it is the same
(`filter_recentFirst`).
-/

namespace NoteVault.Tag

/-- Compares files by their times, the later one first. -/
def compareRecent (a b : FileRecord) : Ordering := compare b.modifiedOrEpoch a.modifiedOrEpoch

instance : Std.TransCmp compareRecent :=
  have hlater := transCmp_comap (compare (α := Int)) FileRecord.modifiedOrEpoch
  { eq_swap := hlater.eq_swap
    isLE_trans := fun h h' => hlater.isLE_trans h' h }

theorem isLE_compareRecent (a b : FileRecord) :
    (compareRecent a b).isLE = decide (b.modifiedOrEpoch ≤ a.modifiedOrEpoch) := by
  rw [compareRecent, Bool.eq_iff_iff, decide_eq_true_iff, Int.isLE_compare]

theorem recentFirst_eq_mergeSort (files : List FileRecord) :
    recentFirst files = files.mergeSort fun a b => (compareRecent a b).isLE := by
  simp only [recentFirst, isLE_compareRecent]

theorem recentFirst_eq_nil_iff {files : List FileRecord} : recentFirst files = [] ↔ files = [] := by
  rw [← List.length_eq_zero_iff, (recentFirst_perm files).length_eq, List.length_eq_zero_iff]

/-- A list shows some files from the latest to the earliest, and files of one time
in the order in which they are given. -/
structure LatestFirst (files shown : List FileRecord) : Prop where
  perm : shown.Perm files
  ordered : shown.Pairwise fun a b => b.modifiedOrEpoch ≤ a.modifiedOrEpoch
  ties : ∀ time, shown.filter (·.modifiedOrEpoch = time) = files.filter (·.modifiedOrEpoch = time)

/-- **Files are shown from the latest to the earliest.** -/
theorem latestFirst_recentFirst (files : List FileRecord) :
    LatestFirst files (recentFirst files) where
  perm := recentFirst_perm files
  ordered := by
    rw [recentFirst_eq_mergeSort]
    refine (StableSort.pairwise_mergeSort compareRecent files).imp fun h => ?_
    rw [isLE_compareRecent] at h
    exact of_decide_eq_true h
  ties := by
    intro time
    rw [recentFirst_eq_mergeSort]
    refine StableSort.filter_mergeSort_of_ties (fun a b ha hb => ?_) files
    rw [compareRecent, of_decide_eq_true ha, of_decide_eq_true hb]
    exact Std.ReflCmp.compare_self

/-- **Choosing files and showing the latest first commute.** -/
theorem filter_recentFirst (p : FileRecord → Bool) (files : List FileRecord) :
    (recentFirst files).filter p = recentFirst (files.filter p) := by
  rw [recentFirst_eq_mergeSort, recentFirst_eq_mergeSort, StableSort.filter_mergeSort]

end NoteVault.Tag
