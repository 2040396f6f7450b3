import NoteVault.Bookmarks

/-!
# Bookmarks in groups

Bookmarks are collected with a stack, and the items of a group go on top of it.  What is
still to be found is then, at every turn of the loop, what a walk through the bookmarks
on the stack meets (`collect_eq_foldl`).  So the loop finds the paths that a walk through
the tree meets, depth first and from left to right, each at its first place
(`collect_eq_walk`).
-/

namespace NoteVault.Bookmark

mutual

/-- The paths that a walk through a bookmark meets: that of a file, if it has one, and
those of the items of a group. -/
def walk : Bookmark → List String
  | .mk kind path items =>
    if kind = "file" then path.toList
    else if kind = "group" then walkAll items
    else []

/-- The paths that a walk through bookmarks meets, from left to right. -/
def walkAll : List Bookmark → List String
  | [] => []
  | b :: bs => b.walk ++ walkAll bs

end

/-- A path is carried by a file among the items, or among those of a group among them,
however deep. -/
inductive Carries : List Bookmark → String → Prop
  | file {items children : List Bookmark} {path : String}
      (mem : .mk "file" (some path) children ∈ items) : Carries items path
  | group {items children : List Bookmark} {ownPath : Option String} {path : String}
      (mem : .mk "group" ownPath children ∈ items) (inside : Carries children path) :
      Carries items path

theorem walkAll_append (as bs : List Bookmark) : walkAll (as ++ bs) = walkAll as ++ walkAll bs := by
  induction as with
  | nil => rfl
  | cons a as ih => rw [List.cons_append, walkAll, walkAll, ih, List.append_assoc]

/-- A bookmark that is neither a file with a path nor a group is passed over. -/
theorem walk_eq_nil {kind : String} {path : Option String} {items : List Bookmark}
    (hfile : ∀ p, kind = "file" → path = some p → False) (hgroup : kind = "group" → False) :
    (mk kind path items).walk = [] := by
  rw [walk, if_neg hgroup]
  by_cases hkind : kind = "file"
  · rw [if_pos hkind]
    cases path with
    | none => rfl
    | some p => exact (hfile p hkind rfl).elim
  · rw [if_neg hkind]

/-- **What is still to be found** at any turn is what a walk through the stack meets. -/
theorem collect_eq_foldl (stack : List Bookmark) (found : List String) :
    collect stack found = (walkAll stack).foldl addNew found := by
  fun_induction collect stack found with
  | case1 found => rfl
  | case2 found items rest path ih =>
    rw [ih]
    rfl
  | case3 found path items rest ih =>
    rw [ih, walkAll_append]
    rfl
  | case4 found kind path items rest hgroup hfile ih =>
    rw [ih, walkAll, walk_eq_nil hfile hgroup, List.nil_append]

/-! ## What a walk meets -/

theorem Carries.mono {items more : List Bookmark} {path : String} (h : Carries items path)
    (hsub : items ⊆ more) : Carries more path := by
  cases h with
  | file mem => exact .file (hsub mem)
  | group mem inside => exact .group (hsub mem) inside

mutual

theorem carries_of_mem_walk {path : String} : ∀ {b : Bookmark}, path ∈ b.walk → Carries [b] path
  | .mk kind ownPath items, h => by
    rw [walk] at h
    by_cases hfile : kind = "file"
    · rw [if_pos hfile] at h
      obtain rfl := Option.mem_toList.1 h
      exact .file (by rw [hfile]; exact List.mem_cons_self)
    · rw [if_neg hfile] at h
      by_cases hgroup : kind = "group"
      · rw [if_pos hgroup] at h
        exact .group (by rw [hgroup]; exact List.mem_cons_self) (carries_of_mem_walkAll h)
      · rw [if_neg hgroup] at h
        cases h

theorem carries_of_mem_walkAll {path : String} :
    ∀ {items : List Bookmark}, path ∈ walkAll items → Carries items path
  | b :: bs, h => by
    rw [walkAll] at h
    rcases List.mem_append.1 h with h | h
    · exact (carries_of_mem_walk h).mono (List.cons_subset_cons b (List.nil_subset bs))
    · exact (carries_of_mem_walkAll h).mono (List.subset_cons_self b bs)

end

theorem walk_subset_walkAll {b : Bookmark} {items : List Bookmark} (h : b ∈ items) :
    b.walk ⊆ walkAll items := by
  obtain ⟨before, behind, rfl⟩ := List.append_of_mem h
  rw [walkAll_append, walkAll]
  exact fun path hpath => List.mem_append_right _ (List.mem_append_left _ hpath)

/-- **A walk meets the paths** of the files that lie in groups only. -/
theorem mem_walkAll_iff {items : List Bookmark} {path : String} :
    path ∈ walkAll items ↔ Carries items path := by
  refine ⟨carries_of_mem_walkAll, fun h => ?_⟩
  induction h with
  | file mem => exact walk_subset_walkAll mem (List.mem_singleton.2 rfl)
  | group mem inside ih => exact walk_subset_walkAll mem ih

/-- **Bookmarks are collected as a walk meets them**, depth first, each path at its first
place.  No path is found twice, and those found are the paths of the files that lie in
groups only. -/
theorem collect_eq_walk (items : List Bookmark) :
    collect items [] = (walkAll items).eraseDups ∧ (collect items []).Nodup ∧
    (∀ path, path ∈ collect items [] ↔ Carries items path) ∧
    ∀ text, bookmarksOf? text = some items →
      bookmarkedPaths text = (walkAll items).eraseDups := by
  have hcollect : collect items [] = firstOccurrences (walkAll items) := collect_eq_foldl items []
  have herase : firstOccurrences (walkAll items) = (walkAll items).eraseDups :=
    firstOccurrences_eq_eraseDups _
  refine ⟨hcollect.trans herase, ?_, fun path => ?_, fun text htext => ?_⟩
  · rw [hcollect]
    exact nodup_firstOccurrences _
  · rw [hcollect, mem_firstOccurrences, mem_walkAll_iff]
  · rw [bookmarkedPaths, htext]
    exact hcollect.trans herase

end NoteVault.Bookmark
