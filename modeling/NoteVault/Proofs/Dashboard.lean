import NoteVault.Dashboard
import NoteVault.Proofs.Collation.Preorder
import NoteVault.Proofs.Index.Records
import NoteVault.Proofs.Query.Complement
import NoteVault.Proofs.Snapshot.Builder
import NoteVault.Proofs.Tag.Recency
import NoteVault.Query.State

/-!
# The overview agrees with queries

The overview sorts and cuts lists of its own, while a query filters all files that
show, sorts what is left and shows a page.  The two agree (`Dashboard.Agrees`), since
the first order of a query is the order of the overview (`sort_latestFirst`), its
first page is the beginning of its results (`exists_first_page`), and the files of a
category may be chosen before they are sorted or afterwards.

The overview counts the bookmarks that lead to files, and a query the files that are
bookmarked.  These numbers are the same where no path stands for two files, for a
snapshot holds each bookmark once (`VaultIndex.length_records_classify`).
-/

namespace NoteVault

open Query

/-! ## The first page of a query -/

namespace Query

/-- The first page is the beginning of the list. -/
theorem exists_first_page {α : Type} (items : List α) {size : Nat} (h : 1 ≤ size) :
    ∃ page, Page.of items size 1 = .ok page ∧ page.items = items.take size := by
  have hsize : size ≠ 0 := Nat.one_le_iff_ne_zero.1 h
  have hnumber : Page.nearest (Page.count items.length size) 1 = 1 := by
    unfold Page.nearest
    omega
  refine ⟨_, if_neg hsize, ?_⟩
  simp only [hnumber, Page.slice, Page.start, Page.finish, Nat.sub_self, Nat.zero_mul,
    List.drop_zero, Nat.zero_add, Nat.sub_zero]
  rw [← List.take_take, List.take_length]

/-- The first order of a query shows the latest files first. -/
theorem sort_latestFirst [Collator] (links : LinkGraph) (files : List FileRecord) :
    SortState.latestFirst.sort links files = Tag.recentFirst files := by
  rw [Tag.recentFirst_eq_mergeSort]
  rfl

/-- **What a query of a single term shows first**: the files that the term lets pass,
the latest of them on the first page. -/
theorem execute_of_parse [Collator] {raw : String} {term : Term} (h : parse raw = [term])
    (inputs : Inputs) {size : Nat} (hsize : 1 ≤ size) :
    ∃ result, execute (.ofText raw) inputs size = .ok result ∧
      result.files.length =
        (inputs.index.filteredFiles.filter (term.admits inputs.ctx)).length ∧
      result.page.items = Dashboard.mostRecent
        (inputs.index.filteredFiles.filter (term.admits inputs.ctx)) size := by
  have hfiles : (results (.ofText raw) inputs).files =
      Tag.recentFirst (inputs.index.filteredFiles.filter (term.admits inputs.ctx)) := by
    rw [← files_evaluate_singleton, ← h]
    exact sort_latestFirst _ _
  obtain ⟨page, hpage, hitems⟩ := exists_first_page (results (.ofText raw) inputs).files hsize
  have hexecute : execute (.ofText raw) inputs size =
      .ok ⟨(results (.ofText raw) inputs).files, (results (.ofText raw) inputs).label, page⟩ := by
    rw [execute, show (State.ofText raw).page = 1 from rfl, hpage]
  refine ⟨_, hexecute, ?_, ?_⟩
  · exact (congrArg List.length hfiles).trans (Tag.recentFirst_perm _).length_eq
  · rw [hitems, hfiles]
    rfl

end Query

/-! ## Lists of the overview -/

namespace Dashboard

/-- The number behind a name. -/
def count? (overview : Dashboard) (name : String) : Option Nat := overview.counts.lookup name

/-- The files under a title. -/
def section? (overview : Dashboard) (title : String) : Option (List FileRecord) :=
  overview.sections.lookup title

variable (index : VaultIndex) (bookmarks lastOpened : List String) (limit : Nat)

theorem section?_recentFiles :
    (ofIndex index bookmarks lastOpened limit).section? "Recent files" =
      some (mostRecent index.filteredFiles limit) := rfl

theorem section?_category (c : FileCategory) :
    (ofIndex index bookmarks lastOpened limit).section? (title c) =
      some (mostRecent (index.filesIn c) limit) := by
  cases c <;> rfl

theorem count?_files :
    (ofIndex index bookmarks lastOpened limit).count? "files" =
      some index.filteredFiles.length := rfl

theorem count?_category (c : FileCategory) :
    (ofIndex index bookmarks lastOpened limit).count? c.name =
      some (index.filesIn c).length := by
  cases c <;> rfl

theorem count?_bookmarks :
    (ofIndex index bookmarks lastOpened limit).count? "bookmarks" =
      some (index.records bookmarks).length := rfl

/-- The files of a category among the latest files are the first ones of the latest
files of that category. -/
theorem filter_mostRecent_prefix (p : FileRecord → Bool) (files : List FileRecord) :
    (mostRecent files limit).filter p <+: mostRecent (files.filter p) limit := by
  rw [mostRecent, mostRecent, ← Tag.filter_recentFirst, List.prefix_take_iff]
  refine ⟨(List.take_prefix limit (Tag.recentFirst files)).filter p, ?_⟩
  exact Nat.le_trans (List.length_filter_le _ _) (List.length_take_le _ _)

end Dashboard

/-! ## Counts -/

/-- The sum of a number for each category. -/
def FileCategory.total (number : FileCategory → Nat) : Nat :=
  (all.map number).foldr (· + ·) 0

/-- Each file is in one category. -/
theorem total_length_filter_category (files : List FileRecord) :
    FileCategory.total (fun c => (files.filter (·.category = c)).length) = files.length := by
  induction files with
  | nil => rfl
  | cons file files ih =>
    rw [List.length_cons, ← ih]
    cases hc : file.category <;> simp [FileCategory.total, FileCategory.all, hc] <;> omega

/-! ## The overview and the queries -/

/-- **An overview agrees with queries** in their first order, shown in pages of a
given size. -/
structure Dashboard.Agrees [Collator] (overview : Dashboard) (inputs : Inputs) (limit : Nat) :
    Prop where
  /-- Each category can be asked for by its name. -/
  parse_category : ∀ c : FileCategory, parse ("@" ++ c.name) = [.type (.category c)]
  parse_bookmarks : parse "@bookmarks" = [.type .bookmarks]
  /-- A query for a category gives the latest files of that category on its first page,
  and has as many results as the overview counts. -/
  category : ∀ (c : FileCategory) (raw : String), parse raw = [.type (.category c)] →
    ∃ result, execute (.ofText raw) inputs limit = .ok result ∧
      overview.section? (title c) = some result.page.items ∧
      overview.count? c.name = some result.files.length
  /-- The empty query gives the latest files on its first page. -/
  recentFiles : ∃ result, execute (.ofText "") inputs limit = .ok result ∧
    overview.section? "Recent files" = some result.page.items
  /-- Among the latest files, those of a category are the first ones of the latest files
  of that category. -/
  category_prefix : ∀ c : FileCategory, ∃ recent files,
    overview.section? "Recent files" = some recent ∧ overview.section? (title c) = some files ∧
      recent.filter (·.category = c) <+: files
  /-- The categories share out the files. -/
  files_eq_total : overview.count? "files" =
    some (FileCategory.total fun c => (overview.count? c.name).getD 0)
  /-- A query for bookmarks has as many results as the overview counts. -/
  bookmarks : ∀ raw : String, parse raw = [.type .bookmarks] →
    ∃ result, execute (.ofText raw) inputs limit = .ok result ∧
      overview.count? "bookmarks" = some result.files.length

/-- **The overview of a snapshot agrees with queries of it**, whatever is hidden, as
long as no path stands for two files. -/
theorem overview_agrees [Collator] (steps : List BuildStep) (rules : Exclusion)
    (today : Calendar.Day) (format : Calendar.DateFormat) {limit : Nat} (hlimit : 1 ≤ limit)
    (hpaths : (Snapshot.ofSteps steps).DistinctPaths) :
    let s := Snapshot.ofSteps steps
    let index := VaultIndex.classify s rules
    (Dashboard.ofIndex index s.bookmarks s.lastOpened limit).Agrees
      ⟨index, s.links, ⟨today, format, s.bookmarks⟩⟩ limit := by
  intro s index
  have hshown : index.filteredFiles = s.shown rules := VaultIndex.classify_filteredFiles s rules
  have hfilesIn : ∀ c, index.filesIn c = index.filteredFiles.filter (·.category = c) := by
    intro c
    rw [hshown]
    exact VaultIndex.classify_filesIn s rules c
  constructor
  · intro c
    cases c <;> decide +kernel
  · decide +kernel
  · intro c raw hraw
    obtain ⟨result, hresult, hlength, hitems⟩ :=
      execute_of_parse hraw ⟨index, s.links, ⟨today, format, s.bookmarks⟩⟩ hlimit
    refine ⟨result, hresult, ?_, ?_⟩
    · rw [Dashboard.section?_category, hitems, hfilesIn]
      rfl
    · rw [Dashboard.count?_category, hlength, hfilesIn]
      rfl
  · have hempty : parse "" = [.all] := by decide +kernel
    obtain ⟨result, hresult, -, hitems⟩ :=
      execute_of_parse hempty ⟨index, s.links, ⟨today, format, s.bookmarks⟩⟩ hlimit
    refine ⟨result, hresult, ?_⟩
    rw [Dashboard.section?_recentFiles, hitems]
    exact congrArg _ (congrArg (Dashboard.mostRecent · limit)
      (List.filter_eq_self.2 fun file _ => rfl).symm)
  · intro c
    refine ⟨_, _, Dashboard.section?_recentFiles _ _ _ _, Dashboard.section?_category _ _ _ _ c, ?_⟩
    rw [hfilesIn]
    exact Dashboard.filter_mostRecent_prefix limit _ _
  · rw [Dashboard.count?_files, ← total_length_filter_category]
    simp only [Dashboard.count?_category, Option.getD_some, hfilesIn]
  · intro raw hraw
    obtain ⟨result, hresult, hlength, -⟩ :=
      execute_of_parse hraw ⟨index, s.links, ⟨today, format, s.bookmarks⟩⟩ hlimit
    refine ⟨result, hresult, ?_⟩
    rw [Dashboard.count?_bookmarks, hlength, hshown,
      VaultIndex.length_records_classify hpaths (Snapshot.nodup_bookmarks_ofSteps steps)]
    rfl

attribute [local instance] Collation.inLowercase

/-- In a vault with two notes and a picture, one note of which is bookmarked twice, the
overview and a query count one bookmark, although a bookmark of a missing file comes
first. -/
theorem overview_agrees_two_notes :
    let steps : List BuildStep :=
      [.file "b.md" ⟨0, none, some 5⟩, .file "p.png" ⟨0, none, some 7⟩,
        .file "a.md" ⟨0, none, some 6⟩, .bookmark "gone.md", .bookmark "a.md", .bookmark "a.md"]
    let s := Snapshot.ofSteps steps
    let index := VaultIndex.classify s .none
    let inputs : Inputs := ⟨index, s.links, ⟨Calendar.DayRange.epoch, .ofText "YYYY", s.bookmarks⟩⟩
    1 ≤ 1 ∧ s.DistinctPaths ∧
      (Dashboard.ofIndex index s.bookmarks s.lastOpened 1).Agrees inputs 1 ∧
      ∃ result, execute (.ofText "@bookmarks") inputs 1 = .ok result ∧ result.files.length = 1 := by
  intro steps s index inputs
  have hpaths : s.DistinctPaths := by
    unfold Snapshot.DistinctPaths
    decide +kernel
  have hagrees := overview_agrees steps .none Calendar.DayRange.epoch (.ofText "YYYY")
    (Nat.le_refl 1) hpaths
  obtain ⟨result, hresult, hcount⟩ := hagrees.bookmarks "@bookmarks" hagrees.parse_bookmarks
  have hone : (Dashboard.ofIndex index s.bookmarks s.lastOpened 1).count? "bookmarks" =
      some 1 := by
    decide +kernel
  refine ⟨Nat.le_refl 1, hpaths, hagrees, result, hresult, ?_⟩
  exact Option.some.inj (hcount.symm.trans hone)

end NoteVault
