import NoteVault.Proofs.Collation.Preorder
import NoteVault.Query.Navigator

/-!
# A session agrees with running its query

A session keeps the results of its last search.  Sorting rearranges them in place
and paging leaves them alone, while what is asked for changes beside them.  The
invariant that ties the two together is `Matches`: the results are those of the
query, in some order, and show its label.  A search brings it about whatever was
before, and no request breaks it.  As long as nothing has been sorted since, the
results are also in the order in which running the query puts them (`Settled`).

The size of the pages goes into the pages only: sessions that differ in it move
through the same states and results (`next_withPageSize`).
-/

namespace NoteVault.Query.Navigator

/-! ## Runs -/

/-- What is asked of a session. -/
inductive Request where
  | search (raw : String)
  | sortBy (column : SortColumn)
  | goToPage (page : Nat)
  deriving DecidableEq

section Collated

variable [Collator]

/-- The session after a request, over one vault. -/
def next (inputs : Inputs) (nav : Navigator) : Request → Navigator
  | .search raw => nav.search raw inputs
  | .sortBy column => nav.sortBy column inputs.links
  | .goToPage page => nav.goToPage page

/-- The session after several requests. -/
def run (inputs : Inputs) (nav : Navigator) (requests : List Request) : Navigator :=
  requests.foldl (next inputs) nav

/-- What a session shows after a request: what is asked for, all results with their
label, and the page, or why there is none. -/
structure Reply where
  state : State
  outcome : Outcome
  page : Except Fault (Page FileRecord)

/-- What a session shows. -/
def reply (nav : Navigator) : Reply := ⟨nav.state, nav.outcome, nav.currentPage⟩

/-- The replies to several requests, in order. -/
def replies (inputs : Inputs) : Navigator → List Request → List Reply
  | _, [] => []
  | nav, r :: rs => (nav.next inputs r).reply :: replies inputs (nav.next inputs r) rs

theorem run_append (inputs : Inputs) (nav : Navigator) (before later : List Request) :
    nav.run inputs (before ++ later) = (nav.run inputs before).run inputs later :=
  List.foldl_append

/-- What each request of a run keeps, the run keeps. -/
theorem run_induction {inputs : Inputs} {P : Navigator → Prop} {requests : List Request}
    (hnext : ∀ nav, P nav → ∀ r ∈ requests, P (nav.next inputs r)) {nav : Navigator}
    (h : P nav) : P (nav.run inputs requests) :=
  List.foldlRecOn requests (next inputs) h hnext

/-- The reply to a request shows the session after the requests up to this one. -/
theorem getElem?_replies (inputs : Inputs) (nav : Navigator) {requests : List Request} {i : Nat}
    (h : i < requests.length) :
    (replies inputs nav requests)[i]? = some (nav.run inputs (requests.take (i + 1))).reply := by
  induction requests generalizing nav i with
  | nil => exact absurd h (Nat.not_lt_zero i)
  | cons r requests ih =>
    cases i with
    | zero => rfl
    | succ i => exact ih (nav.next inputs r) (Nat.lt_of_succ_lt_succ h)

theorem mem_replies {inputs : Inputs} {nav : Navigator} {requests : List Request} {r : Reply}
    (h : r ∈ replies inputs nav requests) : ∃ before, r = (nav.run inputs before).reply := by
  induction requests generalizing nav with
  | nil => cases h
  | cons first requests ih =>
    rcases List.mem_cons.1 h with rfl | h
    · exact ⟨[first], rfl⟩
    · obtain ⟨before, hbefore⟩ := ih h
      exact ⟨first :: before, hbefore⟩

/-! ## The size of the pages -/

/-- The session with pages of another size. -/
def withPageSize (nav : Navigator) (size : Nat) : Navigator := { nav with pageSize := size }

theorem next_withPageSize (inputs : Inputs) (nav : Navigator) (size : Nat) (r : Request) :
    (nav.withPageSize size).next inputs r = (nav.next inputs r).withPageSize size := by
  cases r <;> rfl

/-- **The size of the pages moves neither states nor results.** -/
theorem replies_withPageSize (inputs : Inputs) (nav : Navigator) (size : Nat)
    (requests : List Request) :
    (replies inputs (nav.withPageSize size) requests).map (fun r => (r.state, r.outcome)) =
      (replies inputs nav requests).map fun r => (r.state, r.outcome) := by
  induction requests generalizing nav with
  | nil => rfl
  | cons r requests ih =>
    rw [replies, replies, List.map_cons, List.map_cons, next_withPageSize, ih]
    rfl

theorem pageSize_run (inputs : Inputs) (nav : Navigator) (requests : List Request) :
    (nav.run inputs requests).pageSize = nav.pageSize := by
  refine run_induction (P := fun later => later.pageSize = nav.pageSize) (fun later h r _ => ?_) rfl
  cases r <;> exact h

/-! ## The query of a session -/

/-- The terms of a session are those of its text. -/
theorem terms_next {nav : Navigator} (h : nav.state.terms = parse nav.state.raw)
    (inputs : Inputs) (r : Request) :
    (nav.next inputs r).state.terms = parse (nav.next inputs r).state.raw := by
  cases r with
  | search raw => rfl
  | sortBy column => exact h
  | goToPage page => exact h

theorem terms_run {nav : Navigator} (h : nav.state.terms = parse nav.state.raw)
    (inputs : Inputs) (requests : List Request) :
    (nav.run inputs requests).state.terms = parse (nav.run inputs requests).state.raw :=
  run_induction (P := fun nav => nav.state.terms = parse nav.state.raw)
    (fun _ h r _ => terms_next h inputs r) h

/-! ## The results of a session -/

/-- **The results of a session are those of its query**, in some order, with its
label. -/
structure Matches (inputs : Inputs) (nav : Navigator) : Prop where
  files : nav.outcome.files.Perm
    (evaluate inputs.ctx nav.state.terms inputs.index.filteredFiles).files
  label : nav.outcome.label =
    (evaluate inputs.ctx nav.state.terms inputs.index.filteredFiles).label

/-- **The results of a session are in the order of its query.** -/
def Settled (inputs : Inputs) (nav : Navigator) : Prop :=
  nav.outcome = results nav.state inputs

theorem sort_perm (sort : SortState) (links : LinkGraph) (files : List FileRecord) :
    (sort.sort links files).Perm files :=
  List.mergeSort_perm files _

theorem settled_search (inputs : Inputs) (nav : Navigator) (raw : String) :
    Settled inputs (nav.search raw inputs) := rfl

theorem Settled.matches {inputs : Inputs} {nav : Navigator} (h : Settled inputs nav) :
    Matches inputs nav := by
  constructor
  · rw [h]
    exact sort_perm _ _ _
  · rw [h]
    rfl

/-- No request breaks the match of results and query. -/
theorem Matches.next {inputs : Inputs} {nav : Navigator} (h : Matches inputs nav) (r : Request) :
    Matches inputs (nav.next inputs r) := by
  cases r with
  | search raw => exact (settled_search inputs nav raw).matches
  | sortBy column => exact ⟨(sort_perm _ _ _).trans h.files, h.label⟩
  | goToPage page => exact ⟨h.files, h.label⟩

theorem Matches.run {inputs : Inputs} {nav : Navigator} (h : Matches inputs nav)
    (requests : List Request) : Matches inputs (nav.run inputs requests) :=
  run_induction (fun _ h r _ => h.next r) h

/-- Only sorting moves the results away from the order of the query. -/
theorem Settled.next {inputs : Inputs} {nav : Navigator} (h : Settled inputs nav) {r : Request}
    (hr : ∀ column, r ≠ .sortBy column) : Settled inputs (nav.next inputs r) := by
  cases r with
  | search raw => exact settled_search inputs nav raw
  | sortBy column => exact absurd rfl (hr column)
  | goToPage page => exact h

theorem Settled.run {inputs : Inputs} {nav : Navigator} (h : Settled inputs nav)
    {requests : List Request} (hsort : ∀ column, .sortBy column ∉ requests) :
    Settled inputs (nav.run inputs requests) := by
  refine run_induction (fun nav h r hr => h.next fun column hcolumn => ?_) h
  rw [hcolumn] at hr
  exact hsort column hr

/-- Where the results are in the order of the query, the page that is shown is the
one that running the query gives. -/
theorem Settled.execute_eq {inputs : Inputs} {nav : Navigator} (h : Settled inputs nav) :
    execute nav.state inputs nav.pageSize =
      nav.currentPage.map fun page => ⟨nav.outcome.files, nav.outcome.label, page⟩ := by
  rw [execute, ← h, currentPage]
  cases Page.of nav.outcome.files nav.pageSize nav.state.page <;> rfl

/-! ## Every reply of a run -/

/-- Some request is a search. -/
def Searched (requests : List Request) : Prop := ∃ raw, .search raw ∈ requests

/-- There is a search that no sorting comes after. -/
def UnsortedSinceSearch (requests : List Request) : Prop :=
  ∃ before raw later, requests = before ++ .search raw :: later ∧
    ∀ column, .sortBy column ∉ later

theorem matches_run_of_searched (inputs : Inputs) (nav : Navigator) {requests : List Request}
    (h : Searched requests) : Matches inputs (nav.run inputs requests) := by
  obtain ⟨raw, hraw⟩ := h
  obtain ⟨before, later, rfl⟩ := List.append_of_mem hraw
  rw [run_append]
  exact (settled_search inputs _ raw).matches.run later

theorem settled_run_of_unsorted (inputs : Inputs) (nav : Navigator) {requests : List Request}
    (h : UnsortedSinceSearch requests) : Settled inputs (nav.run inputs requests) := by
  obtain ⟨before, raw, later, rfl, hsort⟩ := h
  rw [run_append]
  exact (settled_search inputs _ raw).run hsort

/-- **What a reply says**, of the requests up to it. -/
structure Reply.Sound (inputs : Inputs) (pageSize : Nat) (requests : List Request)
    (reply : Reply) : Prop where
  /-- The terms are those of the text. -/
  terms : reply.state.terms = parse reply.state.raw
  /-- After a search the results are those of the query, in some order. -/
  files : Searched requests → reply.outcome.files.Perm
    (evaluate inputs.ctx reply.state.terms inputs.index.filteredFiles).files
  /-- So is the label. -/
  label : Searched requests → reply.outcome.label =
    (evaluate inputs.ctx reply.state.terms inputs.index.filteredFiles).label
  /-- The page is cut out of the results. -/
  page : reply.page = Page.of reply.outcome.files pageSize reply.state.page
  /-- Unless something has been sorted since the last search, results, label and
  page are those of running the query, or neither has a page. -/
  execute : UnsortedSinceSearch requests → Query.execute reply.state inputs pageSize =
    reply.page.map fun page => ⟨reply.outcome.files, reply.outcome.label, page⟩

theorem sound_reply_run (inputs : Inputs) (pageSize : Nat) (requests : List Request) :
    ((start pageSize).run inputs requests).reply.Sound inputs pageSize requests where
  terms := terms_run rfl inputs requests
  files := fun h => (matches_run_of_searched inputs _ h).files
  label := fun h => (matches_run_of_searched inputs _ h).label
  page := congrArg (Page.of _ · _) (pageSize_run inputs _ requests)
  execute := fun h => by
    have hexecute := (settled_run_of_unsorted inputs (start pageSize) h).execute_eq
    rwa [pageSize_run] at hexecute

/-- **A session agrees with running its query**, from its beginning and for pages
of every size.  Each reply is sound for the requests up to it; states, results and
labels do not depend on the size of the pages; pages of size nought are refused,
all others are given. -/
theorem replies_sound (inputs : Inputs) (pageSize : Nat) (requests : List Request) :
    (∀ i, i < requests.length → ∃ reply : Reply,
        (replies inputs (start pageSize) requests)[i]? = some reply ∧
          reply.Sound inputs pageSize (requests.take (i + 1))) ∧
      (∀ other, (replies inputs (start other) requests).map (fun r => (r.state, r.outcome)) =
        (replies inputs (start pageSize) requests).map fun r => (r.state, r.outcome)) ∧
      ∀ reply ∈ replies inputs (start pageSize) requests,
        if pageSize = 0 then reply.page = .error .invalidPageSize
        else ∃ page, reply.page = .ok page := by
  refine ⟨fun i hi => ?_, fun other => ?_, fun reply hreply => ?_⟩
  · exact ⟨_, getElem?_replies inputs _ hi, sound_reply_run inputs pageSize _⟩
  · exact replies_withPageSize inputs (start pageSize) other requests
  · obtain ⟨before, rfl⟩ := mem_replies hreply
    rw [(sound_reply_run inputs pageSize before).page, Page.of]
    by_cases hsize : pageSize = 0
    · rw [if_pos hsize, if_pos hsize]
    · rw [if_neg hsize, if_neg hsize]
      exact ⟨_, rfl⟩

end Collated

attribute [local instance] Collation.inLowercase

/-- Two notes; the second one is smaller, and younger. -/
def twoNotes : Inputs where
  index := .classify
    { Snapshot.empty with
      entries := [.file "a.md" ⟨9, none, some 5⟩, .file "b.md" ⟨7, none, some 6⟩] }
    .none
  links := .empty
  ctx := ⟨Calendar.DayRange.epoch, .ofText "YYYY", []⟩

/-- A search behind a sort: the session has both notes, and the page that running
the query gives. -/
theorem replies_sound_search_after_sort :
    let requests : List Request := [.search "", .sortBy .size, .search "", .goToPage 2]
    3 < requests.length ∧ Searched requests ∧ UnsortedSinceSearch requests ∧
      ∃ reply : Reply, (replies twoNotes (start 1) requests)[3]? = some reply ∧
        (reply.outcome.files.map FileRecord.path).Perm ["a.md", "b.md"] ∧
        execute reply.state twoNotes 1 =
          reply.page.map fun page => ⟨reply.outcome.files, reply.outcome.label, page⟩ := by
  intro requests
  have hsearched : Searched requests := ⟨"", List.mem_cons_self⟩
  have hunsorted : UnsortedSinceSearch requests :=
    ⟨[.search "", .sortBy .size], "", [.goToPage 2], rfl, nofun⟩
  obtain ⟨reply, hreply, hsound⟩ := (replies_sound twoNotes 1 requests).1 3 (by decide)
  have hstate : reply.state.terms = parse "" := by
    obtain rfl := Option.some.inj hreply
    rfl
  have hpaths : (evaluate twoNotes.ctx (parse "") twoNotes.index.filteredFiles).files.map
      FileRecord.path = ["a.md", "b.md"] := by decide +kernel
  have hfiles := (hsound.files hsearched).map FileRecord.path
  rw [hstate, hpaths] at hfiles
  exact ⟨by decide, hsearched, hunsorted, reply, hreply, hfiles, hsound.execute hunsorted⟩

end NoteVault.Query.Navigator
