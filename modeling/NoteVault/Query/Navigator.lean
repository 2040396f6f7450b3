import NoteVault.Query.State

/-!
A session of queries: results stay while they are sorted again and paged through.
-/

namespace NoteVault.Query

/-- What is asked for, and the results of the last search in their present order. -/
structure Navigator where
  state : State
  pageSize : Nat
  outcome : Outcome

namespace Navigator

/-- Before the first search. -/
def start (pageSize : Nat) : Navigator := ⟨.ofText "", pageSize, ⟨[], ""⟩⟩

/-- The page that is shown. -/
def currentPage (nav : Navigator) : Except Fault (Page FileRecord) :=
  Page.of nav.outcome.files nav.pageSize nav.state.page

/-- Runs another query in the present order. -/
def search [Collator] (nav : Navigator) (raw : String) (inputs : Inputs) : Navigator :=
  let state := nav.state.withQuery raw
  { nav with state, outcome := results state inputs }

/-- Sorts the results by a column, without searching again. -/
def sortBy [Collator] (nav : Navigator) (column : SortColumn) (links : LinkGraph) : Navigator :=
  let state := nav.state.toggleSort column
  { nav with
    state
    outcome := { nav.outcome with files := state.sort.sort links nav.outcome.files } }

/-- Turns to a page. -/
def goToPage (nav : Navigator) (page : Nat) : Navigator :=
  { nav with state := nav.state.withPage page }

end Navigator

end NoteVault.Query
