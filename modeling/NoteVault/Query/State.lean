import NoteVault.Index.Classify
import NoteVault.Query.Evaluate
import NoteVault.Query.Page
import NoteVault.Query.Parser
import NoteVault.Query.Sort

/-!
What is asked of a vault: a query, an order and a page.
-/

namespace NoteVault.Query

/-- A query with the order of its results and the page that is shown. -/
structure State where
  raw : String
  terms : List Term
  sort : SortState
  page : Nat
  deriving DecidableEq, Repr

namespace State

/-- A query in its first order, at its first page. -/
def ofText (raw : String) : State := ⟨raw, parse raw, .latestFirst, 1⟩

/-- Another query; the order stays and the first page is shown. -/
def withQuery (state : State) (raw : String) : State := { ofText raw with sort := state.sort }

/-- Another order. -/
def withSort (state : State) (sort : SortState) : State := { state with sort }

/-- The order after choosing a column. -/
def toggleSort (state : State) (column : SortColumn) : State :=
  state.withSort (state.sort.toggle column)

/-- Another page. -/
def withPage (state : State) (page : Nat) : State := { state with page }

end State

/-- What a query is run on. -/
structure Inputs where
  index : VaultIndex
  links : LinkGraph
  ctx : Context

/-- The results of a query in order, what is shown of its range of days, and one page. -/
structure Result where
  files : List FileRecord
  label : String
  page : Page FileRecord

/-- The results of a query, in order. -/
def results [Collator] (state : State) (inputs : Inputs) : Outcome :=
  let outcome := evaluate inputs.ctx state.terms inputs.index.filteredFiles
  { outcome with files := state.sort.sort inputs.links outcome.files }

/-- Runs a query. -/
def execute [Collator] (state : State) (inputs : Inputs) (pageSize : Nat) : Except Fault Result :=
  let outcome := results state inputs
  match Page.of outcome.files pageSize state.page with
  | .ok page => .ok ⟨outcome.files, outcome.label, page⟩
  | .error fault => .error fault

end NoteVault.Query
