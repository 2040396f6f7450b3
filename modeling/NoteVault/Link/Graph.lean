import NoteVault.NameMap

/-!
Graphs of links between files: for each source its targets, and for each target its sources.
-/

namespace NoteVault

/-- A graph of links. -/
structure LinkGraph where
  /-- How often each source links to each target. -/
  resolved : NameMap (NameMap Nat)
  /-- The sources of each target. -/
  inbound : NameMap NameSet

namespace LinkGraph

/-- Notes that a source links to a target. -/
def addInbound (source : String) (inbound : NameMap NameSet) (target : String) :
    NameMap NameSet :=
  inbound.alter target fun sources => (sources.getD .empty).insert source ()

/-- The sources of each target. -/
def inboundOf (resolved : NameMap (NameMap Nat)) : NameMap NameSet :=
  resolved.toList.foldl (fun inbound (source, targets) =>
    targets.keys.foldl (addInbound source) inbound) .empty

/-- The graph with given counts. -/
def ofCounts (resolved : NameMap (NameMap Nat)) : LinkGraph := ⟨resolved, inboundOf resolved⟩

/-- The graph without links. -/
def empty : LinkGraph := ofCounts .empty

/-- The targets of a source, in order. -/
def outgoing (graph : LinkGraph) (source : String) : List String :=
  ((graph.resolved.find? source).map NameMap.keys).getD []

/-- The sources of a target, in order. -/
def backlinks (graph : LinkGraph) (target : String) : List String :=
  ((graph.inbound.find? target).map NameMap.keys).getD []

/-- The number of targets of a source. -/
def outgoingCount (graph : LinkGraph) (source : String) : Nat :=
  ((graph.resolved.find? source).map NameMap.size).getD 0

/-- The number of sources of a target. -/
def backlinkCount (graph : LinkGraph) (target : String) : Nat :=
  ((graph.inbound.find? target).map NameMap.size).getD 0

end LinkGraph

end NoteVault
