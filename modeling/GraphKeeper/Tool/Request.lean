/-
  What a tool asks of the store, and the response that tells of it.

  A request changes the graph or reads it.  Reading leaves store and disk alone.  The response tells
  in one sentence how it went, names the action, and holds what was read or what the change
  reports.
-/
import GraphKeeper.Store
import GraphKeeper.Tool.Reply

namespace GraphKeeper.Tool

/-- A change of the graph, or a question about it. -/
inductive Request where
  | change (c : Change)
  | readGraph
  | searchNodes (query : String)
  | openNodes (names : List String)
deriving DecidableEq, Repr

/-! ## Responses -/

/-- The response to a batch, which tells how many of its items succeeded. -/
def batchResponse {α : Type} (verb noun : String) (o : Outcome α) (data : Json) : Response :=
  let count := s!"{verb} {o.succeeded.length} of {o.total} {noun}"
  ⟨some data, if o.failed.isEmpty then count else s!"{count} ({o.failed.length} failed)",
    s!"{verb} {noun}"⟩

/-- The response to a change. -/
def Response.ofReport (report : Report) : Response :=
  match report with
  | .addedNodes o => batchResponse "Added" "nodes" o report.toJson
  | .updatedNodes o => batchResponse "Updated" "nodes" o report.toJson
  | .deletedNodes o => batchResponse "Deleted" "nodes" o report.toJson
  | .addedEdges o => batchResponse "Added" "edges" o report.toJson
  | .updatedEdges o => batchResponse "Updated" "edges" o report.toJson
  | .deletedEdges o => batchResponse "Deleted" "edges" o report.toJson
  | .addedMetadata o => batchResponse "Added metadata to" "nodes" o report.toJson
  | .deletedMetadata o => batchResponse "Removed metadata from" "nodes" o report.toJson
  | .created c =>
    ⟨some report.toJson, s!"Created {c.node.kind} '{c.node.name}'",
      s!"Created {c.node.kind} node with {c.edges.length} relationship edge(s)"⟩
  | .updated node fields =>
    ⟨some (.obj [("node", node.toJson)]), s!"Updated {node.kind} '{node.name}'",
      s!"Updated {fields} field(s) of {node.kind} node"⟩
  | .deleted r kind =>
    ⟨some report.toJson, s!"Deleted {kind} '{r.name}'",
      s!"Deleted {kind} node and {r.removedEdges} edge(s)"⟩

/-- The response that holds the whole graph. -/
def Response.ofGraph (g : Graph) : Response :=
  ⟨some g.toJson, s!"Graph has {g.nodes.length} nodes and {g.edges.length} edges", "Read graph"⟩

/-- The response that holds what was found for a query. -/
def Response.ofFound (query : String) (found : Graph) : Response :=
  ⟨some found.toJson, s!"Found {found.nodes.length} nodes matching '{query}'", "Searched nodes"⟩

/-- The response that holds the nodes that were looked up. -/
def Response.ofOpened (names : List String) (o : Opened) : Response :=
  let count := s!"Opened {o.nodes.length} of {names.length} nodes"
  ⟨some o.toJson,
    if o.missing.isEmpty then count
    else s!"{count}; not found: " ++ String.intercalate ", " o.missing,
    "Opened nodes"⟩

/-! ## Running requests -/

/-- Runs a request: its response or failure, and the store and the disk after it. -/
def Request.run (s : Store) (d : Disk) : Request → Except Failure Response × Store × Disk
  | .change c =>
    let (result, s, d) := s.change d c
    (result.map .ofReport, s, d)
  | .readGraph => (.ok (.ofGraph s.graph), s, d)
  | .searchNodes query => ((s.graph.search query).map (.ofFound query), s, d)
  | .openNodes names => (.ok (.ofOpened names (s.graph.openNodes names)), s, d)

end GraphKeeper.Tool
