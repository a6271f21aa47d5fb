/-
  All changes of a graph as one type, and their reports.

  `Change.apply` makes a change.  What it reports is written as JSON for the caller: what succeeded
  in the order of the request and, if anything failed, the failures with their places.
-/
import GraphKeeper.Graph.Entity
import GraphKeeper.Graph.Query
import GraphKeeper.Graph.Record

namespace GraphKeeper

/-- A change of a graph: a batch, or the change of one entity. -/
inductive Change where
  | addNodes (nodes : List Node)
  | updateNodes (updates : List NodeUpdate)
  | deleteNodes (names : List String)
  | addEdges (edges : List Edge)
  | updateEdges (updates : List EdgeUpdate)
  | deleteEdges (edges : List Edge)
  | addMetadata (additions : List NodeLines)
  | deleteMetadata (deletions : List NodeLines)
  | entity (change : EntityChange)
deriving DecidableEq, Repr

/-- What a change reports. -/
inductive Report where
  | addedNodes (o : Outcome Node)
  | updatedNodes (o : Outcome Node)
  | deletedNodes (o : Outcome NodeRemoval)
  | addedEdges (o : Outcome Edge)
  | updatedEdges (o : Outcome EdgeReplacement)
  | deletedEdges (o : Outcome EdgeRemoval)
  | addedMetadata (o : Outcome NodeLines)
  | deletedMetadata (o : Outcome NodeLines)
  | created (c : EntityCreation)
  /-- The entity after the update, and the number of fields that were asked for. -/
  | updated (node : Node) (fields : Nat)
  /-- What went with the entity, and its kind. -/
  | deleted (r : NodeRemoval) (kind : String)
deriving Repr

/-- The result of a batch, which always succeeds as a whole. -/
def Report.ofBatch {α : Type} (report : Outcome α → Report) (r : Outcome α × Graph) :
    Except Failure (Report × Graph) :=
  .ok (report r.1, r.2)

/-- The result of a change of one entity. -/
def Report.ofEntity {α : Type} (report : α → Report) (r : Except Failure (α × Graph)) :
    Except Failure (Report × Graph) :=
  r.map fun (a, g) => (report a, g)

def EntityChange.apply (g : Graph) : EntityChange → Except Failure (Report × Graph)
  | .create node edges => Report.ofEntity .created (g.createEntity node edges)
  | .update u =>
    Report.ofEntity (.updated · (u.metadata.length + u.relationships.length)) (g.updateEntity u)
  | .delete name kind => Report.ofEntity (.deleted · kind) (g.deleteEntity name kind)

/-- Makes a change: its report and the changed graph. -/
def Change.apply (g : Graph) : Change → Except Failure (Report × Graph)
  | .addNodes nodes => Report.ofBatch .addedNodes (g.addNodes nodes)
  | .updateNodes updates => Report.ofBatch .updatedNodes (g.updateNodes updates)
  | .deleteNodes names => Report.ofBatch .deletedNodes (g.deleteNodes names)
  | .addEdges edges => Report.ofBatch .addedEdges (g.addEdges edges)
  | .updateEdges updates => Report.ofBatch .updatedEdges (g.updateEdges updates)
  | .deleteEdges edges => Report.ofBatch .deletedEdges (g.deleteEdges edges)
  | .addMetadata additions => Report.ofBatch .addedMetadata (g.addMetadata additions)
  | .deleteMetadata deletions => Report.ofBatch .deletedMetadata (g.deleteMetadata deletions)
  | .entity change => change.apply g

/-! ## Reports as JSON -/

def NodeRemoval.toJson (r : NodeRemoval) : Json :=
  .obj [("name", .str r.name), ("removedEdges", .ofNat r.removedEdges)]

def EdgeRemoval.toJson (r : EdgeRemoval) : Json :=
  .obj (r.edge.members ++ [("removed", .ofNat r.removed)])

def EdgeReplacement.toJson (r : EdgeReplacement) : Json :=
  .obj (r.edge.members ++ [("updated", .ofNat r.updated)])

def EntityCreation.toJson (c : EntityCreation) : Json :=
  .obj [("node", c.node.toJson), ("edges", .arr (c.edges.map Edge.toJson))]

def ItemFailure.toJson (f : ItemFailure) : Json :=
  .obj [("index", .ofNat f.index), ("item", .str f.item), ("kind", .str f.failure.kind),
    ("error", .str f.failure.message)]

/-- Failures are left out when there are none. -/
def Outcome.toJson {α : Type} (item : α → Json) (o : Outcome α) : Json :=
  .obj (("succeeded", .arr (o.succeeded.map item)) ::
    if o.failed.isEmpty then [] else [("failed", .arr (o.failed.map ItemFailure.toJson))])

def Opened.toJson (o : Opened) : Json :=
  .obj [("nodes", .arr (o.nodes.map Node.toJson)), ("edges", .arr (o.edges.map Edge.toJson)),
    ("missing", .ofStrings o.missing)]

def Report.toJson : Report → Json
  | .addedNodes o => o.toJson Node.toJson
  | .updatedNodes o => o.toJson Node.toJson
  | .deletedNodes o => o.toJson NodeRemoval.toJson
  | .addedEdges o => o.toJson Edge.toJson
  | .updatedEdges o => o.toJson EdgeReplacement.toJson
  | .deletedEdges o => o.toJson EdgeRemoval.toJson
  | .addedMetadata o => o.toJson (NodeLines.toJson NodeLines.addition)
  | .deletedMetadata o => o.toJson (NodeLines.toJson NodeLines.deletion)
  | .created c => c.toJson
  | .updated node _ => node.toJson
  | .deleted r _ => r.toJson

end GraphKeeper
