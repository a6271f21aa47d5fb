/-
  Changes of single nodes, edges and metadata, and batches of them.

  Each change is an edit: it makes its checks and its writes in the order in which they stand, on
  the graph itself.  A batch makes its changes one after another on one graph.  An item that fails
  is reported with its place in the batch, and the next item meets the graph as the failed one left
  it; that it left the graph as it found it is up to the change, which has to check before it
  writes.
-/
import GraphKeeper.Graph.Edit

namespace GraphKeeper

/-- New values for a node: a kind to take on and metadata to merge. -/
structure NodeUpdate where
  name : String
  kind : Option String
  metadata : Option (List String)
deriving DecidableEq, Repr

/-- New parts for every edge equal to `edge`. -/
structure EdgeUpdate where
  edge : Edge
  newSource : Option String
  newTarget : Option String
  newKind : Option String
deriving DecidableEq, Repr

/-- Metadata lines of one node. -/
structure NodeLines where
  name : String
  lines : List String
deriving DecidableEq, Repr

/-- A node that was deleted and the number of edges that went with it. -/
structure NodeRemoval where
  name : String
  removedEdges : Nat
deriving DecidableEq, Repr

/-- An edge that was to be deleted and the number of edges that were. -/
structure EdgeRemoval where
  edge : Edge
  removed : Nat
deriving DecidableEq, Repr

/-- What edges were replaced by and how many were. -/
structure EdgeReplacement where
  edge : Edge
  updated : Nat
deriving DecidableEq, Repr

/-- An item of a batch that failed. -/
structure ItemFailure where
  index : Nat
  /-- The item in words. -/
  item : String
  failure : Failure
deriving Repr

/-- The reports of a batch, and its failures with their places. -/
structure Outcome (α : Type) where
  succeeded : List α
  failed : List ItemFailure
deriving Repr

/-- The number of items. -/
def Outcome.total {α : Type} (o : Outcome α) : Nat := o.succeeded.length + o.failed.length

/-- The outcome with the result of the item in front of its items. -/
def Outcome.record {α : Type} (o : Outcome α) (index : Nat) (item : String) :
    Except Failure α → Outcome α
  | .ok report => { o with succeeded := report :: o.succeeded }
  | .error failure => { o with failed := ⟨index, item, failure⟩ :: o.failed }

namespace EdgeUpdate

def isMatch (u : EdgeUpdate) (e : Edge) : Bool := e == u.edge

/-- The edge with its new parts. -/
def replacement (u : EdgeUpdate) : Edge :=
  ⟨u.newSource.getD u.edge.source, u.newTarget.getD u.edge.target, u.newKind.getD u.edge.kind⟩

end EdgeUpdate

namespace Graph

/-! ## Single changes -/

/-- Adds a node with a new name. -/
def addNode (node : Node) : Edit Graph Node := do
  Edit.refuseIf (Text.isBlank node.name) (.blank "name")
  Edit.refuseIf (Text.isBlank node.kind) (.blank "nodeType")
  Edit.refuseIf ((← get).hasNode node.name) (.nodeExists node.name)
  modify fun g => { g with nodes := g.nodes ++ [node] }
  return node

/-- Updates a node that is there: first its kind, then its metadata. -/
def updateNode (u : NodeUpdate) : Edit Graph Node := onNode u.name do
  if let some kind := u.kind then
    Edit.refuseIf (Text.isBlank kind) (.blank "nodeType")
    modify fun node => { node with kind }
  if let some lines := u.metadata then
    modify fun node => { node with metadata := Metadata.merge node.metadata lines }
  get

/-- Deletes a node, and then the edges that touch it. -/
def deleteNode (name : String) : Edit Graph NodeRemoval := do
  Edit.refuseIf (!(← get).hasNode name) (.notFound .node name)
  modify fun g => { g with nodes := g.nodes.eraseP (·.name == name) }
  let before := (← get).edges.length
  modify fun g => { g with edges := g.edges.filter fun e => !e.touches name }
  return ⟨name, before - (← get).edges.length⟩

/-- An edge must have a kind and lead from a node to a node. -/
def checkEdge (g : Graph) (e : Edge) : Except Failure Unit :=
  if Text.isBlank e.kind then .error (.blank "edgeType")
  else if !g.hasNode e.source then .error (.notFound .node e.source)
  else if !g.hasNode e.target then .error (.notFound .node e.target)
  else .ok ()

def addEdge (e : Edge) : Edit Graph Edge := do
  Edit.check (·.checkEdge e)
  modify fun g => { g with edges := g.edges ++ [e] }
  return e

/-- Replaces every edge that the update matches, in place. -/
def updateEdge (u : EdgeUpdate) : Edit Graph EdgeReplacement := do
  Edit.refuseIf (!(← get).edges.any u.isMatch) (.notFound .edge u.edge.label)
  Edit.check (·.checkEdge u.replacement)
  let matching := (← get).edges.countP u.isMatch
  modify fun g => { g with edges := g.edges.map fun e => if u.isMatch e then u.replacement else e }
  return ⟨u.replacement, matching⟩

/-- Deletes every edge equal to `e`; there may be none. -/
def deleteEdge (e : Edge) : Edit Graph EdgeRemoval := do
  let before := (← get).edges.length
  modify fun g => { g with edges := g.edges.filter (· ≠ e) }
  return ⟨e, before - (← get).edges.length⟩

/-- Adds the lines that the node has not yet, and reports them. -/
def addLines (addition : NodeLines) : Edit Graph NodeLines := onNode addition.name do
  let (added, lines) := Metadata.addMissing (← get).metadata addition.lines
  modify fun node => { node with metadata := lines }
  return ⟨addition.name, added⟩

/-- Removes lines wherever the node has them, and reports the requested ones that it had. -/
def deleteLines (deletion : NodeLines) : Edit Graph NodeLines := onNode deletion.name do
  let (removed, lines) := Metadata.remove (← get).metadata deletion.lines
  modify fun node => { node with metadata := lines }
  return ⟨deletion.name, removed⟩

/-! ## Batches -/

/-- Makes the changes of a batch one after another; `index` is the place of the first item.  All of
them are made in place on one graph, whether or not those in front of them failed. -/
def batchFrom {ι α : Type} (step : ι → Edit Graph α) (label : ι → String) (index : Nat) :
    List ι → Graph → Outcome α × Graph
  | [], g => (⟨[], []⟩, g)
  | item :: items, g =>
    let (result, met) := (step item).inPlace g
    let (outcome, last) := batchFrom step label (index + 1) items met
    (outcome.record index (label item) result, last)

/-- Makes the changes of a batch one after another. -/
def batch {ι α : Type} (step : ι → Edit Graph α) (label : ι → String) (items : List ι)
    (g : Graph) : Outcome α × Graph :=
  batchFrom step label 0 items g

def addNodes (g : Graph) (nodes : List Node) : Outcome Node × Graph :=
  batch addNode Node.name nodes g

def updateNodes (g : Graph) (updates : List NodeUpdate) : Outcome Node × Graph :=
  batch updateNode NodeUpdate.name updates g

def deleteNodes (g : Graph) (names : List String) : Outcome NodeRemoval × Graph :=
  batch deleteNode id names g

def addEdges (g : Graph) (edges : List Edge) : Outcome Edge × Graph :=
  batch addEdge Edge.label edges g

def updateEdges (g : Graph) (updates : List EdgeUpdate) : Outcome EdgeReplacement × Graph :=
  batch updateEdge (·.edge.label) updates g

def deleteEdges (g : Graph) (edges : List Edge) : Outcome EdgeRemoval × Graph :=
  batch deleteEdge Edge.label edges g

def addMetadata (g : Graph) (additions : List NodeLines) : Outcome NodeLines × Graph :=
  batch addLines NodeLines.name additions g

def deleteMetadata (g : Graph) (deletions : List NodeLines) : Outcome NodeLines × Graph :=
  batch deleteLines NodeLines.name deletions g

end Graph

end GraphKeeper
