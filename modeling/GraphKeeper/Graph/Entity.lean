/-
  Changes of an entity: a node of a known kind together with its outgoing edges.

  An entity is created, updated or deleted as one unit.  Either all of it happens or nothing does:
  the writes are made on a copy of the graph, which is dropped if one of the checks between them
  fails.
-/
import GraphKeeper.Graph.Change

namespace GraphKeeper

/-- A value to set for a metadata label, or its removal. -/
structure MetadataChange where
  label : String
  value : Option String
deriving DecidableEq, Repr

/-- All targets that the outgoing edges of one kind are to have. -/
structure RelationshipChange where
  kind : String
  targets : List String
deriving DecidableEq, Repr

/-- A partial update of an entity of the given kind. -/
structure EntityUpdate where
  name : String
  kind : String
  metadata : List MetadataChange
  relationships : List RelationshipChange
deriving DecidableEq, Repr

/-- A change of one entity. -/
inductive EntityChange where
  | create (node : Node) (edges : List Edge)
  | update (u : EntityUpdate)
  | delete (name kind : String)
deriving DecidableEq, Repr

/-- A created node and the edges that came with it. -/
structure EntityCreation where
  node : Node
  edges : List Edge
deriving DecidableEq, Repr

namespace Graph

/-- An edge of a new entity must start at it. -/
def checkOwnEdge (g : Graph) (name : String) (e : Edge) : Except Failure Unit :=
  if e.source ≠ name then
    .error (.invalidArgument "from" s!"edge {e.label} does not start at '{name}'")
  else g.checkEdge e

/-- Creates a node with its outgoing edges; a repeated edge counts once. -/
def createEntity (g : Graph) (node : Node) (edges : List Edge) :
    Except Failure (EntityCreation × Graph) :=
  Edit.onCopy g do
    let node ← addNode node
    edges.forM fun e => Edit.check (·.checkOwnEdge node.name e)
    let stored := distinct edges
    modify fun g => { g with edges := g.edges ++ stored }
    return ⟨node, stored⟩

/-- An entity must be there and of the kind expected. -/
def checkKind (g : Graph) (name kind : String) : Except Failure Unit :=
  match g.node? name with
  | none => .error (.notFound .node name)
  | some node =>
    if node.kind ≠ kind then
      .error (.invalidArgument "name" s!"'{name}' is a {node.kind} node, not a {kind} node")
    else .ok ()

/-- A target must be there, or be the entity itself. -/
def checkTarget (g : Graph) (name target : String) : Except Failure Unit :=
  if target = name ∨ g.hasNode target then .ok () else .error (.notFound .node target)

/-- The edges, with those that leave `name` with the kind of the change replaced by one for each
of its targets, at the end. -/
def relate (name : String) (edges : List Edge) (change : RelationshipChange) : List Edge :=
  edges.filter (fun e => ¬ (e.source = name ∧ e.kind = change.kind)) ++
    (distinct change.targets).map fun target => ⟨name, target, change.kind⟩

/-- The metadata after all changes. -/
def applyMetadata (lines : List String) (changes : List MetadataChange) : List String :=
  changes.foldl (fun ls change => Metadata.set change.label change.value ls) lines

/-- Updates metadata and relationships of an entity. -/
def updateEntity (g : Graph) (u : EntityUpdate) : Except Failure (Node × Graph) :=
  Edit.onCopy g do
    Edit.check (·.checkKind u.name u.kind)
    (u.relationships.flatMap RelationshipChange.targets).forM fun target =>
      Edit.check (·.checkTarget u.name target)
    modify fun g => { g with edges := u.relationships.foldl (relate u.name) g.edges }
    onNode u.name do
      modify fun node => { node with metadata := applyMetadata node.metadata u.metadata }
      get

/-- Deletes an entity of the kind expected. -/
def deleteEntity (g : Graph) (name kind : String) : Except Failure (NodeRemoval × Graph) :=
  Edit.onCopy g do
    Edit.check (·.checkKind name kind)
    deleteNode name

end Graph

end GraphKeeper
