/-
  The JSON forms of nodes, edges and the requests that change them.

  A node or an edge is closed: it refuses members that are not its own.  A graph and the update
  requests are open.  A record is a node or an edge with a member `type` that tells which.
-/
import GraphKeeper.Graph.Change
import GraphKeeper.Json.Decoder

namespace GraphKeeper

open Json

/-! ## Nodes and edges -/

namespace Node

def members (n : Node) : Members :=
  [("name", .str n.name), ("nodeType", .str n.kind), ("metadata", .ofStrings n.metadata)]

def toJson (n : Node) : Json := .obj n.members

def shape : Shape :=
  ⟨"Node", [.fixed "name" .string, .fixed "nodeType" .string,
    .spare "metadata" (.list .string)], true⟩

def decoder : Decoder Node := fun src o => do
  let values ← shape.read src o
  return {
    name := ← values.required "name" src .string
    kind := ← values.required "nodeType" src .string
    metadata := ← values.orElse "metadata" src (.list .string) [] }

end Node

namespace Edge

def members (e : Edge) : Members :=
  [("from", .str e.source), ("to", .str e.target), ("edgeType", .str e.kind)]

def toJson (e : Edge) : Json := .obj e.members

/-- The fields that name an edge. -/
def fields : List Field :=
  [.fixed "from" .string, .fixed "to" .string, .fixed "edgeType" .string]

/-- The edge that the fields name. -/
def ofValues (values : FieldValues) (src : Source) : Except DecodeError Edge := do
  return {
    source := ← values.required "from" src .string
    target := ← values.required "to" src .string
    kind := ← values.required "edgeType" src .string }

def shape : Shape := ⟨"Edge", fields, true⟩

def decoder : Decoder Edge := fun src o => do ofValues (← shape.read src o) src

end Edge

namespace Graph

def toJson (g : Graph) : Json :=
  .obj [("nodes", .arr (g.nodes.map Node.toJson)), ("edges", .arr (g.edges.map Edge.toJson))]

def shape : Shape :=
  ⟨"KnowledgeGraph", [.fixed "nodes" (.list Node.decoder),
    .fixed "edges" (.list Edge.decoder)], false⟩

def decoder : Decoder Graph := fun src o => do
  let values ← shape.read src o
  return {
    nodes := ← values.required "nodes" src (.list Node.decoder)
    edges := ← values.required "edges" src (.list Edge.decoder) }

end Graph

/-! ## Requests -/

namespace NodeUpdate

def toJson (u : NodeUpdate) : Json :=
  .obj [("name", .str u.name), ("nodeType", .ofString? u.kind),
    ("metadata", (u.metadata.map Json.ofStrings).getD .null)]

def shape : Shape :=
  ⟨"NodeUpdate", [.fixed "name" .string, .spare "nodeType" (.optional .string),
    .spare "metadata" (.optional (.list .string))], false⟩

def decoder : Decoder NodeUpdate := fun src o => do
  let values ← shape.read src o
  return {
    name := ← values.required "name" src .string
    kind := ← values.orElse "nodeType" src (.optional .string) none
    metadata := ← values.orElse "metadata" src (.optional (.list .string)) none }

end NodeUpdate

namespace EdgeUpdate

def toJson (u : EdgeUpdate) : Json :=
  .obj (u.edge.members ++ [("newFrom", .ofString? u.newSource), ("newTo", .ofString? u.newTarget),
    ("newEdgeType", .ofString? u.newKind)])

def shape : Shape :=
  ⟨"EdgeUpdate", Edge.fields ++ [.spare "newFrom" (.optional .string),
    .spare "newTo" (.optional .string), .spare "newEdgeType" (.optional .string)], false⟩

def decoder : Decoder EdgeUpdate := fun src o => do
  let values ← shape.read src o
  return {
    edge := ← Edge.ofValues values src
    newSource := ← values.orElse "newFrom" src (.optional .string) none
    newTarget := ← values.orElse "newTo" src (.optional .string) none
    newKind := ← values.orElse "newEdgeType" src (.optional .string) none }

end EdgeUpdate

namespace NodeLines

/-- The name of the member that holds the lines, and the name of the request in messages. -/
structure Form where
  type : String
  lines : String

/-- A request to add lines. -/
def addition : Form := ⟨"MetadataAddition", "contents"⟩

/-- A request to delete lines. -/
def deletion : Form := ⟨"MetadataDeletion", "metadata"⟩

def toJson (form : Form) (m : NodeLines) : Json :=
  .obj [("nodeName", .str m.name), (form.lines, .ofStrings m.lines)]

def shape (form : Form) : Shape :=
  ⟨form.type, [.fixed "nodeName" .string, .fixed form.lines (.list .string)], false⟩

def decoder (form : Form) : Decoder NodeLines := fun src o => do
  let values ← (shape form).read src o
  return {
    name := ← values.required "nodeName" src .string
    lines := ← values.required form.lines src (.list .string) }

end NodeLines

/-! ## Records -/

/-- A node or an edge. -/
inductive Record where
  | node (n : Node)
  | edge (e : Edge)
deriving DecidableEq, Repr

namespace Record

def toJson : Record → Json
  | .node n => .obj (("type", .str "node") :: n.members)
  | .edge e => .obj (("type", .str "edge") :: e.members)

/-- The names of the two kinds of record. -/
def tags : List String := ["node", "edge"]

/-- A tag must be the name of a kind of record. -/
def checkTag (o : Outline) : Except DecodeError String :=
  match o with
  | .str tag => if tag ∈ tags then .ok tag else .error (.unknownVariant tag tags)
  | o => o.wrongType "variant identifier"

/-- The tag of a record, once it has been found, and the other entries.  All of them are read
before the record is taken for a node or an edge. -/
def splitEntries (tag : Option String) : Entries → Except DecodeError (String × Entries)
  | .done =>
    match tag with
    | some tag => .ok (tag, .done)
    | none => .error (.missingField "type")
  | .broken why => .error (.malformed why.onRead)
  | .entry key value tail => do
    let k ← liftFlaw key
    if k = "type" then
      if tag.isSome then throw (.duplicateField "type")
      splitEntries (some (← checkTag value)) tail
    else
      let _ ← liftFlaw value.toJson
      let (tag, rest) ← splitEntries tag tail
      return (tag, .entry (.ok k) value rest)

/-- The tag of a record and what is left of it. -/
def split (o : Outline) : Except DecodeError (String × Outline) :=
  match o with
  | .obj true _ | .arr true _ => .error (.malformed .tooDeep)
  | .obj false entries => (splitEntries none entries).map fun (tag, rest) => (tag, .obj false rest)
  | .arr false .done => .error (.missingField "type")
  | .arr false (.broken why) => .error (.malformed why.onRead)
  | .arr false (.item head tail) => do
    let tag ← checkTag head
    let _ ← liftFlaw tail.toJsons
    return (tag, .arr false tail)
  | o => o.wrongType "internally tagged enum GraphRecord"

def decoder : Decoder Record := fun _ o => do
  let (tag, rest) ← split o
  if tag = "node" then return .node (← Node.decoder .setAside rest)
  else return .edge (← Edge.decoder .setAside rest)

end Record

end GraphKeeper
