/-
  The tools that work on the graph as it is, whatever schemas there are.

  Each tool takes one argument, except the one that reads the whole graph, which takes none.  The
  arguments are an object without other members, and `null` stands for an object without members.
  An array must not be empty.
-/
import GraphKeeper.Tool.Request

namespace GraphKeeper.Tool

open Json

/-- A tool for any graph. -/
inductive GraphTool where
  | addNodes
  | updateNodes
  | addEdges
  | updateEdges
  | addMetadata
  | deleteNodes
  | deleteMetadata
  | deleteEdges
  | readGraph
  | searchNodes
  | openNodes
deriving DecidableEq, Repr

/-! ## Arguments -/

/-- The members of the arguments. -/
def argumentMembers : Json → Except Failure Members
  | .null => .ok []
  | .obj members => .ok members
  | _ => .error (.invalidArgument "arguments" "must be a JSON object")

/-- Reads arguments that have the given fields and no others. -/
def readArguments (fields : List Field) (args : Json) : Except Failure FieldValues := do
  let members ← argumentMembers args
  let shape : Shape := ⟨"arguments", fields, true⟩
  (decodeValue shape.read (.obj members)).mapError fun e =>
    .invalidArgument "arguments" e.message

/-- The value of the only argument. -/
def soleArgument {α : Type} (name : String) (value : Decoder α) (args : Json) :
    Except Failure α := do
  let values ← readArguments [.fixed name value] args
  (values.required name .value value).mapError fun e => .invalidArgument "arguments" e.message

/-- The items of the only argument, of which there must be some. -/
def someItems {α : Type} (name : String) (item : Decoder α) (args : Json) :
    Except Failure (List α) := do
  let items ← soleArgument name (.list item) args
  if items.isEmpty then throw (.invalidArgument name "must contain at least one item")
  return items

/-! ## Input schemas -/

def stringSchema : Json := .obj [("type", .str "string")]

def arraySchema (items : Json) : Json := .obj [("type", .str "array"), ("items", items)]

/-- The schema of an object with the given properties and the names of those it must have. -/
def objectSchema (properties : Members) (required : List String) : Json :=
  .obj [("type", .str "object"), ("properties", .obj properties),
    ("required", .ofStrings required)]

/-- The schema of arguments, all of which must be there. -/
def argumentsSchema (properties : Members) : Json :=
  .obj ([("type", .str "object"), ("properties", .obj properties)] ++
    textsMember "required" properties.keys ++ [("additionalProperties", .bool false)])

/-- The schema of arguments that are one array. -/
def itemsSchema (name : String) (item : Json) : Json :=
  argumentsSchema [(name, arraySchema item)]

/-- The properties of a node. -/
def nodeProperties : Members :=
  [("name", stringSchema), ("nodeType", stringSchema), ("metadata", arraySchema stringSchema)]

/-- The properties that name an edge. -/
def edgeProperties : Members :=
  [("from", stringSchema), ("to", stringSchema), ("edgeType", stringSchema)]

/-- The properties for the new parts of an edge. -/
def newEdgeProperties : Members :=
  [("newFrom", stringSchema), ("newTo", stringSchema), ("newEdgeType", stringSchema)]

/-- The schema of metadata lines of one node. -/
def linesSchema (form : NodeLines.Form) : Json :=
  objectSchema [("nodeName", stringSchema), (form.lines, arraySchema stringSchema)]
    ["nodeName", form.lines]

/-! ## The tools -/

namespace GraphTool

/-- The tools in the order in which they are listed. -/
def all : List GraphTool :=
  [.addNodes, .updateNodes, .addEdges, .updateEdges, .addMetadata, .deleteNodes, .deleteMetadata,
    .deleteEdges, .readGraph, .searchNodes, .openNodes]

def name : GraphTool → String
  | .addNodes => "add_nodes"
  | .updateNodes => "update_nodes"
  | .addEdges => "add_edges"
  | .updateEdges => "update_edges"
  | .addMetadata => "add_metadata"
  | .deleteNodes => "delete_nodes"
  | .deleteMetadata => "delete_metadata"
  | .deleteEdges => "delete_edges"
  | .readGraph => "read_graph"
  | .searchNodes => "search_nodes"
  | .openNodes => "open_nodes"

/-- The tool of a name. -/
def ofName? (s : String) : Option GraphTool := all.find? (·.name == s)

def description : GraphTool → String
  | .addNodes => "Create new nodes. Each name must be unique in the graph."
  | .updateNodes =>
    "Update existing nodes. Supplied metadata lines replace lines with the same label."
  | .addEdges => "Create directed, typed edges between existing nodes."
  | .updateEdges =>
    "Rewrite edges matching \x7bfrom, to, edgeType\x7d with new endpoints or type."
  | .addMetadata => "Append metadata lines to existing nodes."
  | .deleteNodes => "Delete nodes and every edge that touches them."
  | .deleteMetadata => "Remove specific metadata lines from nodes."
  | .deleteEdges => "Delete edges matching \x7bfrom, to, edgeType\x7d."
  | .readGraph => "Return the entire graph."
  | .searchNodes =>
    "Search nodes by name or metadata text. Use 'type:<nodeType>' or 'tag:<name>' to filter."
  | .openNodes => "Return the named nodes and the edges among them."

/-- The schema of the arguments. -/
def inputSchema : GraphTool → Json
  | .addNodes => itemsSchema "nodes" (objectSchema nodeProperties ["name", "nodeType"])
  | .updateNodes => itemsSchema "nodes" (objectSchema nodeProperties ["name"])
  | .addEdges | .deleteEdges =>
    itemsSchema "edges" (objectSchema edgeProperties edgeProperties.keys)
  | .updateEdges =>
    itemsSchema "edges" (objectSchema (edgeProperties ++ newEdgeProperties) edgeProperties.keys)
  | .addMetadata => itemsSchema "metadata" (linesSchema NodeLines.addition)
  | .deleteMetadata => itemsSchema "deletions" (linesSchema NodeLines.deletion)
  | .deleteNodes => itemsSchema "nodeNames" stringSchema
  | .readGraph => argumentsSchema []
  | .searchNodes => argumentsSchema [("query", stringSchema)]
  | .openNodes => itemsSchema "names" stringSchema

/-- The request that the arguments ask for. -/
def validate (t : GraphTool) (args : Json) : Except Failure Request := do
  match t with
  | .addNodes => return .change (.addNodes (← someItems "nodes" Node.decoder args))
  | .updateNodes => return .change (.updateNodes (← someItems "nodes" NodeUpdate.decoder args))
  | .addEdges => return .change (.addEdges (← someItems "edges" Edge.decoder args))
  | .updateEdges => return .change (.updateEdges (← someItems "edges" EdgeUpdate.decoder args))
  | .addMetadata =>
    return .change (.addMetadata
      (← someItems "metadata" (NodeLines.decoder NodeLines.addition) args))
  | .deleteNodes => return .change (.deleteNodes (← someItems "nodeNames" .string args))
  | .deleteMetadata =>
    return .change (.deleteMetadata
      (← someItems "deletions" (NodeLines.decoder NodeLines.deletion) args))
  | .deleteEdges => return .change (.deleteEdges (← someItems "edges" Edge.decoder args))
  | .readGraph =>
    let _ ← readArguments [] args
    return .readGraph
  | .searchNodes => return .searchNodes (← soleArgument "query" .string args)
  | .openNodes => return .openNodes (← someItems "names" .string args)

end GraphTool

end GraphKeeper.Tool
