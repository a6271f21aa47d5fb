/-
  Reading a graph: searching it and looking nodes up by name.

  An answer holds some nodes of the graph and the edges that lead between them, both in the order
  of the graph when searched and the nodes in the order of the request when looked up.
-/
import GraphKeeper.Failure
import GraphKeeper.Graph.Basic
import GraphKeeper.Text.Case

namespace GraphKeeper

/-- What to search for. -/
inductive Query where
  /-- A part of the name or of a metadata line, in lower case. -/
  | text (needle : String)
  /-- The kind of the node. -/
  | kind (kind : String)
  /-- The name in lower case of a tag that the node has. -/
  | tag (name : String)
deriving DecidableEq, Repr

/-- Nodes that were looked up, the edges between them, and the names that are no nodes. -/
structure Opened where
  nodes : List Node
  edges : List Edge
  missing : List String
deriving DecidableEq, Repr

namespace Query

/-- The kind of the edges that lead from a node to its tags. -/
def taggedKind : String := "tagged_with"

/-- The kind of the nodes that are tags. -/
def tagKind : String := "tag"

/-- The value behind the lead of a query, which must not be blank. -/
def valueOf (query rest : String) : Except Failure String :=
  if Text.isBlank rest then
    .error (.invalidArgument "query" s!"'{query}' needs a value after the prefix")
  else .ok (Text.trim rest)

/-- Reads a query: `type:` asks for a kind and `tag:` for a tag, all else is text. -/
def parse (raw : String) : Except Failure Query :=
  let query := Text.trim raw
  if query = "" then .error (.blank "query")
  else
    match Text.stripLead? "type:" query with
    | some rest => (valueOf query rest).map .kind
    | none =>
      match Text.stripLead? "tag:" query with
      | some rest => (valueOf query rest).map fun value => .tag (Text.lower value)
      | none => .ok (.text (Text.lower query))

/-- Whether an edge leads to the tag with the given name in lower case. -/
def leadsToTag (g : Graph) (tag : String) (e : Edge) : Bool :=
  e.kind == taggedKind &&
    (g.node? e.target).any fun n => n.kind == tagKind && Text.lower n.name == tag

/-- Whether a node of a graph is searched for. -/
def isMatch (g : Graph) (n : Node) : Query → Bool
  | .text needle =>
    Text.contains (Text.lower n.name) needle ||
      n.metadata.any fun l => Text.contains (Text.lower l) needle
  | .kind wanted => n.kind == wanted
  | .tag wanted => g.edges.any fun e => e.source == n.name && leadsToTag g wanted e

end Query

namespace Graph

/-- The given nodes and the edges between them. -/
def around (g : Graph) (nodes : List Node) : Graph :=
  ⟨nodes, g.edgesAmong (nodes.map Node.name)⟩

/-- The nodes that a query matches and the edges between them. -/
def select (g : Graph) (query : Query) : Graph :=
  g.around (g.nodes.filter fun n => query.isMatch g n)

/-- Searches the graph. -/
def search (g : Graph) (raw : String) : Except Failure Graph :=
  (Query.parse raw).map g.select

/-- Looks nodes up by name, each one once. -/
def openNodes (g : Graph) (names : List String) : Opened :=
  let found := g.around (distinct (names.filterMap g.node?))
  ⟨found.nodes, found.edges, names.filter fun name => !g.hasNode name⟩

end Graph

end GraphKeeper
