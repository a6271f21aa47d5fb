/-
  The knowledge graph.

  A node has a name, a kind and metadata lines.  An edge has a kind and leads from one node to
  another, which it refers to by their names.  The graph keeps nodes and edges in the order in
  which they came.

  A graph is well formed when no two nodes have one name and every edge leads from a node of the
  graph to a node of the graph.
-/
import GraphKeeper.Graph.Metadata

namespace GraphKeeper

/-- A named node. -/
structure Node where
  name : String
  kind : String
  metadata : List String
deriving DecidableEq, Repr

/-- A directed edge between two named nodes. -/
structure Edge where
  source : String
  target : String
  kind : String
deriving DecidableEq, Repr

/-- Nodes and edges, each in order. -/
structure Graph where
  nodes : List Node
  edges : List Edge
deriving DecidableEq, Repr

namespace Edge

/-- Whether the edge starts or ends at the named node. -/
def touches (e : Edge) (name : String) : Bool := e.source == name || e.target == name

/-- The edge in words. -/
def label (e : Edge) : String := s!"{e.source} -[{e.kind}]-> {e.target}"

/-- The order of edges: by source, then target, then kind. -/
def le (a b : Edge) : Bool :=
  a.source < b.source || (a.source == b.source &&
    (a.target < b.target || (a.target == b.target && a.kind ≤ b.kind)))

end Edge

/-- Changes the first element that satisfies `p`. -/
def modifyFirst {α : Type} (p : α → Bool) (f : α → α) : List α → List α
  | [] => []
  | a :: as => if p a then f a :: as else a :: modifyFirst p f as

/-- The elements without repetitions, each at its first place. -/
def distinct {α : Type} [DecidableEq α] : List α → List α
  | [] => []
  | a :: as => a :: (distinct as).filter (· ≠ a)

namespace Graph

def empty : Graph := ⟨[], []⟩

/-- The names of the nodes, in order. -/
def names (g : Graph) : List String := g.nodes.map Node.name

/-- The node with the given name. -/
def node? (g : Graph) (name : String) : Option Node := g.nodes.find? (·.name == name)

def hasNode (g : Graph) (name : String) : Bool := (g.node? name).isSome

/-- Changes the node with the given name. -/
def modifyNode (g : Graph) (name : String) (f : Node → Node) : Graph :=
  { g with nodes := modifyFirst (·.name == name) f g.nodes }

/-- The edges with both ends among the names. -/
def edgesAmong (g : Graph) (names : List String) : List Edge :=
  g.edges.filter fun e => names.contains e.source && names.contains e.target

/-- Names are distinct and edges lead between nodes of the graph. -/
structure WellFormed (g : Graph) : Prop where
  nodup_names : g.names.Nodup
  source_mem : ∀ e ∈ g.edges, e.source ∈ g.names
  target_mem : ∀ e ∈ g.edges, e.target ∈ g.names

instance (g : Graph) : Decidable g.WellFormed :=
  decidable_of_iff
    (g.names.Nodup ∧ (∀ e ∈ g.edges, e.source ∈ g.names) ∧ ∀ e ∈ g.edges, e.target ∈ g.names)
    ⟨fun h => ⟨h.1, h.2.1, h.2.2⟩, fun h => ⟨h.1, h.2, h.3⟩⟩

theorem wellFormed_empty : Graph.empty.WellFormed :=
  ⟨List.nodup_nil, by simp [empty], by simp [empty]⟩

end Graph

end GraphKeeper
