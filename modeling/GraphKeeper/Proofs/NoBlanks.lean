/-
  No blank name or kind gets into a graph through the tools.

  The graph checks for blanks where single nodes and edges are added or changed, so every batch
  keeps a graph free of them (`Graph.NoBlanks`) whatever is asked for.  Changes of entities are
  another matter: an update puts edges into the graph without a look at their kind.  What saves it
  is that the kind is that of a relationship, and no type has a relationship with a blank kind; so
  the change has no blanks to begin with (`EntityChange.Proper`).  That holds for changes made by
  tools of types that documents describe, and a catalog has no others (`Catalog.proper_of_request`).

  Hence each call keeps a graph free of blanks, and so does every run of calls
  (`Session.noBlanks_run`).
-/
import GraphKeeper.Proofs.Catalogs
import GraphKeeper.Proofs.EntityRefusals
import GraphKeeper.Proofs.Relationships
import GraphKeeper.Proofs.SessionCalls

namespace GraphKeeper

open Tool

/-! ## Graphs without blanks -/

namespace Graph

/-- Every node has a name and a kind, and every edge a kind. -/
structure NoBlanks (g : Graph) : Prop where
  nodes : ∀ n ∈ g.nodes, Text.isBlank n.name = false ∧ Text.isBlank n.kind = false
  edges : ∀ e ∈ g.edges, Text.isBlank e.kind = false

/-- Nothing is blank where there is nothing. -/
theorem noBlanks_empty : NoBlanks .empty :=
  ⟨fun _ h => absurd h List.not_mem_nil, fun _ h => absurd h List.not_mem_nil⟩

variable {g : Graph}

namespace NoBlanks

/-- A node that is changed keeps its name and gets no blank kind. -/
theorem modifyNode (h : g.NoBlanks) (name : String) {f : Node → Node}
    (hname : ∀ n, (f n).name = n.name)
    (hkind : ∀ n, Text.isBlank n.kind = false → Text.isBlank (f n).kind = false) :
    (g.modifyNode name f).NoBlanks := by
  refine ⟨fun n hn => ?_, h.edges⟩
  rcases mem_modifyFirst hn with hn | ⟨m, hm, rfl⟩
  · exact h.nodes n hn
  · exact ⟨hname m ▸ (h.nodes m hm).1, hkind m (h.nodes m hm).2⟩

/-- A node is added with a name and a kind. -/
theorem addNode (h : g.NoBlanks) {node : Node} (hname : Text.isBlank node.name = false)
    (hkind : Text.isBlank node.kind = false) :
    NoBlanks { g with nodes := g.nodes ++ [node] } := by
  refine ⟨fun n hn => ?_, h.edges⟩
  rcases List.mem_append.mp hn with hn | hn
  · exact h.nodes n hn
  · rw [List.mem_singleton.mp hn]
    exact ⟨hname, hkind⟩

/-- Edges are added, each with a kind. -/
theorem addEdges (h : g.NoBlanks) {edges : List Edge}
    (hedges : ∀ e ∈ edges, Text.isBlank e.kind = false) :
    NoBlanks { g with edges := g.edges ++ edges } := by
  refine ⟨h.nodes, fun e he => ?_⟩
  rcases List.mem_append.mp he with he | he
  · exact h.edges e he
  · exact hedges e he

/-- Nothing is blank among fewer nodes and edges. -/
theorem of_subset (h : g.NoBlanks) {g' : Graph} (hnodes : ∀ n ∈ g'.nodes, n ∈ g.nodes)
    (hedges : ∀ e ∈ g'.edges, e ∈ g.edges) : g'.NoBlanks :=
  ⟨fun n hn => h.nodes n (hnodes n hn), fun e he => h.edges e (hedges e he)⟩

end NoBlanks

/-! ## Single changes -/

/-- A new node has had its name and its kind checked. -/
theorem addNode_noBlanks : Preserves NoBlanks addNode := by
  refine preserves_of_ok checksFirst_addNode ?_
  intro g node r hg h
  obtain ⟨⟨hname, hkind, _⟩, rfl⟩ := addNode_eq_ok_iff.mp h
  exact hg.addNode hname hkind

/-- An update keeps the name, and has had the new kind checked. -/
theorem updateNode_noBlanks : Preserves NoBlanks updateNode := by
  refine preserves_of_ok checksFirst_updateNode ?_
  intro g u r hg h
  obtain ⟨node, _, hkind, rfl⟩ := updateNode_eq_ok_iff.mp h
  refine hg.modifyNode u.name (fun _ => rfl) fun n hn => ?_
  -- The node takes on the kind of the update, which was checked, or keeps its own.
  show Text.isBlank (u.kind.getD n.kind) = false
  cases hu : u.kind with
  | none => exact hn
  | some kind =>
    rw [hu] at hkind
    exact hkind

/-- A deletion only takes away. -/
theorem deleteNode_noBlanks : Preserves NoBlanks deleteNode := by
  refine preserves_of_ok checksFirst_deleteNode ?_
  intro g name r hg h
  obtain ⟨_, rfl⟩ := deleteNode_eq_ok_iff.mp h
  exact hg.of_subset (fun _ hn => List.mem_of_mem_eraseP hn) fun _ he => List.mem_of_mem_filter he

/-- A new edge has had its kind checked. -/
theorem addEdge_noBlanks : Preserves NoBlanks addEdge := by
  refine preserves_of_ok checksFirst_addEdge ?_
  intro g e r hg h
  obtain ⟨hcheck, rfl⟩ := addEdge_eq_ok_iff.mp h
  refine hg.addEdges fun e' he' => ?_
  rw [List.mem_singleton.mp he']
  exact (checkEdge_eq_ok_iff.mp hcheck).1

/-- What stands in the place of edges has had its kind checked. -/
theorem updateEdge_noBlanks : Preserves NoBlanks updateEdge := by
  refine preserves_of_ok checksFirst_updateEdge ?_
  intro g u r hg h
  obtain ⟨_, hcheck, rfl⟩ := updateEdge_eq_ok_iff.mp h
  refine ⟨hg.nodes, fun e' he' => ?_⟩
  obtain ⟨e, he, rfl⟩ := List.mem_map.mp he'
  -- The edge is a replaced one, or one of those that the update does not match.
  split
  · exact (checkEdge_eq_ok_iff.mp hcheck).1
  · exact hg.edges e he

/-- Deleting edges only takes away. -/
theorem deleteEdge_noBlanks : Preserves NoBlanks deleteEdge := by
  refine preserves_of_ok checksFirst_deleteEdge ?_
  intro g e r hg h
  cases deleteEdge_eq_ok_iff.mp h
  exact hg.of_subset (fun _ hn => hn) fun _ he => List.mem_of_mem_filter he

/-- Lines are neither names nor kinds. -/
theorem addLines_noBlanks : Preserves NoBlanks addLines := by
  refine preserves_of_ok checksFirst_addLines ?_
  intro g a r hg h
  obtain ⟨node, _, rfl⟩ := addLines_eq_ok_iff.mp h
  exact hg.modifyNode a.name (fun _ => rfl) fun _ hn => hn

/-- The same holds for lines that are removed. -/
theorem deleteLines_noBlanks : Preserves NoBlanks deleteLines := by
  refine preserves_of_ok checksFirst_deleteLines ?_
  intro g a r hg h
  obtain ⟨node, _, rfl⟩ := deleteLines_eq_ok_iff.mp h
  exact hg.modifyNode a.name (fun _ => rfl) fun _ hn => hn

/-! ## Entities -/

/-- An entity is added by the checks of single nodes and edges. -/
theorem createEntity_noBlanks {node : Node} {edges : List Edge} {r : EntityCreation × Graph}
    (hg : g.NoBlanks) (h : g.createEntity node edges = .ok r) : r.2.NoBlanks := by
  obtain ⟨g', hadd, hchecks, rfl⟩ := createEntity_eq_ok_iff.mp h
  have hg' : g'.NoBlanks := addNode_noBlanks.onCopy hg hadd
  exact hg'.addEdges fun e he => (checkEdge_eq_ok_iff.mp (hchecks e (mem_distinct.mp he)).2).1

/-- An update checks no kinds, so they must not be blank from the start. -/
theorem updateEntity_noBlanks {u : EntityUpdate} {r : Node × Graph} (hg : g.NoBlanks)
    (hu : ∀ change ∈ u.relationships, Text.isBlank change.kind = false)
    (h : g.updateEntity u = .ok r) : r.2.NoBlanks := by
  obtain ⟨node, _, _, _, rfl⟩ := updateEntity_eq_ok_iff.mp h
  have hnodes : (g.modifyNode u.name (updatedNode u)).NoBlanks :=
    hg.modifyNode u.name (fun _ => rfl) fun _ hn => hn
  -- What is left of the old edges has kinds; the new ones have kinds of the relationships.
  obtain ⟨added, hadded, hown⟩ := foldl_relate_eq u.name u.relationships g.edges
  refine ⟨hnodes.nodes, fun e he => ?_⟩
  rw [hadded] at he
  rcases List.mem_append.mp he with he | he
  · exact hg.edges e (List.mem_of_mem_filter he)
  · obtain ⟨change, hchange, hkind⟩ := List.mem_map.mp (hown e he).2
    exact hkind ▸ hu change hchange

/-- Deleting an entity is deleting its node. -/
theorem deleteEntity_noBlanks {name kind : String} {r : NodeRemoval × Graph} (hg : g.NoBlanks)
    (h : g.deleteEntity name kind = .ok r) : r.2.NoBlanks :=
  deleteNode_noBlanks.onCopy hg (deleteEntity_eq_ok_iff.mp h).2

end Graph

/-- Of the changes of entities only an update relies on what it was made of. -/
theorem EntityChange.apply_noBlanks {g : Graph} {c : EntityChange} {r : Report × Graph}
    (hg : g.NoBlanks) (hc : c.Proper) (h : c.apply g = .ok r) : r.2.NoBlanks := by
  cases c with
  | create node edges =>
    rw [EntityChange.apply] at h
    obtain ⟨_, hr, _⟩ := Report.ofEntity_eq_ok h
    exact Graph.createEntity_noBlanks hg hr
  | update u =>
    rw [EntityChange.apply] at h
    obtain ⟨_, hr, _⟩ := Report.ofEntity_eq_ok h
    exact Graph.updateEntity_noBlanks hg
      (fun _ hchange => hc.edgeKinds _ (List.mem_map_of_mem hchange)) hr
  | delete name kind =>
    rw [EntityChange.apply] at h
    obtain ⟨_, hr, _⟩ := Report.ofEntity_eq_ok h
    exact Graph.deleteEntity_noBlanks hg hr

/-! ## All changes -/

/-- A batch may ask for anything; the change of an entity must have no blanks itself. -/
def Change.Proper : Change → Prop
  | .entity change => change.Proper
  | _ => True

/-- **A change that has no blanks itself brings none into the graph.** -/
theorem Change.apply_noBlanks {g : Graph} {c : Change} {r : Report × Graph} (hg : g.NoBlanks)
    (hc : c.Proper) (h : c.apply g = .ok r) : r.2.NoBlanks := by
  cases c with
  | addNodes nodes => cases h; exact Graph.batch_preserves Graph.addNode_noBlanks hg
  | updateNodes updates => cases h; exact Graph.batch_preserves Graph.updateNode_noBlanks hg
  | deleteNodes names => cases h; exact Graph.batch_preserves Graph.deleteNode_noBlanks hg
  | addEdges edges => cases h; exact Graph.batch_preserves Graph.addEdge_noBlanks hg
  | updateEdges updates => cases h; exact Graph.batch_preserves Graph.updateEdge_noBlanks hg
  | deleteEdges edges => cases h; exact Graph.batch_preserves Graph.deleteEdge_noBlanks hg
  | addMetadata additions => cases h; exact Graph.batch_preserves Graph.addLines_noBlanks hg
  | deleteMetadata deletions => cases h; exact Graph.batch_preserves Graph.deleteLines_noBlanks hg
  | entity change => exact EntityChange.apply_noBlanks hg hc h

/-- A store takes over the graph after the change or keeps the one that it has. -/
theorem Store.change_noBlanks {s : Store} (hs : s.graph.NoBlanks) (d : Disk) {c : Change}
    (hc : c.Proper) : (s.change d c).2.1.graph.NoBlanks := by
  cases s.change_fate d c with
  | failed _ _ h => rw [h]; exact hs
  | same _ _ h => rw [h]; exact hs
  | refused _ _ _ _ _ _ h => rw [h]; exact hs
  | written _ _ _ happly _ _ h => rw [h]; exact Change.apply_noBlanks hs hc happly

/-! ## Requests -/

/-- A change that is requested has no blanks where nobody else would look for them. -/
def Tool.Request.Proper : Request → Prop
  | .change c => c.Proper
  | .readGraph | .searchNodes _ | .openNodes _ => True

/-- The tools for any graph ask for batches and questions only. -/
theorem Tool.GraphTool.proper_of_validate {t : GraphTool} {args : Json} {r : Request}
    (h : t.validate args = .ok r) : r.Proper := by
  cases t <;>
  · obtain ⟨_, _, h⟩ := bind_eq_ok_iff.mp h
    cases h
    trivial

/-- **What a catalog makes out of a call has no blanks that the graph does not check.** -/
theorem Catalog.proper_of_request {c : Catalog} {d : Disk} {directory : String}
    (hc : (Catalog.new directory).setUp d = .ok c) {call : Call} {r : Request}
    (h : c.request call = .ok r) : r.Proper := by
  obtain ⟨found, hfound, h⟩ := bind_eq_ok_iff.mp h
  -- The name stands for nothing, for a tool for any graph, or for one of an entity type.
  match found with
  | none => nomatch h
  | some (.graph t) => exact GraphTool.proper_of_validate h
  | some (.entity t) =>
    obtain ⟨doc, hdoc⟩ := exists_ofDocument hc hfound
    have hmap : (t.validate call.arguments).map (fun change => .change (.entity change)) =
        .ok r := h
    cases hchange : t.validate call.arguments with
    | error failure =>
      rw [hchange] at hmap
      nomatch hmap
    | ok change =>
      rw [hchange] at hmap
      cases hmap
      cases hargs : call.arguments with
      | obj members =>
        rw [hargs] at hchange
        exact (EntityTool.proper_of_validate hdoc hchange).1
      | _ =>
        rw [hargs] at hchange
        nomatch hchange

/-! ## Runs of calls -/

namespace Session

/-- The session after calls. -/
def run (s : Session) (calls : List Call) : Session := calls.foldl (fun s c => (s.dispatch c).2) s

/-- A call leaves the tools as they are. -/
theorem catalog_dispatch (s : Session) (c : Call) : (s.dispatch c).2.catalog = s.catalog := by
  rcases s.dispatch_cases c with h | ⟨_, _, h⟩
  · rw [h]
  · rw [h]

/-- A call keeps a graph free of blanks, as long as the tools are those of documents. -/
theorem noBlanks_dispatch {s : Session} {d : Disk} {directory : String}
    (hs : s.store.graph.NoBlanks) (hc : (Catalog.new directory).setUp d = .ok s.catalog)
    (c : Call) : (s.dispatch c).2.store.graph.NoBlanks := by
  rcases s.dispatch_cases c with h | ⟨change, hrequest, h⟩
  · rw [h]
    exact hs
  · have hchange : change.Proper := Catalog.proper_of_request hc hrequest
    rw [h]
    exact Store.change_noBlanks hs s.disk hchange

/-- **So does a run of calls**, since calls leave the tools as they are. -/
theorem noBlanks_run {d : Disk} {directory : String} (calls : List Call) : ∀ {s : Session},
    s.store.graph.NoBlanks → (Catalog.new directory).setUp d = .ok s.catalog →
      (s.run calls).store.graph.NoBlanks := by
  induction calls with
  | nil => exact fun hs _ => hs
  | cons c calls ih =>
    intro s hs hc
    exact ih (noBlanks_dispatch hs hc c) (by rw [catalog_dispatch]; exact hc)

/-- **No blank name or kind ever enters through the tools.**  Whatever documents the tools were made
of and whatever calls are made, in a graph that began without a file every node has a name and a
kind, and every edge a kind, of which something is left after trimming. -/
theorem trim_ne_empty_run {d d₀ d' : Disk} {directory path : String} {catalog : Catalog}
    {store : Store} (hcatalog : (Catalog.new directory).setUp d = .ok catalog)
    (hopen : Store.openAt d₀ path = (.ok store, d')) (hmissing : d'.read path = .error .missing)
    (calls : List Call) :
    let g := (run ⟨catalog, store, d'⟩ calls).store.graph
    (∀ n ∈ g.nodes, Text.trim n.name ≠ "" ∧ Text.trim n.kind ≠ "") ∧
      ∀ e ∈ g.edges, Text.trim e.kind ≠ "" := by
  intro g
  -- The file is missing when the store is opened, so the run begins with an empty graph.
  have hgraph : store.graph = .empty := by
    rcases Store.load_eq_ok (Store.openAt_eq_ok hopen).2 with ⟨_, hempty⟩ | ⟨content, hread, _⟩
    · exact hempty
    · nomatch hmissing.symm.trans hread
  have hg : g.NoBlanks := noBlanks_run calls (by rw [hgraph]; exact Graph.noBlanks_empty) hcatalog
  have htrim : ∀ {s : String}, Text.isBlank s = false → Text.trim s ≠ "" := by
    intro s hs hempty
    rw [(Text.trim_eq_empty_iff s).mp hempty] at hs
    nomatch hs
  exact ⟨fun n hn => ⟨htrim (hg.nodes n hn).1, htrim (hg.nodes n hn).2⟩,
    fun e he => htrim (hg.edges e he)⟩

/-- Two people, two attempts to make a kind blank, and a name that is blank. -/
def npcCalls : List Call :=
  [⟨"add_npc", .obj [("name", .str "Ann"), ("home", .str "Ann")]⟩,
    ⟨"add_nodes", .obj [("nodes", .arr [(Node.mk "\t" "npc" []).toJson,
      (Node.mk "Bob" "npc" []).toJson])]⟩,
    ⟨"update_nodes", .obj [("nodes", .arr [(NodeUpdate.mk "Bob" (some " ") none).toJson])]⟩,
    ⟨"update_edges", .obj [("edges", .arr
      [(EdgeUpdate.mk ⟨"Ann", "Ann", "lives_with"⟩ none none (some " ")).toJson])]⟩,
    ⟨"update_npc", .obj [("name", .str "Bob"), ("home", .str "Ann")]⟩]

/-- The blank name and the blank kinds are refused, and all else is done. -/
theorem trim_ne_empty_npcCalls :
    let g := (run ⟨Catalog.npcCatalog, ⟨"m", .empty⟩, .empty⟩ npcCalls).store.graph
    (Catalog.new "schemas").setUp Catalog.npcDisk = .ok Catalog.npcCatalog ∧
      Store.openAt .empty "m" = (.ok ⟨"m", .empty⟩, .empty) ∧
      Disk.read .empty "m" = .error .missing ∧
      g = ⟨[⟨"Ann", "npc", []⟩, ⟨"Bob", "npc", []⟩],
        [⟨"Ann", "Ann", "lives_with"⟩, ⟨"Bob", "Ann", "lives_with"⟩]⟩ ∧
      (∀ n ∈ g.nodes, Text.trim n.name ≠ "" ∧ Text.trim n.kind ≠ "") ∧
      ∀ e ∈ g.edges, Text.trim e.kind ≠ "" := by
  intro g
  have hopen : Store.openAt .empty "m" = (.ok ⟨"m", .empty⟩, .empty) := rfl
  have hmissing : Disk.read .empty "m" = .error .missing := rfl
  exact ⟨Catalog.setUp_npcDisk, hopen, hmissing, by decide +kernel,
    trim_ne_empty_run Catalog.setUp_npcDisk hopen hmissing npcCalls⟩

end Session

end GraphKeeper
