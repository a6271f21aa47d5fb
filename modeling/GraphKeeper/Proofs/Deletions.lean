/-
  Deleting nodes with their edges, and taking back what was created.

  A node is deleted with every edge that touches it.  In a well-formed graph what is left is the
  part of the graph outside of its name (`Graph.outside`, `deleteNode_eq`): striking out the first
  node of the name strikes out the only one.

  1. **Batches.**  What is outside of some names and then outside of others is outside of all of
     them (`outside_append`).  So whatever the items in front have taken away, a batch leaves the
     part outside of its names (`BatchRun.graph_deleteNode`), and neither repetitions nor the order
     of the names matter.  An item finds its name if it stands for the first time, and takes the
     edges that the items in front have left (`deleteNode_deleteNodes`).  So an edge between two
     nodes that both go is counted once (`BatchRun.removedEdges_add`).  Together this is
     `effect_of_deleteNodes`.

  2. **Created entities.**  An edge of a well-formed graph does not touch a name that is no node.
     So in a graph with a new entity exactly the node and the edges that came with it touch its
     name, and what is outside of it is the graph from before (`Store.deleted_of_created`).
-/
import Mathlib.Algebra.GroupWithZero.Nat
import GraphKeeper.Proofs.Batches
import GraphKeeper.Proofs.StoreRuns

namespace GraphKeeper

/-- An edge touches the names of its ends. -/
theorem Edge.touches_iff {e : Edge} {name : String} :
    e.touches name = true ↔ e.source = name ∨ e.target = name := by
  rw [touches, Bool.or_eq_true, beq_iff_eq, beq_iff_eq]

/-- The number of edges that went with the nodes that were deleted. -/
def Outcome.removedEdges (o : Outcome NodeRemoval) : Nat :=
  (o.succeeded.map NodeRemoval.removedEdges).sum

namespace Graph

variable {g last : Graph} {name : String} {names : List String}

/-! ## The part outside of some names -/

/-- The nodes with other names, and the edges between other names. -/
def outside (g : Graph) (names : List String) : Graph :=
  ⟨g.nodes.filter (·.name ∉ names), g.edges.filter fun e => e.source ∉ names ∧ e.target ∉ names⟩

theorem mem_names_outside {n : String} : n ∈ (g.outside names).names ↔ n ∈ g.names ∧ n ∉ names := by
  rw [Graph.names, Graph.names, List.mem_map, List.mem_map]
  constructor
  · rintro ⟨node, hnode, rfl⟩
    obtain ⟨hmem, hout⟩ := List.mem_filter.mp hnode
    exact ⟨⟨node, hmem, rfl⟩, of_decide_eq_true hout⟩
  · rintro ⟨⟨node, hmem, rfl⟩, hout⟩
    exact ⟨node, List.mem_filter.mpr ⟨hmem, decide_eq_true hout⟩, rfl⟩

theorem mem_edges_outside {e : Edge} : e ∈ (g.outside names).edges ↔
    e ∈ g.edges ∧ e.source ∉ names ∧ e.target ∉ names := by
  rw [outside, List.mem_filter, decide_eq_true_iff]

/-- The part outside of some names is well formed, as edges between names that stay are kept with
their ends. -/
theorem WellFormed.outside (hg : g.WellFormed) (names : List String) :
    (g.outside names).WellFormed where
  nodup_names := hg.nodup_names.sublist (List.filter_sublist.map _)
  source_mem := fun e he =>
    have ⟨hmem, hsource, _⟩ := mem_edges_outside.mp he
    mem_names_outside.mpr ⟨hg.source_mem e hmem, hsource⟩
  target_mem := fun e he =>
    have ⟨hmem, _, htarget⟩ := mem_edges_outside.mp he
    mem_names_outside.mpr ⟨hg.target_mem e hmem, htarget⟩

/-- Only what the names are counts, not their order or how often they come. -/
theorem outside_congr {names' : List String} (h : ∀ n, n ∈ names ↔ n ∈ names') :
    g.outside names = g.outside names' := by
  simp only [outside, h]

/-- What is outside of some names and then of others is outside of all of them. -/
theorem outside_append (g : Graph) (front back : List String) :
    (g.outside front).outside back = g.outside (front ++ back) := by
  simp only [outside, List.filter_filter, List.mem_append, not_or, Bool.decide_and]
  congr 1
  · exact List.filter_congr fun n _ => Bool.and_comm _ _
  · exact List.filter_congr fun e _ => by ac_rfl

/-- What is no node of the graph, no edge touches either. -/
theorem WellFormed.outside_eq_self (hg : g.WellFormed) (h : ∀ n ∈ names, n ∉ g.names) :
    g.outside names = g := by
  have hnodes : g.nodes.filter (·.name ∉ names) = g.nodes :=
    List.filter_eq_self.mpr fun n hn => decide_eq_true fun hname =>
      h n.name hname (List.mem_map_of_mem hn)
  have hedges : (g.edges.filter fun e => e.source ∉ names ∧ e.target ∉ names) = g.edges :=
    List.filter_eq_self.mpr fun e he => decide_eq_true
      ⟨fun hname => h e.source hname (hg.source_mem e he),
        fun hname => h e.target hname (hg.target_mem e he)⟩
  rw [Graph.outside, hnodes, hedges]

/-! ## One node -/

/-- The edges that do not touch a name are those outside of it. -/
theorem filter_not_touches (edges : List Edge) :
    (edges.filter fun e => !e.touches name) =
      edges.filter fun e => e.source ∉ [name] ∧ e.target ∉ [name] := by
  refine List.filter_congr fun e _ => ?_
  rw [Bool.eq_iff_iff, Bool.not_eq_true', ← Bool.not_eq_true, Edge.touches_iff, decide_eq_true_iff,
    List.mem_singleton, List.mem_singleton, not_or]

/-- **A node is deleted if it is there, and what is left is the part outside of its name.** -/
theorem deleteNode_eq (hg : g.WellFormed) (name : String) :
    (deleteNode name).onCopy g =
      if name ∈ g.names then .ok (⟨name, g.edges.countP (·.touches name)⟩, g.outside [name])
      else .error (.notFound .node name) := by
  by_cases h : name ∈ g.names
  · -- The source counts the edges from before and those that are left.
    have hcount : g.edges.length - (g.edges.filter fun e => !e.touches name).length =
        g.edges.countP (·.touches name) := by
      rw [List.length_eq_countP_add_countP (·.touches name), ← List.countP_eq_length_filter]
      simp
    have hnodes : g.nodes.eraseP (·.name == name) = g.nodes.filter (·.name ∉ [name]) := by
      rw [eraseP_eq_filter hg.nodup_names]
      simp only [List.mem_singleton]
    rw [if_pos h, deleteNode_eq_ok_iff, hcount, hnodes, filter_not_touches]
    exact ⟨h, rfl⟩
  · rw [if_neg h, onCopy_deleteNode, hasNode_eq_false_iff.mpr h]
    rfl

/-! ## Batches of nodes -/

namespace BatchRun

variable {label : String → String} {index : Nat} {o : Outcome NodeRemoval}

/-- **A batch leaves the part outside of its names**, since an item that fails has a name of which
the graph has nothing. -/
theorem graph_deleteNode (h : BatchRun deleteNode label index g names o last) (hg : g.WellFormed) :
    last = g.outside names := by
  induction h with
  | done => exact (hg.outside_eq_self fun n hn => absurd hn List.not_mem_nil).symm
  | @succeeds _ g _ _ name names _ _ h _ ih =>
    have h := Edit.onCopy_eq_ok_iff.mpr h
    rw [deleteNode_eq hg] at h
    split at h
    · cases h
      rw [ih (hg.outside [name]), outside_append, List.singleton_append]
    · nomatch h
  | @fails _ g met _ name names _ _ h _ ih =>
    obtain rfl := checksFirst_deleteNode name g _ met h
    have h := Edit.onCopy_eq_error_iff.mpr ⟨met, h⟩
    rw [deleteNode_eq hg] at h
    split at h
    · nomatch h
    · rename_i hname
      -- The name is not there, so the part outside of it is the whole graph.
      have hself : met.outside [name] = met :=
        hg.outside_eq_self fun n hn => List.mem_singleton.mp hn ▸ hname
      rw [ih hg, ← List.singleton_append, ← outside_append, hself]

/-- Each edge that goes is counted once. -/
theorem removedEdges_add (h : BatchRun deleteNode label index g names o last) :
    o.removedEdges + last.edges.length = g.edges.length := by
  induction h with
  | done => exact Nat.zero_add _
  | @succeeds _ g g' last name _ report o h _ ih =>
    -- An item counts what it takes away, and the rest is counted by the items behind it.
    obtain ⟨_, hr⟩ := deleteNode_eq_ok_iff.mp (Edit.onCopy_eq_ok_iff.mpr h)
    obtain ⟨rfl, rfl⟩ := Prod.mk.inj hr
    have hle : (g.edges.filter fun e => !e.touches name).length ≤ g.edges.length :=
      List.length_filter_le _ _
    rw [Outcome.removedEdges] at ih ⊢
    rw [List.map_cons, List.sum_cons, Nat.add_assoc, ih]
    exact Nat.sub_add_cancel hle
  | fails h _ ih =>
    obtain rfl := checksFirst_deleteNode _ _ _ _ h
    exact ih

end BatchRun

theorem graph_deleteNodes (hg : g.WellFormed) (names : List String) :
    (g.deleteNodes names).2 = g.outside names :=
  (batchRun_batchFrom names 0 g).graph_deleteNode hg

theorem removedEdges_deleteNodes (g : Graph) (names : List String) :
    (g.deleteNodes names).1.removedEdges + (g.deleteNodes names).2.edges.length = g.edges.length :=
  (batchRun_batchFrom names 0 g).removedEdges_add

/-- An item deletes a name that is there and stands in front for the first time, and takes those of
its edges that the items in front have left. -/
theorem deleteNode_deleteNodes (hg : g.WellFormed) (front : List String) (name : String) :
    (deleteNode name).onCopy (g.deleteNodes front).2 =
      if name ∈ g.names ∧ name ∉ front then
        .ok (⟨name, (g.outside front).edges.countP (·.touches name)⟩, g.outside (front ++ [name]))
      else .error (.notFound .node name) := by
  rw [graph_deleteNodes hg, deleteNode_eq (hg.outside front), outside_append]
  simp only [mem_names_outside]

/-- **What a batch of deletions leaves and tells.**  The nodes and the edges that are left are those
that have no name of the list and no end among them, in their order.  Each name that is there is
deleted where it first stands in the list, with those of its edges that have no end among the names
in front; at all other places it is not found.  The edges that are told of are those that are gone.
No order of the names leaves another graph or tells of another number of edges. -/
theorem effect_of_deleteNodes (hg : g.WellFormed) (names : List String) :
    (g.deleteNodes names).2.nodes = g.nodes.filter (·.name ∉ names) ∧
      (g.deleteNodes names).2.edges =
        g.edges.filter (fun e => e.source ∉ names ∧ e.target ∉ names) ∧
      (∀ front name back, names = front ++ name :: back →
        (name ∈ g.names ∧ name ∉ front → (g.deleteNodes names).1.reportAt? front.length =
          some ⟨name, (g.edges.filter fun e => e.source ∉ front ∧ e.target ∉ front).countP
            (·.touches name)⟩) ∧
        (¬ (name ∈ g.names ∧ name ∉ front) →
          ⟨front.length, name, .notFound .node name⟩ ∈ (g.deleteNodes names).1.failed)) ∧
      (g.deleteNodes names).1.removedEdges + (g.deleteNodes names).2.edges.length =
        g.edges.length ∧
      ∀ names', names.Perm names' → (g.deleteNodes names').2 = (g.deleteNodes names).2 ∧
        (g.deleteNodes names').1.removedEdges = (g.deleteNodes names).1.removedEdges := by
  have hgraph := graph_deleteNodes hg names
  refine ⟨congrArg Graph.nodes hgraph, congrArg Graph.edges hgraph, ?_,
    removedEdges_deleteNodes g names, ?_⟩
  · rintro front name back rfl
    have hstep := deleteNode_deleteNodes hg front name
    constructor
    · intro hfirst
      rw [if_pos hfirst] at hstep
      exact (batch_item_of_ok hstep back).1
    · intro hother
      rw [if_neg hother] at hstep
      exact (batch_item_of_error (checksFirst_deleteNode name) hstep back).1
  · intro names' hperm
    -- The graph is told by the set of the names, and the number of edges by the graph.
    have hsame : (g.deleteNodes names').2 = (g.deleteNodes names).2 := by
      rw [hgraph, graph_deleteNodes hg, outside_congr fun _ => hperm.mem_iff]
    have htotal := removedEdges_deleteNodes g names
    have htotal' := removedEdges_deleteNodes g names'
    rw [hsame] at htotal'
    exact ⟨hsame, by omega⟩

/-- Three places with ways between them, one of them twice and one in a circle. -/
def ways : Graph :=
  ⟨[⟨"Town", "place", []⟩, ⟨"Forge", "place", []⟩, ⟨"Mine", "place", ["Depth: 9"]⟩],
    [⟨"Town", "Forge", "leads_to"⟩, ⟨"Mine", "Mine", "leads_to"⟩, ⟨"Forge", "Town", "leads_to"⟩,
      ⟨"Town", "Forge", "leads_to"⟩, ⟨"Forge", "Mine", "leads_to"⟩]⟩

/-- Names that are there and one that is not, one of them twice. -/
def closed : List String := ["Forge", "Moon", "Town", "Forge"]

/-- All four ways of the forge go with it, and none is left for the town. -/
theorem effect_of_deleteNodes_ways :
    ways.WellFormed ∧
      ((ways.deleteNodes closed).2.nodes = [⟨"Mine", "place", ["Depth: 9"]⟩] ∧
        (ways.deleteNodes closed).2.edges = [⟨"Mine", "Mine", "leads_to"⟩]) ∧
      (ways.deleteNodes closed).1.reportAt? 0 = some ⟨"Forge", 4⟩ ∧
      ⟨1, "Moon", .notFound .node "Moon"⟩ ∈ (ways.deleteNodes closed).1.failed ∧
      (ways.deleteNodes closed).1.reportAt? 2 = some ⟨"Town", 0⟩ ∧
      ⟨3, "Forge", .notFound .node "Forge"⟩ ∈ (ways.deleteNodes closed).1.failed ∧
      (ways.deleteNodes closed).1.removedEdges + 1 = ways.edges.length ∧
      (ways.deleteNodes closed.reverse).2 = (ways.deleteNodes closed).2 := by
  have hways : ways.WellFormed := by decide
  obtain ⟨hnodes, hedges, hitems, htotal, hperm⟩ := effect_of_deleteNodes hways closed
  have hleft : ways.edges.filter (fun e => e.source ∉ closed ∧ e.target ∉ closed) =
      [⟨"Mine", "Mine", "leads_to"⟩] := by decide
  rw [hedges, hleft] at htotal
  refine ⟨hways, ⟨hnodes, hedges.trans hleft⟩, ?_, ?_, ?_, ?_, htotal,
    (hperm _ (List.reverse_perm closed).symm).1⟩
  · exact (hitems [] "Forge" ["Moon", "Town", "Forge"] rfl).1 (by decide)
  · exact (hitems ["Forge"] "Moon" ["Town", "Forge"] rfl).2 (by decide)
  · exact (hitems ["Forge", "Moon"] "Town" ["Forge"] rfl).1 (by decide)
  · exact (hitems ["Forge", "Moon", "Town"] "Forge" [] rfl).2 (by decide)

/-! ## Created entities -/

/-- What touches a new name came with it, and what is outside of the name was there before. -/
theorem outside_of_new (hg : g.WellFormed) {node : Node} {edges : List Edge}
    (hnew : node.name ∉ g.names) (hown : ∀ e ∈ edges, e.source = node.name) :
    (g.edges ++ edges).countP (·.touches node.name) = edges.length ∧
      outside ⟨g.nodes ++ [node], g.edges ++ edges⟩ [node.name] = g := by
  have htouch : ∀ e ∈ edges, e.touches node.name = true := fun e he =>
    Edge.touches_iff.mpr (Or.inl (hown e he))
  have hnone : ∀ e ∈ g.edges, ¬ e.touches node.name = true := by
    intro e he htouch
    rcases Edge.touches_iff.mp htouch with hend | hend
    · exact hnew (hend ▸ hg.source_mem e he)
    · exact hnew (hend ▸ hg.target_mem e he)
  have hnodes : (g.nodes ++ [node]).filter (·.name ∉ [node.name]) = g.nodes := by
    rw [List.filter_append, List.filter_cons_of_neg (by simp), List.filter_nil, List.append_nil]
    refine List.filter_eq_self.mpr fun n hn => decide_eq_true fun hname => ?_
    exact hnew (List.mem_singleton.mp hname ▸ List.mem_map_of_mem hn)
  have hedges : ((g.edges ++ edges).filter fun e => !e.touches node.name) = g.edges := by
    rw [List.filter_append, List.filter_eq_self.mpr fun e he => by simpa using hnone e he,
      List.filter_eq_nil_iff.mpr fun e he => by simp [htouch e he], List.append_nil]
  constructor
  · rw [List.countP_append, List.countP_eq_zero.mpr hnone, List.countP_eq_length.mpr htouch,
      Nat.zero_add]
  · rw [outside, hnodes, ← filter_not_touches, hedges]

/-- **A created entity is deleted again with all that came with it.** -/
theorem deleteEntity_of_createEntity (hg : g.WellFormed) {node : Node} {edges : List Edge}
    {c : EntityCreation} {g' : Graph} (h : g.createEntity node edges = .ok (c, g')) :
    g'.deleteEntity node.name node.kind = .ok (⟨node.name, c.edges.length⟩, g) := by
  have hg' : g'.WellFormed := createEntity_wellFormed hg h
  obtain ⟨added, hadd, hchecks, hr⟩ := createEntity_eq_ok_iff.mp h
  obtain ⟨⟨_, _, hnew⟩, hadded⟩ := addNode_eq_ok_iff.mp hadd
  obtain ⟨_, rfl⟩ := Prod.mk.inj hadded
  obtain ⟨rfl, rfl⟩ := Prod.mk.inj hr
  have hnode : node? ⟨g.nodes ++ [node], g.edges ++ distinct edges⟩ node.name = some node :=
    node?_append_self hnew
  obtain ⟨hcount, hbefore⟩ := outside_of_new hg hnew fun e he =>
    (hchecks e (mem_distinct.mp he)).1
  refine deleteEntity_eq_ok_iff.mpr ⟨⟨node, hnode, rfl⟩, ?_⟩
  rw [deleteNode_eq hg', if_pos (mem_names_of_node? hnode), hcount, hbefore]

end Graph

/-! ## Created entities of a store -/

namespace Store

open GraphKeeper.Graph

variable {s s' : Store} {d d' : Disk}

/-- **Deleting an entity undoes its creation.**  What a creation that succeeds has made can be
deleted under its name and kind, on the disk as it then is and on any other one that takes files.
As many edges go as the creation told of, and the graph is the one from before, in memory and in the
file. -/
theorem deleted_of_created (hs : s.graph.WellFormed) {node : Node} {edges : List Edge}
    {report : Report} (h : s.change d (.entity (.create node edges)) = (.ok report, s', d')) :
    ∃ c, report = .created c ∧ d'.Writable s.path ∧
      ∀ disk : Disk, disk.Writable s.path → ∃ disk',
        s'.change disk (.entity (.delete node.name node.kind)) =
          (.ok (.deleted ⟨node.name, c.edges.length⟩ node.kind), s, disk') ∧
        disk'.read s.path = .ok (LineFile.encodeBytes s.graph) := by
  have happly : EntityChange.apply s.graph (.create node edges) = .ok (report, s'.graph) :=
    change_eq_ok h
  rw [EntityChange.apply] at happly
  obtain ⟨c, hcreate, hreport⟩ := Report.ofEntity_eq_ok happly
  have hdelete := deleteEntity_of_createEntity hs hcreate
  have hpath : s'.path = s.path := by
    rw [← change_path s d (.entity (.create node edges)), h]
  -- The name is new before the creation and not afterwards, so the graph is another one.
  have hne : s.graph ≠ s'.graph := by
    intro hsame
    obtain ⟨_, hadd, _⟩ := createEntity_eq_ok_iff.mp hcreate
    have hnew := (addNode_eq_ok_iff.mp hadd).1.2.2
    rw [hsame] at hnew
    exact hnew (deleteNode_eq_ok_iff.mp (deleteEntity_eq_ok_iff.mp hdelete).2).1
  refine ⟨c, hreport, writable_of_change h hne.symm, fun disk hdisk => ?_⟩
  have happly' : Change.apply s'.graph (.entity (.delete node.name node.kind)) =
      .ok (.deleted ⟨node.name, c.edges.length⟩ node.kind, s.graph) := by
    rw [Change.apply, EntityChange.apply, hdelete]
    rfl
  rw [← hpath] at hdisk
  obtain ⟨disk', hchange, hread⟩ := change_of_apply happly' hne hdisk
  refine ⟨disk', ?_, hpath ▸ hread⟩
  rw [hchange, hpath]

/-- A place, with a way that leads back to it. -/
def forge : Store :=
  ⟨"m", ⟨[⟨"Forge", "place", []⟩, ⟨"Ben", "npc", []⟩],
    [⟨"Forge", "Forge", "leads_to"⟩, ⟨"Ben", "Forge", "works_in"⟩]⟩⟩

/-- A smith who works there, which is said twice, and who knows herself. -/
def smith : Node := ⟨"Ann", "npc", ["Role: smith"]⟩

def smithEdges : List Edge :=
  [⟨"Ann", "Forge", "works_in"⟩, ⟨"Ann", "Ann", "knows"⟩, ⟨"Ann", "Forge", "works_in"⟩]

theorem deleted_of_created_smith :
    let s' := (forge.change .empty (.entity (.create smith smithEdges))).2.1
    let d' := (forge.change .empty (.entity (.create smith smithEdges))).2.2
    forge.graph.WellFormed ∧ s'.graph.edges = forge.graph.edges ++
        [⟨"Ann", "Forge", "works_in"⟩, ⟨"Ann", "Ann", "knows"⟩] ∧
      ∃ c, (forge.change .empty (.entity (.create smith smithEdges))).1 = .ok (.created c) ∧
        ∃ disk', s'.change d' (.entity (.delete "Ann" "npc")) =
            (.ok (.deleted ⟨"Ann", c.edges.length⟩ "npc"), forge, disk') ∧
          disk'.read "m" = .ok (LineFile.encodeBytes forge.graph) := by
  intro s' d'
  have hforge : forge.graph.WellFormed := by decide
  have hok : (forge.change .empty (.entity (.create smith smithEdges))).1.isOk = true := by
    decide +kernel
  obtain ⟨report, h⟩ := exists_eq_ok_of_isOk hok
  obtain ⟨c, rfl, hwritable, hdelete⟩ := deleted_of_created hforge h
  exact ⟨hforge, by decide +kernel, c, congrArg Prod.fst h, hdelete d' hwritable⟩

end Store

end GraphKeeper
