/-
  What is made of an entity as one unit, and what batches of its nodes and edges make of it.

  An entity is created with its edges at once, or not at all; batches take the node and then the
  edges one by one and go on after a failure.  A relationship change exchanges all outgoing edges of
  one kind; batches delete these edges one by one and add the new ones.

  1. **Batches of edges.**  Whether an edge can be added depends on the nodes and not on the edges,
     so a batch of edges fails first where a run of checks would (`BatchRun.first_addEdge`), and if
     no item fails, all edges are added (`BatchRun.graph_addEdge`).  Deleting edges never fails
     (`BatchRun.graph_deleteEdge`).

  2. **Creating.**  The checks of a new entity are those of the batches, so creating it succeeds if
     no item of the batches fails, and fails for the first one that does
     (`Store.createEntity_byBatches`).

  3. **Relating.**  The two ways make the same edges of the same changes, but do not admit the same
     ones: a batch refuses an edge of a blank kind, and an update of an entity does not look at
     kinds.  So they agree exactly on updates without blank kinds (`Store.updateEntity_byBatches`).
-/
import GraphKeeper.Proofs.Batches
import GraphKeeper.Proofs.Relationships
import GraphKeeper.Proofs.StoreRuns

namespace GraphKeeper

/-- What failing items come to if they are taken as one: the failure of the first. -/
def ItemFailure.first : List ItemFailure → Except Failure Unit
  | [] => .ok ()
  | f :: _ => .error f.failure

/-- Taken as one, items go through exactly if none of them fails. -/
theorem ItemFailure.first_eq_ok_iff {fs : List ItemFailure} : first fs = .ok () ↔ fs = [] := by
  cases fs with
  | nil => exact ⟨fun _ => rfl, fun _ => rfl⟩
  | cons f fs => exact ⟨(nomatch ·), (nomatch ·)⟩

namespace Graph

variable {g : Graph} {name : String}

/-! ## Batches of edges -/

/-- Adding an edge fails as its check does. -/
theorem addEdge_eq_error_iff {e : Edge} {failure : Failure} :
    (addEdge e).onCopy g = .error failure ↔ g.checkEdge e = .error failure := by
  rw [onCopy_addEdge, bind_eq_error_iff]
  refine or_iff_left ?_
  rintro ⟨_, _, h⟩
  cases h

namespace BatchRun

variable {label : Edge → String} {index : Nat} {edges : List Edge} {last : Graph}

/-- A batch of edges fails first where a run of checks fails. -/
theorem first_addEdge {o : Outcome Edge} (h : BatchRun addEdge label index g edges o last) :
    ItemFailure.first o.failed = edges.forM g.checkEdge := by
  induction h with
  | done => rfl
  | @succeeds _ g g' _ e edges _ _ h _ ih =>
    obtain ⟨hcheck, hr⟩ := addEdge_eq_ok_iff.mp (Edit.onCopy_eq_ok_iff.mpr h)
    obtain ⟨_, rfl⟩ := Prod.mk.inj hr
    show _ = (g.checkEdge e >>= fun _ => edges.forM g.checkEdge)
    rw [hcheck]
    -- The checks look at the nodes alone, and these stay.
    exact ih
  | @fails _ g _ _ e edges _ _ h _ _ =>
    show _ = (g.checkEdge e >>= fun _ => edges.forM g.checkEdge)
    rw [addEdge_eq_error_iff.mp (Edit.onCopy_eq_error_iff.mpr ⟨_, h⟩)]
    rfl

/-- Where no item fails, all edges are added. -/
theorem graph_addEdge {o : Outcome Edge} (h : BatchRun addEdge label index g edges o last)
    (hnone : o.failed = []) : last = { g with edges := g.edges ++ edges } := by
  induction h with
  | done => rw [List.append_nil]
  | succeeds h _ ih =>
    obtain ⟨_, hr⟩ := addEdge_eq_ok_iff.mp (Edit.onCopy_eq_ok_iff.mpr h)
    obtain ⟨_, rfl⟩ := Prod.mk.inj hr
    rw [ih hnone, List.append_assoc, List.singleton_append]
  | fails => nomatch hnone

/-- Deleting edges never fails, and leaves those that are not listed. -/
theorem graph_deleteEdge {o : Outcome EdgeRemoval}
    (h : BatchRun deleteEdge label index g edges o last) :
    o.failed = [] ∧ last = { g with edges := g.edges.filter (· ∉ edges) } := by
  induction h with
  | @done _ g =>
    have hall : g.edges.filter (· ∉ ([] : List Edge)) = g.edges :=
      List.filter_eq_self.mpr fun _ _ => rfl
    exact ⟨rfl, by rw [hall]⟩
  | @succeeds _ g _ _ e edges _ _ h _ ih =>
    obtain ⟨_, rfl⟩ := Prod.mk.inj (deleteEdge_eq_ok_iff.mp (Edit.onCopy_eq_ok_iff.mpr h))
    -- What is neither this edge nor one of the others is none of them all.
    have hboth : (g.edges.filter (· ≠ e)).filter (· ∉ edges) =
        g.edges.filter (· ∉ e :: edges) := by
      rw [List.filter_filter]
      refine List.filter_congr fun e' _ => ?_
      rw [Bool.eq_iff_iff, Bool.and_eq_true, decide_eq_true_iff, decide_eq_true_iff,
        decide_eq_true_iff, List.mem_cons, not_or, and_comm]
    exact ⟨ih.1, by rw [ih.2, hboth]⟩
  | fails h => nomatch h

end BatchRun

/-- **A batch of edges fails first where a run of checks on the graph before it fails.** -/
theorem first_addEdges (g : Graph) (edges : List Edge) :
    ItemFailure.first (g.addEdges edges).1.failed = edges.forM g.checkEdge :=
  (batchRun_batchFrom edges 0 g).first_addEdge

/-- Edges that pass the check are all added, in order. -/
theorem addEdges_of_checked {edges : List Edge} (h : ∀ e ∈ edges, g.checkEdge e = .ok ()) :
    (g.addEdges edges).1.failed = [] ∧
      (g.addEdges edges).2 = { g with edges := g.edges ++ edges } := by
  have hnone : (g.addEdges edges).1.failed = [] := by
    rw [← ItemFailure.first_eq_ok_iff, first_addEdges]
    exact forM_eq_ok_iff.mpr h
  exact ⟨hnone, (batchRun_batchFrom edges 0 g).graph_addEdge hnone⟩

/-- No edge of a batch fails exactly if all of them pass. -/
theorem failed_addEdges_eq_nil_iff {edges : List Edge} :
    (g.addEdges edges).1.failed = [] ↔ ∀ e ∈ edges, g.checkEdge e = .ok () := by
  rw [← ItemFailure.first_eq_ok_iff, first_addEdges]
  exact forM_eq_ok_iff

/-! ## Creating -/

/-- Adds a node and then edges by batches: the items that fail, in order, and the last graph. -/
def addByBatches (g : Graph) (node : Node) (edges : List Edge) : List ItemFailure × Graph :=
  let (ofNode, g) := g.addNodes [node]
  let (ofEdges, g) := g.addEdges edges
  (ofNode.failed ++ ofEdges.failed, g)

/-- **An entity is created as batches would do it**, and fails as their first failing item does. -/
theorem createEntity_eq {node : Node} {edges : List Edge}
    (hown : ∀ e ∈ edges, e.source = node.name) :
    g.createEntity node edges = (ItemFailure.first (g.addByBatches node edges).1).map fun _ =>
      (⟨node, distinct edges⟩, (g.addByBatches node (distinct edges)).2) := by
  -- If the node is refused, nothing else matters; otherwise the edges are checked in the graph with
  -- the node in it, here as in the batch.
  cases hadd : (addNode node).onCopy g with
  | error failure =>
    have hnode : g.addNodes [node] = (⟨[], [⟨0, node.name, failure⟩]⟩, g) :=
      batch_singleton_of_error ((checksFirst_addNode node).inPlace_of_error hadd)
    have hfirst : ItemFailure.first (g.addByBatches node edges).1 = .error failure := by
      rw [addByBatches, hnode]
      rfl
    rw [createEntity_eq_bind, hadd, hfirst]
    rfl
  | ok r =>
    obtain ⟨n, g'⟩ := r
    obtain rfl : n = node := congrArg Prod.fst (addNode_eq_ok_iff.mp hadd).2
    have hnode : g.addNodes [n] = (⟨[n], []⟩, g') :=
      batch_singleton_of_ok (Edit.onCopy_eq_ok_iff.mp hadd)
    have hfirst : ItemFailure.first (g.addByBatches n edges).1 = edges.forM g'.checkEdge := by
      rw [addByBatches, hnode]
      exact first_addEdges g' edges
    have hchecks : edges.forM (g'.checkOwnEdge n.name) = edges.forM g'.checkEdge :=
      forM_congr fun e he => if_neg (not_not.mpr (hown e he))
    rw [createEntity_eq_bind, hadd, hfirst]
    show (edges.forM (g'.checkOwnEdge n.name) >>= fun _ => _) = _
    rw [hchecks]
    cases hall : edges.forM g'.checkEdge with
    | error failure => rfl
    | ok _ =>
      have hdistinct : ∀ e ∈ distinct edges, g'.checkEdge e = .ok () :=
        fun e he => forM_eq_ok_iff.mp hall e (mem_distinct.mp he)
      have hgraph : (g.addByBatches n (distinct edges)).2 =
          { g' with edges := g'.edges ++ distinct edges } := by
        rw [addByBatches, hnode]
        exact (addEdges_of_checked hdistinct).2
      rw [hgraph]
      rfl

/-- **No item of the batches fails exactly if the entity can be created.** -/
theorem failed_addByBatches_eq_nil_iff {node : Node} {edges : List Edge}
    (hown : ∀ e ∈ edges, e.source = node.name) :
    (g.addByBatches node edges).1 = [] ↔ ∃ r, g.createEntity node edges = .ok r := by
  rw [createEntity_eq hown, ← ItemFailure.first_eq_ok_iff]
  cases ItemFailure.first (g.addByBatches node edges).1 with
  | error failure => exact ⟨(nomatch ·), fun ⟨_, h⟩ => nomatch h⟩
  | ok _ => exact ⟨fun _ => ⟨_, rfl⟩, fun _ => rfl⟩

/-- Repeated edges do not matter for whether an entity is created. -/
theorem exists_createEntity_distinct_iff {node : Node} {edges : List Edge} :
    (∃ r, g.createEntity node (distinct edges) = .ok r) ↔
      ∃ r, g.createEntity node edges = .ok r := by
  simp only [createEntity_eq_ok_iff, mem_distinct]
  constructor
  · rintro ⟨_, g', hadd, hchecks, _⟩
    exact ⟨_, g', hadd, hchecks, rfl⟩
  · rintro ⟨_, g', hadd, hchecks, _⟩
    exact ⟨_, g', hadd, hchecks, rfl⟩

/-! ## Relating -/

/-- Makes a relationship change by batches: deletes the edges of its kind that start at the node,
and then adds an edge to each target. -/
def changeByBatches (g : Graph) (name : String) (c : RelationshipChange) :
    List ItemFailure × Graph :=
  let (deleted, g) := g.deleteEdges (outgoing name c.kind g.edges)
  let (added, g) := g.addEdges (given name c)
  (deleted.failed ++ added.failed, g)

/-- Makes relationship changes by batches, one after another. -/
def relateByBatches (g : Graph) (name : String) : List RelationshipChange → List ItemFailure × Graph
  | [] => ([], g)
  | c :: changes =>
    let (failed, g) := g.changeByBatches name c
    let (rest, last) := g.relateByBatches name changes
    (failed ++ rest, last)

/-- Striking out the edges of a kind one by one is striking out all of them. -/
theorem filter_not_mem_outgoing (name kind : String) (edges : List Edge) :
    edges.filter (· ∉ outgoing name kind edges) =
      edges.filter fun e => ¬ (e.source = name ∧ e.kind = kind) := by
  refine List.filter_congr fun e he => ?_
  rw [decide_eq_decide, outgoing, List.mem_filter, decide_eq_true_iff, and_iff_right he]

/-- Deleting the outgoing edges of a kind fails nowhere, and leaves the others. -/
theorem deleteEdges_outgoing (g : Graph) (name kind : String) :
    (g.deleteEdges (outgoing name kind g.edges)).1.failed = [] ∧
      (g.deleteEdges (outgoing name kind g.edges)).2 =
        { g with edges := g.edges.filter fun e => ¬ (e.source = name ∧ e.kind = kind) } := by
  rw [← filter_not_mem_outgoing]
  exact (batchRun_batchFrom (outgoing name kind g.edges) 0 g).graph_deleteEdge

/-- A change fails nowhere if the edges that it brings in can be added; the old ones always go. -/
theorem failed_changeByBatches_eq_nil_iff {c : RelationshipChange} :
    (g.changeByBatches name c).1 = [] ↔ ∀ e ∈ given name c, g.checkEdge e = .ok () := by
  obtain ⟨hnone, hgraph⟩ := deleteEdges_outgoing g name c.kind
  show (g.deleteEdges (outgoing name c.kind g.edges)).1.failed ++
    ((g.deleteEdges (outgoing name c.kind g.edges)).2.addEdges (given name c)).1.failed = [] ↔ _
  rw [hnone, hgraph, List.nil_append]
  exact failed_addEdges_eq_nil_iff

/-- A change by batches that fails nowhere makes the edges that `relate` makes. -/
theorem graph_changeByBatches {c : RelationshipChange}
    (h : ∀ e ∈ given name c, g.checkEdge e = .ok ()) :
    (g.changeByBatches name c).2 = { g with edges := relate name g.edges c } := by
  obtain ⟨_, hgraph⟩ := deleteEdges_outgoing g name c.kind
  show ((g.deleteEdges (outgoing name c.kind g.edges)).2.addEdges (given name c)).2 = _
  rw [hgraph]
  -- The checks do not see which edges were struck out.
  have hstruck : ∀ e ∈ given name c, checkEdge { g with edges := g.edges.filter fun e =>
      ¬ (e.source = name ∧ e.kind = c.kind) } e = .ok () := h
  exact (addEdges_of_checked hstruck).2

/-- Several changes fail nowhere if all edges that they bring in can be added to the graph as it is
before them, since no change touches the nodes. -/
theorem failed_relateByBatches_eq_nil_iff (changes : List RelationshipChange) : ∀ g : Graph,
    (g.relateByBatches name changes).1 = [] ↔
      ∀ c ∈ changes, ∀ e ∈ given name c, g.checkEdge e = .ok () := by
  induction changes with
  | nil => exact fun g => ⟨fun _ c hc => absurd hc List.not_mem_nil, fun _ => rfl⟩
  | cons c changes ih =>
    intro g
    show (g.changeByBatches name c).1 ++
      ((g.changeByBatches name c).2.relateByBatches name changes).1 = [] ↔ _
    rw [List.append_eq_nil_iff, List.forall_mem_cons, failed_changeByBatches_eq_nil_iff, ih]
    refine and_congr_right fun hfirst => ?_
    rw [graph_changeByBatches hfirst]
    exact Iff.rfl

/-- Several such changes make the edges that they make one after another. -/
theorem graph_relateByBatches (changes : List RelationshipChange) : ∀ g : Graph,
    (∀ c ∈ changes, ∀ e ∈ given name c, g.checkEdge e = .ok ()) →
      (g.relateByBatches name changes).2 =
        { g with edges := changes.foldl (relate name) g.edges } := by
  induction changes with
  | nil => exact fun _ _ => rfl
  | cons c changes ih =>
    intro g h
    obtain ⟨hfirst, hrest⟩ := List.forall_mem_cons.mp h
    have hrest' : ∀ c' ∈ changes, ∀ e ∈ given name c',
        checkEdge { g with edges := relate name g.edges c } e = .ok () := hrest
    show ((g.changeByBatches name c).2.relateByBatches name changes).2 = _
    rw [graph_changeByBatches hfirst, ih _ hrest', List.foldl_cons]

/-- The edges that a change brings in can be added if they have a kind and known targets. -/
theorem checked_given_iff (hname : name ∈ g.names) {c : RelationshipChange} :
    (∀ e ∈ given name c, g.checkEdge e = .ok ()) ↔
      (∀ target ∈ c.targets, target = name ∨ target ∈ g.names) ∧
        (c.targets ≠ [] → Text.isBlank c.kind = false) := by
  have hedge : ∀ target, g.checkEdge ⟨name, target, c.kind⟩ = .ok () ↔
      (target = name ∨ target ∈ g.names) ∧ Text.isBlank c.kind = false := by
    intro target
    -- The entity itself is a node, so as a target it needs no mention.
    rw [checkEdge_eq_ok_iff, and_comm, and_iff_right hname]
    refine and_congr_left fun _ => ⟨Or.inr, fun h => ?_⟩
    rcases h with rfl | h
    · exact hname
    · exact h
  constructor
  · intro h
    have htargets : ∀ target ∈ c.targets,
        (target = name ∨ target ∈ g.names) ∧ Text.isBlank c.kind = false := fun target ht =>
      (hedge target).mp (h _ (List.mem_map_of_mem (mem_distinct.mpr ht)))
    refine ⟨fun target ht => (htargets target ht).1, fun hne => ?_⟩
    obtain ⟨target, ht⟩ := List.exists_mem_of_ne_nil _ hne
    exact (htargets target ht).2
  · rintro ⟨htargets, hkind⟩ e he
    obtain ⟨target, ht, rfl⟩ := List.mem_map.mp he
    have ht : target ∈ c.targets := mem_distinct.mp ht
    exact (hedge target).mpr ⟨htargets target ht, hkind (List.ne_nil_of_mem ht)⟩

end Graph

/-! ## Entities of a store -/

namespace Store

open GraphKeeper.Graph

variable {s : Store} {d : Disk}

/-- An entity that cannot be created leaves store and disk alone. -/
theorem change_of_createEntity_error {node : Node} {edges : List Edge} {failure : Failure}
    (h : s.graph.createEntity node edges = .error failure) :
    s.change d (.entity (.create node edges)) = (.error failure, s, d) := by
  refine change_of_error ?_
  rw [Change.apply, EntityChange.apply, h]
  rfl

/-- So does one that cannot be updated. -/
theorem change_of_updateEntity_error {u : EntityUpdate} {failure : Failure}
    (h : s.graph.updateEntity u = .error failure) :
    s.change d (.entity (.update u)) = (.error failure, s, d) := by
  refine change_of_error ?_
  rw [Change.apply, EntityChange.apply, h]
  rfl

/-- **An entity is created exactly if batches of its node and its edges do not fail anywhere.**
Then the graph is the one that batches make of the node and of the edges without repetitions.  If
some item of the batches fails, the first of them tells why the entity is not created, and store and
disk stay as they were.  So they do if an edge starts elsewhere, which no batch would mind. -/
theorem createEntity_byBatches (s : Store) (d : Disk) (node : Node) (edges : List Edge) :
    ((∀ e ∈ edges, e.source = node.name) →
      ((∃ r, s.graph.createEntity node edges = .ok r) ↔ (s.graph.addByBatches node edges).1 = []) ∧
      ((s.graph.addByBatches node edges).1 = [] →
        ∃ g, s.graph.addByBatches node (distinct edges) = ([], g) ∧
          s.graph.createEntity node edges = .ok (⟨node, distinct edges⟩, g)) ∧
      ∀ f rest, (s.graph.addByBatches node edges).1 = f :: rest →
        s.change d (.entity (.create node edges)) = (.error f.failure, s, d)) ∧
    ((∃ e ∈ edges, e.source ≠ node.name) →
      ∃ failure, s.change d (.entity (.create node edges)) = (.error failure, s, d)) := by
  constructor
  · intro hown
    refine ⟨(failed_addByBatches_eq_nil_iff hown).symm, fun hnone => ?_, fun f rest hfailed => ?_⟩
    · have hown' : ∀ e ∈ distinct edges, e.source = node.name :=
        fun e he => hown e (mem_distinct.mp he)
      have hnone' : (s.graph.addByBatches node (distinct edges)).1 = [] := by
        rw [failed_addByBatches_eq_nil_iff hown', exists_createEntity_distinct_iff]
        exact (failed_addByBatches_eq_nil_iff hown).mp hnone
      refine ⟨_, Prod.ext hnone' rfl, ?_⟩
      rw [createEntity_eq hown, hnone]
      rfl
    · refine change_of_createEntity_error ?_
      rw [createEntity_eq hown, hfailed]
      rfl
  -- The own check of an entity is made with all its edges, and refuses a foreign source.
  · rintro ⟨e, he, hsource⟩
    cases hcreate : s.graph.createEntity node edges with
    | error failure => exact ⟨failure, change_of_createEntity_error hcreate⟩
    | ok r =>
      obtain ⟨_, _, hchecks, _⟩ := createEntity_eq_ok_iff.mp hcreate
      exact absurd (hchecks e he).1 hsource

/-- A town, for somebody to live in. -/
def townStore : Store := ⟨"m", ⟨[⟨"Town", "place", []⟩], []⟩⟩

def ann : Node := ⟨"Ann", "npc", ["Role: smith"]⟩

/-- An edge that is given twice, and one that leads back. -/
def annEdges : List Edge :=
  [⟨"Ann", "Town", "lives_in"⟩, ⟨"Ann", "Ann", "knows"⟩, ⟨"Ann", "Town", "lives_in"⟩]

/-- Two edges that lead nowhere, behind one that does not. -/
def lostEdges : List Edge :=
  [⟨"Ann", "Town", "lives_in"⟩, ⟨"Ann", "Moon", "knows"⟩, ⟨"Ann", "Mars", "knows"⟩]

/-- No edge of the first list is refused. -/
theorem addByBatches_annEdges : (townStore.graph.addByBatches ann annEdges).1 = [] := by rfl

/-- Of the second list two are. -/
theorem addByBatches_lostEdges : (townStore.graph.addByBatches ann lostEdges).1 =
    [⟨1, "Ann -[knows]-> Moon", .notFound .node "Moon"⟩,
      ⟨2, "Ann -[knows]-> Mars", .notFound .node "Mars"⟩] := by rfl

/-- The first list is created, without the repeated edge; of the second the first failure is told;
an edge from elsewhere is refused. -/
theorem createEntity_byBatches_ann :
    townStore.graph.createEntity ann annEdges =
        .ok (⟨ann, [⟨"Ann", "Town", "lives_in"⟩, ⟨"Ann", "Ann", "knows"⟩]⟩,
          (townStore.graph.addByBatches ann (distinct annEdges)).2) ∧
      townStore.change .empty (.entity (.create ann lostEdges)) =
        (.error (.notFound .node "Moon"), townStore, .empty) ∧
      ∃ failure, townStore.change .empty (.entity (.create ann [⟨"Town", "Ann", "knows"⟩])) =
        (.error failure, townStore, .empty) := by
  obtain ⟨hown, _⟩ := createEntity_byBatches townStore .empty ann annEdges
  obtain ⟨hlost, _⟩ := createEntity_byBatches townStore .empty ann lostEdges
  obtain ⟨_, helsewhere⟩ :=
    createEntity_byBatches townStore .empty ann [⟨"Town", "Ann", "knows"⟩]
  refine ⟨?_, (hlost (by decide)).2.2 _ _ addByBatches_lostEdges, helsewhere (by decide)⟩
  obtain ⟨_, hbatches, hcreate⟩ := (hown (by decide)).2.1 addByBatches_annEdges
  have hdistinct : distinct annEdges =
      [⟨"Ann", "Town", "lives_in"⟩, ⟨"Ann", "Ann", "knows"⟩] := by decide
  rw [hcreate, hbatches, hdistinct]

/-- **An update of relationships and batches make the same of them, but for blank kinds.**  Take an
update of an entity that is there and of the kind expected, and that changes no metadata.  The
batches fail nowhere exactly if the update succeeds and all edges that it gives have a kind that is
not blank; then both leave the same graph.  An update that fails leaves store and disk as
they were. -/
theorem updateEntity_byBatches (d : Disk) {u : EntityUpdate} {node : Node}
    (hnode : s.graph.node? u.name = some node) (hkind : node.kind = u.kind)
    (hplain : u.metadata = []) :
    ((s.graph.relateByBatches u.name u.relationships).1 = [] ↔
      (∃ r, s.graph.updateEntity u = .ok r) ∧
        ∀ c ∈ u.relationships, c.targets ≠ [] → Text.isBlank c.kind = false) ∧
    ((s.graph.relateByBatches u.name u.relationships).1 = [] →
      s.graph.updateEntity u =
        .ok (node, (s.graph.relateByBatches u.name u.relationships).2)) ∧
    ∀ failure, s.graph.updateEntity u = .error failure →
      s.change d (.entity (.update u)) = (.error failure, s, d) := by
  have hname : u.name ∈ s.graph.names := mem_names_of_node? hnode
  -- An update looks for the node, its kind and the targets, and the first two are given.
  have hadmitted : (∃ r, s.graph.updateEntity u = .ok r) ↔
      ∀ c ∈ u.relationships, ∀ target ∈ c.targets, target = u.name ∨ target ∈ s.graph.names := by
    simp only [updateEntity_eq_ok_iff]
    constructor
    · rintro ⟨_, _, _, _, htargets, _⟩
      exact htargets
    · intro htargets
      exact ⟨_, node, hnode, hkind, htargets, rfl⟩
  have hiff : (s.graph.relateByBatches u.name u.relationships).1 = [] ↔
      (∃ r, s.graph.updateEntity u = .ok r) ∧
        ∀ c ∈ u.relationships, c.targets ≠ [] → Text.isBlank c.kind = false := by
    rw [failed_relateByBatches_eq_nil_iff, hadmitted, ← forall₂_and]
    exact forall₂_congr fun c _ => checked_given_iff hname
  refine ⟨hiff, fun hnone => ?_, fun failure => change_of_updateEntity_error⟩
  have hgraph := graph_relateByBatches u.relationships s.graph
    ((failed_relateByBatches_eq_nil_iff u.relationships s.graph).mp hnone)
  have hsame : s.graph.rewritten u = (s.graph.relateByBatches u.name u.relationships).2 :=
    (rewritten_of_plain hplain).trans hgraph.symm
  refine updateEntity_eq_ok_iff.mpr ⟨node, hnode, hkind, hadmitted.mp (hiff.mp hnone).1, ?_⟩
  rw [← hsame, updatedNode_of_plain hplain]
  rfl

/-- Somebody who knows a town and likes it. -/
def annAtHome : Store :=
  ⟨"m", ⟨[⟨"Ann", "npc", []⟩, ⟨"Town", "place", []⟩],
    [⟨"Ann", "Town", "knows"⟩, ⟨"Town", "Ann", "knows"⟩, ⟨"Ann", "Town", "likes"⟩]⟩⟩

/-- Gives edges of one kind twice, and none of a kind that is blank. -/
def annRelated : EntityUpdate :=
  ⟨"Ann", "npc", [], [⟨"knows", ["Town"]⟩, ⟨" ", []⟩, ⟨"knows", ["Ann", "Town", "Ann"]⟩]⟩

/-- The batches of this update fail nowhere. -/
theorem relateByBatches_annRelated :
    (annAtHome.graph.relateByBatches "Ann" annRelated.relationships).1 = [] := by rfl

/-- The later of two changes of a kind counts, and the blank one gives no edge. -/
theorem updateEntity_byBatches_ann :
    annAtHome.graph.node? "Ann" = some ⟨"Ann", "npc", []⟩ ∧
      (annAtHome.graph.relateByBatches "Ann" annRelated.relationships).2.edges =
        [⟨"Town", "Ann", "knows"⟩, ⟨"Ann", "Town", "likes"⟩, ⟨"Ann", "Ann", "knows"⟩,
          ⟨"Ann", "Town", "knows"⟩] ∧
      annAtHome.graph.updateEntity annRelated = .ok (⟨"Ann", "npc", []⟩,
        (annAtHome.graph.relateByBatches "Ann" annRelated.relationships).2) := by
  have hnode : annAtHome.graph.node? annRelated.name = some ⟨"Ann", "npc", []⟩ := by decide
  obtain ⟨_, hgraph, _⟩ := updateEntity_byBatches .empty hnode rfl rfl
  exact ⟨hnode, by decide, hgraph relateByBatches_annRelated⟩

/-- Somebody by herself. -/
def annAlone : Graph := ⟨[⟨"Ann", "npc", []⟩], []⟩

/-- An update of relationships is admitted exactly if batches make the same changes without a
failure. -/
def AgreesWithBatches (g : Graph) : Prop :=
  ∀ ⦃u : EntityUpdate⦄ ⦃node : Node⦄, g.node? u.name = some node → node.kind = u.kind →
    u.metadata = [] →
    ((∃ r, g.updateEntity u = .ok r) ↔ (g.relateByBatches u.name u.relationships).1 = [])

/-- **An update gives an entity an edge without a kind, which no batch adds.** -/
theorem not_agreesWithBatches_annAlone : annAlone.WellFormed ∧ ¬ AgreesWithBatches annAlone := by
  refine ⟨by decide, fun h => ?_⟩
  have hiff := @h ⟨"Ann", "npc", [], [⟨"", ["Ann"]⟩]⟩ ⟨"Ann", "npc", []⟩ rfl rfl rfl
  nomatch hiff.mp ⟨_, rfl⟩

end Store

end GraphKeeper
