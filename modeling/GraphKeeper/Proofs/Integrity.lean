/-
  Every change keeps a graph well formed.

  There are eleven changes with checks of their own, but only a few ways in which they touch the
  graph:
    * nodes change in place and keep their names (`WellFormed.modifyNode`);
    * edges are exchanged for others, the ends of which are names (`WellFormed.withEdges`);
    * a node with a new name is added (`WellFormed.addNode`);
    * a node goes, and with it all edges that touch it (`WellFormed.deleteNode`).
  So each single change is one of the laws of `GraphChanges` and one of these.  A batch is then
  no work: what every item keeps, the batch keeps (`batch_preserves`).  An item has to keep it
  where it fails, too; since the changes check before they write, there is nothing to show in that
  case (`preserves_of_ok`).
-/
import GraphKeeper.Graph.Report
import GraphKeeper.Proofs.GraphChanges

namespace GraphKeeper

namespace Graph

variable {g : Graph}

/-! ## The ways to touch a graph -/

namespace WellFormed

/-- Nothing but names and the ends of edges counts. -/
theorem of_names_eq {g' : Graph} (h : g.WellFormed) (hnames : g'.names = g.names)
    (hedges : ∀ e ∈ g'.edges, e.source ∈ g.names ∧ e.target ∈ g.names) : g'.WellFormed where
  nodup_names := hnames ▸ h.nodup_names
  source_mem := fun e he => hnames ▸ (hedges e he).1
  target_mem := fun e he => hnames ▸ (hedges e he).2

/-- Both ends of an edge are names. -/
theorem ends_mem (h : g.WellFormed) {e : Edge} (he : e ∈ g.edges) :
    e.source ∈ g.names ∧ e.target ∈ g.names :=
  ⟨h.source_mem e he, h.target_mem e he⟩

/-- A graph is well formed in any order of its nodes and edges. -/
theorem perm {g' : Graph} (h : g.WellFormed) (hnodes : g.nodes.Perm g'.nodes)
    (hedges : g.edges.Perm g'.edges) : g'.WellFormed := by
  have hnames : g.names.Perm g'.names := hnodes.map Node.name
  refine ⟨hnames.nodup_iff.mp h.nodup_names, fun e he => ?_, fun e he => ?_⟩
  · exact hnames.mem_iff.mp (h.source_mem e (hedges.mem_iff.mpr he))
  · exact hnames.mem_iff.mp (h.target_mem e (hedges.mem_iff.mpr he))

/-- Edges may be exchanged for any others between nodes of the graph. -/
theorem withEdges (h : g.WellFormed) {edges : List Edge}
    (hedges : ∀ e ∈ edges, e.source ∈ g.names ∧ e.target ∈ g.names) :
    WellFormed { g with edges } :=
  h.of_names_eq rfl hedges

/-- Nodes may change in all but their names. -/
theorem modifyNode (h : g.WellFormed) (name : String) {f : Node → Node}
    (hf : ∀ n, (f n).name = n.name) : (g.modifyNode name f).WellFormed :=
  h.of_names_eq (names_modifyNode hf) fun _ he => h.ends_mem he

/-- A node with a new name may be added. -/
theorem addNode (h : g.WellFormed) {node : Node} (hnew : node.name ∉ g.names) :
    WellFormed { g with nodes := g.nodes ++ [node] } := by
  have hnames : Graph.names { g with nodes := g.nodes ++ [node] } = g.names ++ [node.name] :=
    List.map_append
  refine ⟨?_, fun e he => ?_, fun e he => ?_⟩
  · rw [hnames]
    exact List.nodup_append'.mpr ⟨h.nodup_names, List.nodup_singleton _,
      List.disjoint_singleton.mpr hnew⟩
  · rw [hnames]
    exact List.mem_append_left _ (h.source_mem e he)
  · rw [hnames]
    exact List.mem_append_left _ (h.target_mem e he)

/-- A name stays unless it is the one that is deleted. -/
theorem mem_names_eraseP {name n : String} (hn : n ∈ g.names) (hne : n ≠ name) :
    n ∈ (g.nodes.eraseP (·.name == name)).map Node.name := by
  obtain ⟨node, hnode, rfl⟩ := List.mem_map.mp hn
  refine List.mem_map_of_mem ((List.mem_eraseP_of_neg ?_).mpr hnode)
  exact fun he => hne (eq_of_beq he)

/-- With distinct names, deleting the first node of a name deletes the name; but that is not even
needed here, since no edge that touches it is left. -/
theorem deleteNode (h : g.WellFormed) (name : String) :
    WellFormed ⟨g.nodes.eraseP (·.name == name), g.edges.filter fun e => !e.touches name⟩ := by
  -- An edge that is left has both ends at nodes that are left.
  have untouched : ∀ e ∈ g.edges.filter fun e => !e.touches name,
      e ∈ g.edges ∧ e.source ≠ name ∧ e.target ≠ name := by
    intro e he
    obtain ⟨he, htouch⟩ := List.mem_filter.mp he
    rw [Edge.touches, Bool.not_or, Bool.and_eq_true] at htouch
    exact ⟨he, by simpa using htouch.1, by simpa using htouch.2⟩
  refine ⟨?_, fun e he => ?_, fun e he => ?_⟩
  · exact h.nodup_names.sublist (List.eraseP_sublist.map _)
  · obtain ⟨he, hs, _⟩ := untouched e he
    exact mem_names_eraseP (h.source_mem e he) hs
  · obtain ⟨he, _, ht⟩ := untouched e he
    exact mem_names_eraseP (h.target_mem e he) ht

end WellFormed

/-! ## Single changes and batches -/

/-- A change that leads from graphs with a property only to graphs with that property, whether or
not it fails. -/
def Preserves {ι α : Type} (P : Graph → Prop) (step : ι → Edit Graph α) : Prop :=
  ∀ ⦃g item⦄, P g → P ((step item).inPlace g).2

section Preserves

variable {ι α : Type} {P : Graph → Prop} {step : ι → Edit Graph α}

/-- A change that checks before it writes keeps what it keeps where it succeeds. -/
theorem preserves_of_ok (hfirst : ∀ item, (step item).ChecksFirst)
    (hok : ∀ ⦃g item r⦄, P g → (step item).onCopy g = .ok r → P r.2) : Preserves P step := by
  intro g item hg
  rcases h : (step item).inPlace g with ⟨failure | report, met⟩
  · rw [hfirst item g failure met h]
    exact hg
  · exact hok hg (Edit.onCopy_eq_ok_iff.mpr h)

/-- What the change keeps in place it keeps on a copy. -/
theorem Preserves.onCopy (hstep : Preserves P step) {g : Graph} {item : ι} {r : α × Graph}
    (hg : P g)
    (h : (step item).onCopy g = .ok r) : P r.2 := by
  have hkept : P ((step item).inPlace g).2 := hstep hg
  rw [Edit.onCopy_eq_ok_iff.mp h] at hkept
  exact hkept

/-- What every item keeps, the batch keeps, whichever items fail. -/
theorem batchFrom_preserves (hstep : Preserves P step) (label : ι → String) (items : List ι) :
    ∀ (index : Nat) {g : Graph}, P g → P (batchFrom step label index items g).2 := by
  induction items with
  | nil => intro index g hg; exact hg
  | cons item items ih =>
    intro index g hg
    rw [batchFrom]
    exact ih (index + 1) (hstep hg)

/-- So does the batch as a whole. -/
theorem batch_preserves (hstep : Preserves P step) {label : ι → String} {items : List ι}
    (hg : P g) : P (batch step label items g).2 :=
  batchFrom_preserves hstep label items 0 hg

end Preserves

/-- The name of a new node was looked for. -/
theorem addNode_preserves : Preserves WellFormed addNode := by
  refine preserves_of_ok checksFirst_addNode ?_
  intro g node r hg h
  obtain ⟨⟨_, _, hnew⟩, rfl⟩ := addNode_eq_ok_iff.mp h
  exact hg.addNode hnew

/-- An update keeps the name. -/
theorem updateNode_preserves : Preserves WellFormed updateNode := by
  refine preserves_of_ok checksFirst_updateNode ?_
  intro g u r hg h
  obtain ⟨node, _, _, rfl⟩ := updateNode_eq_ok_iff.mp h
  exact hg.modifyNode u.name fun _ => rfl

/-- No edge outlives its node. -/
theorem deleteNode_preserves : Preserves WellFormed deleteNode := by
  refine preserves_of_ok checksFirst_deleteNode ?_
  intro g name r hg h
  obtain ⟨_, rfl⟩ := deleteNode_eq_ok_iff.mp h
  exact hg.deleteNode name

/-- The ends of a new edge were looked for. -/
theorem addEdge_preserves : Preserves WellFormed addEdge := by
  refine preserves_of_ok checksFirst_addEdge ?_
  intro g e r hg h
  obtain ⟨hcheck, rfl⟩ := addEdge_eq_ok_iff.mp h
  refine hg.withEdges fun e' he' => ?_
  rcases List.mem_append.mp he' with he' | he'
  · exact hg.ends_mem he'
  · rw [List.mem_singleton.mp he']
    exact (checkEdge_eq_ok_iff.mp hcheck).2

/-- So were those of what replaces edges. -/
theorem updateEdge_preserves : Preserves WellFormed updateEdge := by
  refine preserves_of_ok checksFirst_updateEdge ?_
  intro g u r hg h
  obtain ⟨_, hcheck, rfl⟩ := updateEdge_eq_ok_iff.mp h
  refine hg.withEdges fun e' he' => ?_
  obtain ⟨e, he, rfl⟩ := List.mem_map.mp he'
  -- The edge is the replacement, or one that the update does not match.
  split
  · exact (checkEdge_eq_ok_iff.mp hcheck).2
  · exact hg.ends_mem he

/-- Fewer edges are still between nodes of the graph. -/
theorem deleteEdge_preserves : Preserves WellFormed deleteEdge := by
  refine preserves_of_ok checksFirst_deleteEdge ?_
  intro g e r hg h
  cases deleteEdge_eq_ok_iff.mp h
  exact hg.withEdges fun e' he' => hg.ends_mem (List.mem_of_mem_filter he')

/-- Lines are no names. -/
theorem addLines_preserves : Preserves WellFormed addLines := by
  refine preserves_of_ok checksFirst_addLines ?_
  intro g a r hg h
  obtain ⟨node, _, rfl⟩ := addLines_eq_ok_iff.mp h
  exact hg.modifyNode a.name fun _ => rfl

/-- The same holds for lines that are removed. -/
theorem deleteLines_preserves : Preserves WellFormed deleteLines := by
  refine preserves_of_ok checksFirst_deleteLines ?_
  intro g a r hg h
  obtain ⟨node, _, rfl⟩ := deleteLines_eq_ok_iff.mp h
  exact hg.modifyNode a.name fun _ => rfl

/-! ## Entities -/

/-- An entity is added with its edges, after both have been checked. -/
theorem createEntity_wellFormed {node : Node} {edges : List Edge} {r : EntityCreation × Graph}
    (hg : g.WellFormed) (h : g.createEntity node edges = .ok r) : r.2.WellFormed := by
  obtain ⟨g', hadd, hchecks, rfl⟩ := createEntity_eq_ok_iff.mp h
  have hg' : g'.WellFormed := addNode_preserves.onCopy hg hadd
  -- The edges were checked against `g'`, so they may start and end at the new node.
  refine hg'.withEdges fun e he => ?_
  rcases List.mem_append.mp he with he | he
  · exact hg'.ends_mem he
  · exact (checkEdge_eq_ok_iff.mp (hchecks e (mem_distinct.mp he)).2).2

/-- An edge after `relate` was there before or leads from the entity to a target. -/
theorem mem_relate {name : String} {edges : List Edge} {change : RelationshipChange} {e : Edge}
    (he : e ∈ relate name edges change) :
    e ∈ edges ∨ ∃ target ∈ change.targets, e = ⟨name, target, change.kind⟩ := by
  rcases List.mem_append.mp he with he | he
  · exact Or.inl (List.mem_of_mem_filter he)
  · obtain ⟨target, ht, rfl⟩ := List.mem_map.mp he
    exact Or.inr ⟨target, mem_distinct.mp ht, rfl⟩

/-- The targets of all changes were checked beforehand, so each change may add its edges. -/
theorem foldl_relate_ends {name : String} (hname : name ∈ g.names)
    (changes : List RelationshipChange)
    (htargets : ∀ change ∈ changes, ∀ target ∈ change.targets, target = name ∨ target ∈ g.names) :
    ∀ {edges : List Edge}, (∀ e ∈ edges, e.source ∈ g.names ∧ e.target ∈ g.names) →
      ∀ e ∈ changes.foldl (relate name) edges, e.source ∈ g.names ∧ e.target ∈ g.names := by
  induction changes with
  | nil => intro edges hedges; exact hedges
  | cons change changes ih =>
    intro edges hedges
    refine ih (fun c hc => htargets c (List.mem_cons_of_mem _ hc)) fun e he => ?_
    rcases mem_relate he with he | ⟨target, ht, rfl⟩
    · exact hedges e he
    · rcases htargets change List.mem_cons_self target ht with rfl | ht
      · exact ⟨hname, hname⟩
      · exact ⟨hname, ht⟩

/-- An update changes one node in place, and edges that start there. -/
theorem updateEntity_wellFormed {u : EntityUpdate} {r : Node × Graph} (hg : g.WellFormed)
    (h : g.updateEntity u = .ok r) : r.2.WellFormed := by
  obtain ⟨node, hnode, _, htargets, rfl⟩ := updateEntity_eq_ok_iff.mp h
  have hnames : (g.modifyNode u.name (updatedNode u)).names = g.names :=
    names_modifyNode fun _ => rfl
  refine hg.of_names_eq hnames ?_
  exact foldl_relate_ends (mem_names_of_node? hnode) u.relationships htargets
    fun e he => hg.ends_mem he

/-- Deleting an entity is deleting its node. -/
theorem deleteEntity_wellFormed {name kind : String} {r : NodeRemoval × Graph}
    (hg : g.WellFormed) (h : g.deleteEntity name kind = .ok r) : r.2.WellFormed :=
  deleteNode_preserves.onCopy hg (deleteEntity_eq_ok_iff.mp h).2

end Graph

/-! ## All changes -/

/-- What came of a change of an entity, apart from the wording of its report. -/
theorem Report.ofEntity_eq_ok {α : Type} {report : α → Report} {result : Except Failure (α × Graph)}
    {r : Report × Graph} (h : Report.ofEntity report result = .ok r) :
    ∃ a, result = .ok (a, r.2) ∧ r.1 = report a := by
  cases result with
  | error failure => nomatch h
  | ok p =>
    cases h
    exact ⟨p.1, rfl, rfl⟩

/-- The three changes of entities, whatever they report. -/
theorem EntityChange.apply_wellFormed {g : Graph} {c : EntityChange} {r : Report × Graph}
    (hg : g.WellFormed) (h : c.apply g = .ok r) : r.2.WellFormed := by
  cases c with
  | create node edges =>
    rw [EntityChange.apply] at h
    obtain ⟨_, hr, _⟩ := Report.ofEntity_eq_ok h
    exact Graph.createEntity_wellFormed hg hr
  | update u =>
    rw [EntityChange.apply] at h
    obtain ⟨_, hr, _⟩ := Report.ofEntity_eq_ok h
    exact Graph.updateEntity_wellFormed hg hr
  | delete name kind =>
    rw [EntityChange.apply] at h
    obtain ⟨_, hr, _⟩ := Report.ofEntity_eq_ok h
    exact Graph.deleteEntity_wellFormed hg hr

/-- **Every change keeps a graph well formed.** -/
theorem Change.apply_wellFormed {g : Graph} {c : Change} {r : Report × Graph}
    (hg : g.WellFormed) (h : c.apply g = .ok r) : r.2.WellFormed := by
  -- A batch keeps what each of its items keeps.
  cases c with
  | addNodes nodes => cases h; exact Graph.batch_preserves Graph.addNode_preserves hg
  | updateNodes updates => cases h; exact Graph.batch_preserves Graph.updateNode_preserves hg
  | deleteNodes names => cases h; exact Graph.batch_preserves Graph.deleteNode_preserves hg
  | addEdges edges => cases h; exact Graph.batch_preserves Graph.addEdge_preserves hg
  | updateEdges updates => cases h; exact Graph.batch_preserves Graph.updateEdge_preserves hg
  | deleteEdges edges => cases h; exact Graph.batch_preserves Graph.deleteEdge_preserves hg
  | addMetadata additions => cases h; exact Graph.batch_preserves Graph.addLines_preserves hg
  | deleteMetadata deletions => cases h; exact Graph.batch_preserves Graph.deleteLines_preserves hg
  | entity change => exact EntityChange.apply_wellFormed hg h

end GraphKeeper
