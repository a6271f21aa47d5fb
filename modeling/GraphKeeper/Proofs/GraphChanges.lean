/-
  What it takes for a change of a graph to succeed, and what it then leaves.

  Each single change and each change of an entity has one law: it succeeds exactly when its checks
  pass, and then its report and the changed graph are the ones given.  The laws speak of the names
  of the graph (`n ∈ g.names`), not of how a node is looked up.  Whoever needs a change later cites
  its law and does not open its definition.

  A single change is an edit, whose text is a sequence of checks and writes.  What the whole of it
  comes to on a copy is worked out step by step (`onCopy_addNode` and its like); the laws are read
  off that.  Where it fails, it has written nothing yet (`checksFirst_addNode` and its like): all
  eight make their checks before their first write.

  Changes look for the first node of a name.  Where names are distinct it is the only one, so a
  change of it is a `map` of the nodes (`modifyFirst_eq_map`), and striking it out is a `filter`
  (`eraseP_eq_filter`).
-/
import GraphKeeper.Graph.Entity
import GraphKeeper.Proofs.Edits

namespace GraphKeeper

/-- The node with the values of the update. -/
def NodeUpdate.apply (u : NodeUpdate) (node : Node) : Node :=
  { node with
    kind := u.kind.getD node.kind
    metadata := Metadata.merge node.metadata (u.metadata.getD []) }

namespace Graph

variable {g : Graph} {name kind : String}

/-! ## Names and nodes -/

/-- A name is found exactly when a node has it. -/
theorem node?_isSome_iff : (g.node? name).isSome = true ↔ name ∈ g.names := by
  rw [node?, List.find?_isSome, names, List.mem_map]
  constructor
  · rintro ⟨n, hn, he⟩
    exact ⟨n, hn, eq_of_beq he⟩
  · rintro ⟨n, hn, rfl⟩
    exact ⟨n, hn, beq_self_eq_true n.name⟩

theorem hasNode_iff : g.hasNode name = true ↔ name ∈ g.names := node?_isSome_iff

theorem hasNode_eq_false_iff : g.hasNode name = false ↔ name ∉ g.names := by
  rw [← hasNode_iff, Bool.not_eq_true]

theorem mem_names_of_node? {node : Node} (h : g.node? name = some node) : name ∈ g.names :=
  node?_isSome_iff.mp (by rw [h]; rfl)

/-- What is found under a name has that name. -/
theorem name_of_node? {node : Node} (h : g.node? name = some node) : node.name = name := by
  simpa using List.find?_some h

/-- Nothing is found under a name that no node has. -/
theorem node?_eq_none_iff : g.node? name = none ↔ name ∉ g.names := by
  rw [← node?_isSome_iff, Bool.not_eq_true, Option.isSome_eq_false_iff, Option.isNone_iff_eq_none]

/-- A change that keeps the names of nodes keeps those of the graph. -/
theorem names_modifyNode {f : Node → Node} (hf : ∀ n, (f n).name = n.name) :
    (g.modifyNode name f).names = g.names :=
  map_modifyFirst hf g.nodes

/-- What is found under the name after the change is what was found before it, changed. -/
theorem node?_modifyNode {f : Node → Node} (hf : ∀ n, (f n).name = n.name) :
    (g.modifyNode name f).node? name = (g.node? name).map f :=
  find?_modifyFirst (fun n => by rw [hf n]) g.nodes

/-- A node at the end is found when none in front of it has the name. -/
theorem node?_append_self {node : Node} {edges : List Edge} (h : node.name ∉ g.names) :
    node? ⟨g.nodes ++ [node], edges⟩ node.name = some node := by
  have hnone : g.nodes.find? (·.name == node.name) = none := node?_eq_none_iff.mpr h
  rw [node?, List.find?_append, hnone, Option.none_or]
  exact List.find?_cons_of_pos (beq_self_eq_true node.name)

/-- What is done to the node of one name is not noticed under another. -/
theorem node?_modifyNode_of_ne {other : String} {f : Node → Node} (hf : ∀ n, (f n).name = n.name)
    (hne : name ≠ other) : (g.modifyNode name f).node? other = g.node? other := by
  have hother : ∀ n : Node, (n.name == name) = true → ¬ (n.name == other) = true :=
    fun n hname hother => hne ((eq_of_beq hname).symm.trans (eq_of_beq hother))
  exact find?_modifyFirst_of_other hother (fun n => by rw [hf n]) g.nodes

/-! ## The only node of a name -/

/-- Behind a node of a name there is no other one. -/
theorem name_ne_of_nodup {n m : Node} {nodes : List Node}
    (h : ((n :: nodes).map Node.name).Nodup) (hn : n.name = name) (hm : m ∈ nodes) :
    m.name ≠ name := by
  rintro rfl
  exact (List.nodup_cons.mp h).1 (hn ▸ List.mem_map_of_mem hm)

/-- Where names are distinct, the first node of a name is every node of that name. -/
theorem modifyFirst_eq_map {f : Node → Node} {nodes : List Node}
    (h : (nodes.map Node.name).Nodup) :
    modifyFirst (·.name == name) f nodes = nodes.map fun n => if n.name = name then f n else n := by
  induction nodes with
  | nil => rfl
  | cons n nodes ih =>
    by_cases hn : n.name = name
    · -- The node stands here, so the map leaves all that is behind it alone.
      have hrest : nodes.map (fun n => if n.name = name then f n else n) = nodes :=
        (List.map_congr_left fun _ hm => if_neg (name_ne_of_nodup h hn hm)).trans
          (List.map_id' nodes)
      rw [modifyFirst, if_pos (beq_iff_eq.mpr hn), List.map_cons, if_pos hn, hrest]
    · rw [modifyFirst, if_neg (mt beq_iff_eq.mp hn), List.map_cons, if_neg hn,
        ih (List.nodup_cons.mp h).2]

/-- Where names are distinct, striking out the first node of a name strikes out all of them. -/
theorem eraseP_eq_filter {nodes : List Node} (h : (nodes.map Node.name).Nodup) :
    nodes.eraseP (·.name == name) = nodes.filter (·.name ≠ name) := by
  induction nodes with
  | nil => rfl
  | cons n nodes ih =>
    -- The walk strikes out the node and stops; the filter goes on and finds no other one.
    by_cases hn : n.name = name
    · have hrest : nodes.filter (·.name ≠ name) = nodes :=
        List.filter_eq_self.mpr fun _ hm => decide_eq_true (name_ne_of_nodup h hn hm)
      rw [List.filter_cons_of_neg (by simpa using hn), hrest]
      exact List.eraseP_cons_of_pos (p := fun n : Node => n.name == name) (beq_iff_eq.mpr hn)
    · rw [List.filter_cons_of_pos (by simpa using hn), ← ih (List.nodup_cons.mp h).2]
      exact List.eraseP_cons_of_neg (p := fun n : Node => n.name == name) (mt beq_iff_eq.mp hn)

/-- A node of a well-formed graph is the one that is found under its name. -/
theorem eq_of_node? {n node : Node} (h : g.WellFormed) (hnode : g.node? name = some node)
    (hn : n ∈ g.nodes) (hname : n.name = name) : n = node := by
  exact List.inj_on_of_nodup_map h.nodup_names hn (List.mem_of_find?_eq_some hnode)
    (hname.trans (name_of_node? hnode).symm)

/-- Each node of a well-formed graph is found under its name. -/
theorem node?_of_mem {n : Node} (h : g.WellFormed) (hn : n ∈ g.nodes) :
    g.node? n.name = some n := by
  have hfound : (g.node? n.name).isSome = true := node?_isSome_iff.mpr (List.mem_map_of_mem hn)
  obtain ⟨node, hnode⟩ := Option.isSome_iff_exists.mp hfound
  rw [hnode, eq_of_node? h hnode hn rfl]

/-! ## Single changes -/

/-- Adding a node checks its name, then its kind, then whether the name is taken. -/
theorem onCopy_addNode {node : Node} :
    (addNode node).onCopy g =
      if Text.isBlank node.name then .error (.blank "name")
      else if Text.isBlank node.kind then .error (.blank "nodeType")
      else if g.hasNode node.name then .error (.nodeExists node.name)
      else .ok (node, { g with nodes := g.nodes ++ [node] }) := by
  -- Two checks of the node alone, a look at the graph, and a check against it.
  rw [addNode, Edit.onCopy_refuseIf_bind, Edit.onCopy_refuseIf_bind, Edit.onCopy_get_bind,
    Edit.onCopy_refuseIf_bind]
  rfl

/-- A node is added exactly when its name and kind are not blank and its name is new; it then stands
behind all others. -/
theorem addNode_eq_ok_iff {node : Node} {r : Node × Graph} :
    (addNode node).onCopy g = .ok r ↔
      (Text.isBlank node.name = false ∧ Text.isBlank node.kind = false ∧ node.name ∉ g.names) ∧
        r = (node, { g with nodes := g.nodes ++ [node] }) := by
  rw [← hasNode_eq_false_iff, onCopy_addNode]
  cases Text.isBlank node.name <;> cases Text.isBlank node.kind <;>
    cases g.hasNode node.name <;> simp [eq_comm]

/-- Both writes of an update together come to `NodeUpdate.apply`. -/
theorem onCopy_updateNode {u : NodeUpdate} :
    (updateNode u).onCopy g =
      match g.node? u.name with
      | none => .error (.notFound .node u.name)
      | some node =>
        if u.kind.any Text.isBlank then .error (.blank "nodeType")
        else .ok (u.apply node, g.modifyNode u.name u.apply) := by
  rw [updateNode, onCopy_onNode]
  cases hnode : g.node? u.name with
  | none => rfl
  | some node =>
    show (Edit.onCopy node _).map _ = _
    rw [modifyNode_eq_of_node? hnode]
    -- The text of the update has a branch for each part that may be left out.
    obtain ⟨name, kind, metadata⟩ := u
    cases kind with
    | none => cases metadata <;> rfl
    | some kind =>
      show (Edit.onCopy node (Edit.refuseIf (Text.isBlank kind) _ >>= fun _ => _)).map _ = _
      rw [Edit.onCopy_refuseIf_bind]
      show _ = if Text.isBlank kind = true then _ else _
      cases Text.isBlank kind <;> cases metadata <;> rfl

/-- A node is updated exactly when it is there and its new kind, if any, is not blank. -/
theorem updateNode_eq_ok_iff {u : NodeUpdate} {r : Node × Graph} :
    (updateNode u).onCopy g = .ok r ↔
      ∃ node, g.node? u.name = some node ∧ u.kind.any Text.isBlank = false ∧
        r = (u.apply node, g.modifyNode u.name u.apply) := by
  rw [onCopy_updateNode]
  cases g.node? u.name with
  | none => simp
  | some node => cases u.kind.any Text.isBlank <;> simp [eq_comm]

/-- Deleting a node counts the edges that are left after it against those before it. -/
theorem onCopy_deleteNode :
    (deleteNode name).onCopy g =
      if !g.hasNode name then .error (.notFound .node name)
      else .ok (⟨name, g.edges.length - (g.edges.filter fun e => !e.touches name).length⟩,
          ⟨g.nodes.eraseP (·.name == name), g.edges.filter fun e => !e.touches name⟩) := by
  rw [deleteNode, Edit.onCopy_get_bind, Edit.onCopy_refuseIf_bind]
  rfl

/-- A node is deleted exactly when it is there, and all edges that touch it go with it. -/
theorem deleteNode_eq_ok_iff {r : NodeRemoval × Graph} :
    (deleteNode name).onCopy g = .ok r ↔
      name ∈ g.names ∧
        r = (⟨name, g.edges.length - (g.edges.filter fun e => !e.touches name).length⟩,
          ⟨g.nodes.eraseP (·.name == name), g.edges.filter fun e => !e.touches name⟩) := by
  rw [← hasNode_iff, onCopy_deleteNode]
  cases g.hasNode name <;> simp [eq_comm]

/-- An edge is admitted exactly when it has a kind and its ends are nodes of the graph. -/
theorem checkEdge_eq_ok_iff {e : Edge} :
    g.checkEdge e = .ok () ↔
      Text.isBlank e.kind = false ∧ e.source ∈ g.names ∧ e.target ∈ g.names := by
  rw [← hasNode_iff, ← hasNode_iff, checkEdge]
  cases Text.isBlank e.kind <;> cases g.hasNode e.source <;> cases g.hasNode e.target <;> simp

/-- Adding an edge is its check and one write. -/
theorem onCopy_addEdge {e : Edge} :
    (addEdge e).onCopy g =
      g.checkEdge e >>= fun _ => .ok (e, { g with edges := g.edges ++ [e] }) := by
  rw [addEdge, Edit.onCopy_check_bind]
  rfl

/-- An edge is added exactly when it is admitted; it then stands behind all others. -/
theorem addEdge_eq_ok_iff {e : Edge} {r : Edge × Graph} :
    (addEdge e).onCopy g = .ok r ↔
      g.checkEdge e = .ok () ∧ r = (e, { g with edges := g.edges ++ [e] }) := by
  rw [onCopy_addEdge, bind_eq_ok_iff]
  constructor
  · rintro ⟨_, h, hr⟩
    cases hr
    exact ⟨h, rfl⟩
  · rintro ⟨h, rfl⟩
    exact ⟨(), h, rfl⟩

/-- An update of edges looks for one that matches before it checks what is to stand there. -/
theorem onCopy_updateEdge {u : EdgeUpdate} :
    (updateEdge u).onCopy g =
      if !g.edges.any u.isMatch then .error (.notFound .edge u.edge.label)
      else g.checkEdge u.replacement >>= fun _ =>
        .ok (⟨u.replacement, g.edges.countP u.isMatch⟩,
          { g with edges := g.edges.map fun e => if u.isMatch e then u.replacement else e }) := by
  rw [updateEdge, Edit.onCopy_get_bind, Edit.onCopy_refuseIf_bind, Edit.onCopy_check_bind]
  rfl

/-- Edges are replaced exactly when one of them matches and the replacement is admitted. -/
theorem updateEdge_eq_ok_iff {u : EdgeUpdate} {r : EdgeReplacement × Graph} :
    (updateEdge u).onCopy g = .ok r ↔
      g.edges.any u.isMatch = true ∧ g.checkEdge u.replacement = .ok () ∧
        r = (⟨u.replacement, g.edges.countP u.isMatch⟩,
          { g with edges := g.edges.map fun e => if u.isMatch e then u.replacement else e }) := by
  rw [onCopy_updateEdge]
  cases h : g.edges.any u.isMatch with
  | false =>
    constructor
    · intro hr; nomatch hr
    · rintro ⟨hr, _⟩; nomatch hr
  | true =>
    -- Some edge matches, so it is left to the check of the replacement.
    show (g.checkEdge u.replacement >>= fun _ => _) = .ok r ↔ _
    rw [bind_eq_ok_iff]
    constructor
    · rintro ⟨_, hc, hr⟩
      cases hr
      exact ⟨rfl, hc, rfl⟩
    · rintro ⟨_, hc, rfl⟩
      exact ⟨(), hc, rfl⟩

/-- Deleting edges checks nothing. -/
theorem onCopy_deleteEdge {e : Edge} :
    (deleteEdge e).onCopy g = .ok (⟨e, g.edges.length - (g.edges.filter (· ≠ e)).length⟩,
        { g with edges := g.edges.filter (· ≠ e) }) := rfl

/-- Edges are deleted in any case; there may be none to delete. -/
theorem deleteEdge_eq_ok_iff {e : Edge} {r : EdgeRemoval × Graph} :
    (deleteEdge e).onCopy g = .ok r ↔
      r = (⟨e, g.edges.length - (g.edges.filter (· ≠ e)).length⟩,
        { g with edges := g.edges.filter (· ≠ e) }) := by
  rw [onCopy_deleteEdge]
  exact ⟨fun h => (Except.ok.inj h).symm, fun h => congrArg _ h.symm⟩

/-- Adding lines looks for the node and writes its lines once. -/
theorem onCopy_addLines {a : NodeLines} :
    (addLines a).onCopy g =
      match g.node? a.name with
      | none => .error (.notFound .node a.name)
      | some node => .ok (⟨a.name, (Metadata.addMissing node.metadata a.lines).1⟩,
          g.modifyNode a.name fun n =>
            { n with metadata := (Metadata.addMissing n.metadata a.lines).2 }) := by
  rw [addLines, onCopy_onNode]
  cases hnode : g.node? a.name with
  | none => rfl
  | some node =>
    rw [modifyNode_eq_of_node? hnode]
    rfl

/-- Lines are added exactly when their node is there. -/
theorem addLines_eq_ok_iff {a : NodeLines} {r : NodeLines × Graph} :
    (addLines a).onCopy g = .ok r ↔
      ∃ node, g.node? a.name = some node ∧
        r = (⟨a.name, (Metadata.addMissing node.metadata a.lines).1⟩,
          g.modifyNode a.name fun n =>
            { n with metadata := (Metadata.addMissing n.metadata a.lines).2 }) := by
  rw [onCopy_addLines]
  cases g.node? a.name <;> simp [eq_comm]

/-- Removing lines looks for the node and writes its lines once. -/
theorem onCopy_deleteLines {a : NodeLines} :
    (deleteLines a).onCopy g =
      match g.node? a.name with
      | none => .error (.notFound .node a.name)
      | some node => .ok (⟨a.name, (Metadata.remove node.metadata a.lines).1⟩,
          g.modifyNode a.name fun n =>
            { n with metadata := (Metadata.remove n.metadata a.lines).2 }) := by
  rw [deleteLines, onCopy_onNode]
  cases hnode : g.node? a.name with
  | none => rfl
  | some node =>
    rw [modifyNode_eq_of_node? hnode]
    rfl

/-- Lines are removed exactly when their node is there, whether or not it has them. -/
theorem deleteLines_eq_ok_iff {a : NodeLines} {r : NodeLines × Graph} :
    (deleteLines a).onCopy g = .ok r ↔
      ∃ node, g.node? a.name = some node ∧
        r = (⟨a.name, (Metadata.remove node.metadata a.lines).1⟩,
          g.modifyNode a.name fun n =>
            { n with metadata := (Metadata.remove n.metadata a.lines).2 }) := by
  rw [onCopy_deleteLines]
  cases g.node? a.name <;> simp [eq_comm]

/-! ## Single changes check before they write -/

/-- All three checks of a new node stand in front of the write. -/
theorem checksFirst_addNode (node : Node) : (addNode node).ChecksFirst := by
  refine (Edit.reads_refuseIf _).bind fun _ => (Edit.reads_refuseIf _).bind fun _ => ?_
  refine Edit.reads_get.bind fun g => (Edit.reads_refuseIf _).bind fun _ => ?_
  exact ((Edit.neverFails_modify _).bind fun _ => Edit.neverFails_pure node).checksFirst

/-- The kind is checked before it is written, and merging metadata cannot fail after that. -/
theorem checksFirst_updateNode (u : NodeUpdate) : (updateNode u).ChecksFirst := by
  refine checksFirst_onNode ?_
  -- One case for each part that may be left out; only the kind has a check, and it comes first.
  obtain ⟨name, kind, lines⟩ := u
  rcases kind with _ | kind <;> rcases lines with _ | lines
  · exact Edit.neverFails_get.checksFirst
  · exact ((Edit.neverFails_modify _).bind fun _ => Edit.neverFails_get).checksFirst
  · refine (Edit.reads_refuseIf _).bind fun _ => ?_
    exact ((Edit.neverFails_modify _).bind fun _ => Edit.neverFails_get).checksFirst
  · refine (Edit.reads_refuseIf _).bind fun _ => ?_
    exact ((Edit.neverFails_modify _).bind fun _ =>
      (Edit.neverFails_modify _).bind fun _ => Edit.neverFails_get).checksFirst

/-- The node is looked for before it is struck out, and its edges go without a check. -/
theorem checksFirst_deleteNode (name : String) : (deleteNode name).ChecksFirst := by
  refine Edit.reads_get.bind fun g => (Edit.reads_refuseIf _).bind fun _ => ?_
  refine Edit.NeverFails.checksFirst ((Edit.neverFails_modify _).bind fun _ => ?_)
  refine Edit.neverFails_get.bind fun g' => (Edit.neverFails_modify _).bind fun _ => ?_
  exact Edit.neverFails_get.bind fun last => Edit.neverFails_pure _

/-- An edge is checked at both ends and for its kind, and then written. -/
theorem checksFirst_addEdge (e : Edge) : (addEdge e).ChecksFirst := by
  refine (Edit.reads_check _).bind fun _ => ?_
  exact ((Edit.neverFails_modify _).bind fun _ => Edit.neverFails_pure e).checksFirst

/-- Both the edge to be replaced and its replacement are checked before any edge is written. -/
theorem checksFirst_updateEdge (u : EdgeUpdate) : (updateEdge u).ChecksFirst := by
  refine Edit.reads_get.bind fun g => (Edit.reads_refuseIf _).bind fun _ => ?_
  refine (Edit.reads_check _).bind fun _ => Edit.reads_get.bind fun met => ?_
  exact ((Edit.neverFails_modify _).bind fun _ => Edit.neverFails_pure _).checksFirst

theorem checksFirst_deleteEdge (e : Edge) : (deleteEdge e).ChecksFirst := by
  refine Edit.reads_get.bind fun g => ?_
  refine Edit.NeverFails.checksFirst ((Edit.neverFails_modify _).bind fun _ => ?_)
  exact Edit.neverFails_get.bind fun _ => Edit.neverFails_pure _

theorem checksFirst_addLines (addition : NodeLines) : (addLines addition).ChecksFirst := by
  refine checksFirst_onNode (Edit.reads_get.bind fun node => ?_)
  exact ((Edit.neverFails_modify _).bind fun _ => Edit.neverFails_pure _).checksFirst

theorem checksFirst_deleteLines (deletion : NodeLines) : (deleteLines deletion).ChecksFirst := by
  refine checksFirst_onNode (Edit.reads_get.bind fun node => ?_)
  exact ((Edit.neverFails_modify _).bind fun _ => Edit.neverFails_pure _).checksFirst

/-! ## Changes of entities -/

/-- An edge of a new entity is admitted exactly when it starts there and is admitted at all. -/
theorem checkOwnEdge_eq_ok_iff {e : Edge} :
    g.checkOwnEdge name e = .ok () ↔ e.source = name ∧ g.checkEdge e = .ok () := by
  rw [checkOwnEdge]
  by_cases h : e.source = name <;> simp [h]

/-- A new entity is its node, then the checks of its edges, and the edges last. -/
theorem createEntity_eq_bind {node : Node} {edges : List Edge} :
    g.createEntity node edges =
      (addNode node).onCopy g >>= fun r => edges.forM (r.2.checkOwnEdge r.1.name) >>= fun _ =>
        .ok (⟨r.1, distinct edges⟩, { r.2 with edges := r.2.edges ++ distinct edges }) := by
  rw [createEntity, Edit.onCopy_bind]
  refine congrArg _ (funext fun r => ?_)
  rw [Edit.onCopy_forM_check_bind]
  rfl

/-- The edges are checked against the graph that has the node already. -/
theorem createEntity_eq_ok_iff {node : Node} {edges : List Edge} {r : EntityCreation × Graph} :
    g.createEntity node edges = .ok r ↔
      ∃ g', (addNode node).onCopy g = .ok (node, g') ∧
        (∀ e ∈ edges, e.source = node.name ∧ g'.checkEdge e = .ok ()) ∧
        r = (⟨node, distinct edges⟩, { g' with edges := g'.edges ++ distinct edges }) := by
  rw [createEntity_eq_bind, bind_eq_ok_iff]
  constructor
  · rintro ⟨⟨n, g'⟩, hadd, h⟩
    obtain ⟨_, hchecks, hr⟩ := bind_eq_ok_iff.mp h
    -- What the addition reports is the node that was given, so the edges are checked against its
    -- name.
    have hn : n = node := congrArg Prod.fst (addNode_eq_ok_iff.mp hadd).2
    subst hn
    cases hr
    exact ⟨g', hadd, fun e he => checkOwnEdge_eq_ok_iff.mp (forM_eq_ok_iff.mp hchecks e he), rfl⟩
  · rintro ⟨g', hadd, hchecks, rfl⟩
    refine ⟨(node, g'), hadd, bind_eq_ok_iff.mpr ⟨(), ?_, rfl⟩⟩
    exact forM_eq_ok_iff.mpr fun e he => checkOwnEdge_eq_ok_iff.mpr (hchecks e he)

/-- An entity is of the expected kind exactly when the node of its name has that kind. -/
theorem checkKind_eq_ok_iff :
    g.checkKind name kind = .ok () ↔ ∃ node, g.node? name = some node ∧ node.kind = kind := by
  rw [checkKind]
  cases g.node? name with
  | none => simp
  | some node => by_cases h : node.kind = kind <;> simp [h]

/-- A target is admitted exactly when it is the entity itself or a node of the graph. -/
theorem checkTarget_eq_ok_iff {target : String} :
    g.checkTarget name target = .ok () ↔ target = name ∨ target ∈ g.names := by
  rw [checkTarget, ← hasNode_iff]
  by_cases h : target = name ∨ g.hasNode target = true <;> simp [h]

/-- The node with the metadata changes of an update. -/
def updatedNode (u : EntityUpdate) (node : Node) : Node :=
  { node with metadata := applyMetadata node.metadata u.metadata }

/-- The graph with the changes of an update, whether or not the update is admitted. -/
def rewritten (g : Graph) (u : EntityUpdate) : Graph :=
  { g.modifyNode u.name (updatedNode u) with
    edges := u.relationships.foldl (relate u.name) g.edges }

theorem names_rewritten {u : EntityUpdate} : (g.rewritten u).names = g.names :=
  names_modifyNode fun _ => rfl

theorem node?_rewritten {u : EntityUpdate} :
    (g.rewritten u).node? u.name = (g.node? u.name).map (updatedNode u) :=
  node?_modifyNode fun _ => rfl

theorem node?_rewritten_of_ne {u v : EntityUpdate} (hne : u.name ≠ v.name) :
    (g.rewritten u).node? v.name = g.node? v.name :=
  node?_modifyNode_of_ne (fun _ => rfl) hne

/-- Only the metadata of one node is another one. -/
theorem nodes_rewritten {u : EntityUpdate} {node : Node} (hg : g.WellFormed)
    (hnode : g.node? u.name = some node) :
    (g.rewritten u).nodes = g.nodes.map fun n =>
      if n.name = u.name then { n with metadata := (updatedNode u node).metadata } else n := by
  refine (modifyFirst_eq_map hg.nodup_names).trans (List.map_congr_left fun n hn => ?_)
  by_cases hname : n.name = u.name
  · have hsame : n = node := eq_of_node? hg hnode hn hname
    rw [if_pos hname, if_pos hname, hsame]
    rfl
  · rw [if_neg hname, if_neg hname]

/-- Without metadata changes the node stays as it is. -/
theorem updatedNode_of_plain {u : EntityUpdate} (h : u.metadata = []) (node : Node) :
    updatedNode u node = node := by
  rw [updatedNode, h]
  rfl

/-- An update without metadata changes leaves the nodes alone. -/
theorem rewritten_of_plain {u : EntityUpdate} (h : u.metadata = []) :
    g.rewritten u = { g with edges := u.relationships.foldl (relate u.name) g.edges } := by
  have hnodes : (g.modifyNode u.name (updatedNode u)).nodes = g.nodes :=
    modifyFirst_eq_self (updatedNode_of_plain h) g.nodes
  rw [rewritten, hnodes]

/-- An update of an entity checks its kind and all targets before it writes edges and metadata. -/
theorem updateEntity_eq_bind {u : EntityUpdate} :
    g.updateEntity u =
      g.checkKind u.name u.kind >>= fun _ =>
        (u.relationships.flatMap RelationshipChange.targets).forM
            (g.checkTarget u.name) >>= fun _ =>
          match g.node? u.name with
          | none => .error (.notFound .node u.name)
          | some node => .ok (updatedNode u node, g.rewritten u) := by
  rw [updateEntity, Edit.onCopy_check_bind]
  refine congrArg _ (funext fun _ => ?_)
  rw [Edit.onCopy_forM_check_bind]
  refine congrArg _ (funext fun _ => ?_)
  rw [Edit.onCopy_modify_bind, onCopy_onNode]
  -- Edges are written by then, but the node is looked for among the nodes.
  show (match g.node? u.name with | none => _ | some node => _) = _
  cases hnode : g.node? u.name with
  | none => rfl
  | some node =>
    rw [rewritten, modifyNode_eq_of_node? hnode]
    rfl

/-- An entity is updated exactly when it is of the kind expected and every target is admitted. -/
theorem updateEntity_eq_ok_iff {u : EntityUpdate} {r : Node × Graph} :
    g.updateEntity u = .ok r ↔
      ∃ node, g.node? u.name = some node ∧ node.kind = u.kind ∧
        (∀ change ∈ u.relationships, ∀ target ∈ change.targets,
          target = u.name ∨ target ∈ g.names) ∧
        r = (updatedNode u node,
          { g.modifyNode u.name (updatedNode u) with
            edges := u.relationships.foldl (relate u.name) g.edges }) := by
  rw [updateEntity_eq_bind, bind_eq_ok_iff]
  constructor
  · rintro ⟨_, hkind, h⟩
    obtain ⟨_, htargets, hr⟩ := bind_eq_ok_iff.mp h
    obtain ⟨node, hnode, hk⟩ := checkKind_eq_ok_iff.mp hkind
    rw [hnode] at hr
    cases hr
    refine ⟨node, hnode, hk, ?_, rfl⟩
    intro change hchange target htarget
    exact checkTarget_eq_ok_iff.mp
      (forM_eq_ok_iff.mp htargets target (List.mem_flatMap_of_mem hchange htarget))
  · rintro ⟨node, hnode, hk, htargets, rfl⟩
    refine ⟨(), checkKind_eq_ok_iff.mpr ⟨node, hnode, hk⟩, bind_eq_ok_iff.mpr ⟨(), ?_, ?_⟩⟩
    · refine forM_eq_ok_iff.mpr fun target htarget => checkTarget_eq_ok_iff.mpr ?_
      obtain ⟨change, hchange, ht⟩ := List.mem_flatMap.mp htarget
      exact htargets change hchange target ht
    · rw [hnode]
      rfl

/-- Deleting an entity is the check of its kind and the deletion of its node. -/
theorem deleteEntity_eq_bind :
    g.deleteEntity name kind = g.checkKind name kind >>= fun _ => (deleteNode name).onCopy g := by
  rw [deleteEntity, Edit.onCopy_check_bind]

/-- An entity is deleted exactly when it is there and of the kind expected. -/
theorem deleteEntity_eq_ok_iff {r : NodeRemoval × Graph} :
    g.deleteEntity name kind = .ok r ↔
      (∃ node, g.node? name = some node ∧ node.kind = kind) ∧
        (deleteNode name).onCopy g = .ok r := by
  rw [deleteEntity_eq_bind, bind_eq_ok_iff, ← checkKind_eq_ok_iff]
  exact ⟨fun ⟨_, hk, h⟩ => ⟨hk, h⟩, fun ⟨hk, h⟩ => ⟨(), hk, h⟩⟩

end Graph

end GraphKeeper
