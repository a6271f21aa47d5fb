/-
  What the response to a call holds is portable.

  It is an object made up of nodes, edges and texts, which are portable whatever they are, and of
  two kinds of counts:
    * how many edges a change took away or replaced, which is no more than there were edges in the
      graph; deleting and replacing does not add edges, so this holds for every item of a batch
      (`Graph.count_le_of_mem_succeeded`);
    * the places of items that failed, which are less than the number of items
      (`Graph.index_lt_of_mem_failed`).  So the counts fit a word if the number of edges in the
      graph and the number of items in the request do, and these are numbers of things in memory.

  The main theorem is `Tool.Request.carried_run`.
-/
import GraphKeeper.Proofs.Batches
import GraphKeeper.Proofs.PortableJson
import GraphKeeper.Proofs.StoreRuns
import GraphKeeper.Tool.Request

namespace GraphKeeper

open Json

/-! ## Nodes and edges -/

section Records

variable {depth : Nat}

/-- A node is an object with three fixed keys, two texts and a list of texts under them. -/
theorem Node.portable_toJson (n : Node) : n.toJson.Portable (depth + 2) := by
  -- The keys are the same for all nodes, so their names can be compared once and for all.
  have hkeys : n.members.keys.Nodup := show ["name", "nodeType", "metadata"].Nodup by decide
  refine .obj hkeys ?_
  simp only [Node.members, List.forall_mem_cons]
  exact ⟨.str _, .str _, .ofStrings _, List.forall_mem_nil _⟩

/-- All three members of an edge are texts. -/
theorem Edge.portable_of_mem_members (e : Edge) : ∀ m ∈ e.members, m.2.Portable depth := by
  simp only [Edge.members, List.forall_mem_cons]
  exact ⟨.str _, .str _, .str _, List.forall_mem_nil _⟩

/-- An edge by itself is one level deep. -/
theorem Edge.portable_toJson (e : Edge) : e.toJson.Portable (depth + 1) := by
  have hkeys : e.members.keys.Nodup := show ["from", "to", "edgeType"].Nodup by decide
  exact .obj hkeys e.portable_of_mem_members

/-- The report of a deleted node has a count in it, which must fit a word. -/
theorem NodeRemoval.portable_toJson {r : NodeRemoval} (h : r.removedEdges ≤ wordMax) :
    r.toJson.Portable (depth + 1) := by
  have hkeys : ["name", "removedEdges"].Nodup := by decide
  refine .obj hkeys ?_
  simp only [List.forall_mem_cons]
  exact ⟨.str _, .ofNat h, List.forall_mem_nil _⟩

/-- The report of deleted edges has the members of the edge and a count behind them. -/
theorem EdgeRemoval.portable_toJson {r : EdgeRemoval} (h : r.removed ≤ wordMax) :
    r.toJson.Portable (depth + 1) := by
  have hkeys : ["from", "to", "edgeType", "removed"].Nodup := by decide
  exact .obj hkeys (List.forall_mem_append.mpr
    ⟨r.edge.portable_of_mem_members, List.forall_mem_singleton.mpr (.ofNat h)⟩)

/-- So has the report of replaced edges. -/
theorem EdgeReplacement.portable_toJson {r : EdgeReplacement} (h : r.updated ≤ wordMax) :
    r.toJson.Portable (depth + 1) := by
  have hkeys : ["from", "to", "edgeType", "updated"].Nodup := by decide
  exact .obj hkeys (List.forall_mem_append.mpr
    ⟨r.edge.portable_of_mem_members, List.forall_mem_singleton.mpr (.ofNat h)⟩)

/-- Lines of a node stand under a key that depends on the tool; it is never that of the name. -/
theorem NodeLines.portable_toJson {form : Form} (hform : "nodeName" ≠ form.lines) (m : NodeLines) :
    (m.toJson form).Portable (depth + 2) := by
  have hkeys : ["nodeName", form.lines].Nodup := by simpa using hform
  refine .obj hkeys ?_
  simp only [List.forall_mem_cons]
  exact ⟨.str _, .ofStrings _, List.forall_mem_nil _⟩

/-- A list of portable things is one level deeper than they are. -/
theorem portable_map {α : Type} {item : α → Json} {as : List α}
    (h : ∀ a ∈ as, (item a).Portable depth) : Portable (depth + 1) (.arr (as.map item)) :=
  .arr fun _ hv => by
    obtain ⟨a, ha, rfl⟩ := List.mem_map.mp hv
    exact h a ha

/-- A new entity is its node and its edges. -/
theorem EntityCreation.portable_toJson (c : EntityCreation) : c.toJson.Portable (depth + 3) := by
  have hkeys : ["node", "edges"].Nodup := by decide
  refine .obj hkeys ?_
  simp only [List.forall_mem_cons]
  exact ⟨c.node.portable_toJson, portable_map fun e _ => e.portable_toJson,
    List.forall_mem_nil _⟩

/-- A whole graph is four levels deep, whatever is in it: object, list, node, metadata. -/
theorem Graph.portable_toJson (g : Graph) : g.toJson.Portable (depth + 4) := by
  have hkeys : ["nodes", "edges"].Nodup := by decide
  refine .obj hkeys ?_
  simp only [List.forall_mem_cons]
  exact ⟨portable_map fun n _ => n.portable_toJson, portable_map fun e _ => e.portable_toJson,
    List.forall_mem_nil _⟩

/-- Opened nodes come as a graph does, with the names that are missing. -/
theorem Opened.portable_toJson (o : Opened) : o.toJson.Portable (depth + 4) := by
  have hkeys : ["nodes", "edges", "missing"].Nodup := by decide
  refine .obj hkeys ?_
  simp only [List.forall_mem_cons]
  exact ⟨portable_map fun n _ => n.portable_toJson, portable_map fun e _ => e.portable_toJson,
    .ofStrings _, List.forall_mem_nil _⟩

end Records

/-! ## Payloads -/

namespace Tool

/-- What a reply holds besides its texts is carried by the text of the reply.  It must not be
`null`, which would be read as nothing. -/
def Carried (payload : Option Json) : Prop := ∀ v ∈ payload, v.isNull = false ∧ v.Portable 4

/-- What is there and is not `null` is carried if it is portable. -/
theorem carried_some {v : Json} (hnull : v.isNull = false) (hv : v.Portable 4) :
    Carried (some v) := by
  rintro _ ⟨⟩
  exact ⟨hnull, hv⟩

end Tool

open Tool

/-- The outcome of a batch is carried if the reports are portable and places fit a word. -/
theorem Outcome.carried {α : Type} {item : α → Json} {o : Outcome α}
    (hitem : ∀ a ∈ o.succeeded, (item a).Portable 2) (hfailed : ∀ f ∈ o.failed, f.index ≤ wordMax) :
    Carried (some (o.toJson item)) := by
  have hsucceeded : Portable 3 (.arr (o.succeeded.map item)) := portable_map hitem
  have hplace : ∀ f ∈ o.failed, f.toJson.Portable 2 := by
    intro f hf
    have hkeys : ["index", "item", "kind", "error"].Nodup := by decide
    refine .obj hkeys ?_
    simp only [List.forall_mem_cons]
    exact ⟨.ofNat (hfailed f hf), .str _, .str _, .str _, List.forall_mem_nil _⟩
  refine carried_some rfl ?_
  -- Without failures the list of them is left out.
  rw [Outcome.toJson]
  split
  · exact .obj (List.nodup_singleton _) (List.forall_mem_singleton.mpr hsucceeded)
  · have hkeys : ["succeeded", "failed"].Nodup := by decide
    refine .obj hkeys ?_
    simp only [List.forall_mem_cons]
    exact ⟨hsucceeded, portable_map hplace, List.forall_mem_nil _⟩

/-! ## Counts in batches -/

namespace Graph

variable {ι α : Type} {step : ι → Edit Graph α} {label : ι → String}
  {items : List ι} {g : Graph}

/-- The edges of the graph can be counted by a word. -/
def Countable (g : Graph) : Prop := g.edges.length ≤ wordMax

/-- The change of one item checks before it writes.  It keeps the edges countable, and what it
counts are some of them. -/
structure CountsEdges (step : ι → Edit Graph α) (count : α → Nat) : Prop where
  checksFirst : ∀ item, (step item).ChecksFirst
  of_ok : ∀ ⦃g item r⦄, g.Countable → (step item).onCopy g = .ok r →
    r.2.Countable ∧ count r.1 ≤ wordMax

/-- Deleting a node only takes edges away, and counts those that it took. -/
theorem deleteNode_countsEdges : CountsEdges deleteNode NodeRemoval.removedEdges := by
  refine ⟨checksFirst_deleteNode, ?_⟩
  intro g name r hg h
  obtain ⟨_, rfl⟩ := deleteNode_eq_ok_iff.mp h
  exact ⟨Nat.le_trans (List.length_filter_le _ _) hg, Nat.le_trans (Nat.sub_le _ _) hg⟩

/-- So does deleting edges. -/
theorem deleteEdge_countsEdges : CountsEdges deleteEdge EdgeRemoval.removed := by
  refine ⟨checksFirst_deleteEdge, ?_⟩
  intro g e r hg h
  rw [deleteEdge_eq_ok_iff] at h
  subst h
  exact ⟨Nat.le_trans (List.length_filter_le _ _) hg, Nat.le_trans (Nat.sub_le _ _) hg⟩

/-- Replacing edges keeps their number, and counts some of them. -/
theorem updateEdge_countsEdges : CountsEdges updateEdge EdgeReplacement.updated := by
  refine ⟨checksFirst_updateEdge, ?_⟩
  intro g u r hg h
  obtain ⟨_, _, rfl⟩ := updateEdge_eq_ok_iff.mp h
  refine ⟨?_, Nat.le_trans List.countP_le_length hg⟩
  rw [Countable, List.length_map]
  exact hg

/-- **The counts that a batch reports fit a word**, since no item before adds edges. -/
theorem count_le_of_mem_succeeded {count : α → Nat} (hstep : CountsEdges step count)
    (hg : g.Countable) : ∀ a ∈ (batch step label items g).1.succeeded, count a ≤ wordMax := by
  -- Along the run the graph stays countable, which is what the induction carries; the reports are
  -- looked at one by one.
  have hrun : ∀ {index o last}, BatchRun step label index g items o last →
      ∀ a ∈ o.succeeded, count a ≤ wordMax := by
    intro index o last h
    induction h with
    | done => exact nofun
    | succeeds h _ ih =>
      obtain ⟨hg', hcount⟩ := hstep.of_ok hg (Edit.onCopy_eq_ok_iff.mpr h)
      exact List.forall_mem_cons.mpr ⟨hcount, ih hg'⟩
    | fails h _ ih =>
      -- An item that failed has written nothing, so the next one meets the same graph.
      obtain rfl := hstep.checksFirst _ _ _ _ h
      exact ih hg
  exact hrun (batchRun_batchFrom items 0 g)

/-- A failure has the place of one of the items. -/
theorem index_lt_of_mem_failed {f : ItemFailure} (hf : f ∈ (batch step label items g).1.failed) :
    f.index < items.length := by
  have hlt := (batchRun_batchFrom items 0 g).lt_of_mem_failedAt f.index (List.mem_map_of_mem hf)
  rwa [Nat.zero_add] at hlt

/-- **The outcome of a batch is carried**, if reports are and the items can be counted. -/
theorem carried_batch {item : α → Json}
    (hitem : ∀ a ∈ (batch step label items g).1.succeeded, (item a).Portable 2)
    (hitems : items.length ≤ wordMax) :
    Carried (some ((batch step label items g).1.toJson item)) :=
  Outcome.carried hitem fun _ hf => Nat.le_trans (Nat.le_of_lt (index_lt_of_mem_failed hf)) hitems

/-- Where reports count edges, it is carried if the edges of the graph can be counted too. -/
theorem carried_batch_of_countsEdges {item : α → Json} {count : α → Nat}
    (hstep : CountsEdges step count) (hitem : ∀ a, count a ≤ wordMax → (item a).Portable 2)
    (hg : g.Countable) (hitems : items.length ≤ wordMax) :
    Carried (some ((batch step label items g).1.toJson item)) :=
  carried_batch (fun a ha => hitem a (count_le_of_mem_succeeded hstep hg a ha)) hitems

end Graph

/-! ## Changes and questions -/

/-- The number of items of a batch; the change of an entity has none. -/
def Change.itemCount : Change → Nat
  | .addNodes nodes => nodes.length
  | .updateNodes updates => updates.length
  | .deleteNodes names => names.length
  | .addEdges edges => edges.length
  | .updateEdges updates => updates.length
  | .deleteEdges edges => edges.length
  | .addMetadata additions => additions.length
  | .deleteMetadata deletions => deletions.length
  | .entity _ => 0

/-- The report of a change of an entity is carried; only a deletion counts something. -/
theorem EntityChange.carried_apply {g : Graph} {c : EntityChange} {r : Report × Graph}
    (hg : g.Countable) (h : c.apply g = .ok r) : Carried (Response.ofReport r.1).data := by
  obtain ⟨report, g'⟩ := r
  cases c with
  | create node edges =>
    rw [EntityChange.apply] at h
    obtain ⟨c, _, rfl⟩ := Report.ofEntity_eq_ok h
    exact carried_some rfl c.portable_toJson
  | update u =>
    rw [EntityChange.apply] at h
    obtain ⟨node, _, rfl⟩ := Report.ofEntity_eq_ok h
    exact carried_some rfl (.obj (List.nodup_singleton _)
      (List.forall_mem_singleton.mpr node.portable_toJson))
  | delete name kind =>
    rw [EntityChange.apply] at h
    obtain ⟨removal, hdelete, rfl⟩ := Report.ofEntity_eq_ok h
    obtain ⟨_, hdelete⟩ := Graph.deleteEntity_eq_ok_iff.mp hdelete
    have hcount := (Graph.deleteNode_countsEdges.of_ok hg hdelete).2
    exact carried_some rfl (NodeRemoval.portable_toJson hcount)

/-- **What a change reports is carried.**  Five of the batches report without counts, three with
them. -/
theorem Change.carried_apply {g : Graph} {c : Change} {r : Report × Graph} (hg : g.Countable)
    (hc : c.itemCount ≤ wordMax) (h : c.apply g = .ok r) :
    Carried (Response.ofReport r.1).data := by
  cases c with
  | addNodes nodes =>
    -- A batch always has a report, so the equation only names it.
    cases h
    exact Graph.carried_batch (fun n _ => n.portable_toJson) hc
  | updateNodes updates =>
    cases h
    exact Graph.carried_batch (fun n _ => n.portable_toJson) hc
  | deleteNodes names =>
    cases h
    exact Graph.carried_batch_of_countsEdges Graph.deleteNode_countsEdges
      (fun _ h => NodeRemoval.portable_toJson h) hg hc
  | addEdges edges =>
    cases h
    exact Graph.carried_batch (fun e _ => e.portable_toJson) hc
  | updateEdges updates =>
    cases h
    exact Graph.carried_batch_of_countsEdges Graph.updateEdge_countsEdges
      (fun _ h => EdgeReplacement.portable_toJson h) hg hc
  | deleteEdges edges =>
    cases h
    exact Graph.carried_batch_of_countsEdges Graph.deleteEdge_countsEdges
      (fun _ h => EdgeRemoval.portable_toJson h) hg hc
  | addMetadata additions =>
    cases h
    exact Graph.carried_batch (fun m _ => m.portable_toJson (by decide)) hc
  | deleteMetadata deletions =>
    cases h
    exact Graph.carried_batch (fun m _ => m.portable_toJson (by decide)) hc
  | entity change => exact change.carried_apply hg h

namespace Tool.Request

/-- The number of items of a request that its reply may count. -/
def itemCount : Request → Nat
  | .change c => c.itemCount
  | .readGraph | .searchNodes _ | .openNodes _ => 0

/-- **What the response to a request holds is carried by its text.** -/
theorem carried_run {s : Store} {d : Disk} {r : Request} {response : Response}
    (hs : s.graph.Countable) (hr : r.itemCount ≤ wordMax)
    (h : (r.run s d).1 = .ok response) : Carried response.data := by
  cases r with
  | change c =>
    obtain ⟨report, hreport, rfl⟩ := map_eq_ok_iff.mp h
    exact Change.carried_apply hs hr (Store.change_eq_ok (Prod.ext hreport rfl))
  | readGraph =>
    cases h
    exact carried_some rfl s.graph.portable_toJson
  | searchNodes query =>
    obtain ⟨found, _, rfl⟩ := map_eq_ok_iff.mp h
    exact carried_some rfl found.portable_toJson
  | openNodes names =>
    cases h
    exact carried_some rfl (s.graph.openNodes names).portable_toJson

end Tool.Request

end GraphKeeper
