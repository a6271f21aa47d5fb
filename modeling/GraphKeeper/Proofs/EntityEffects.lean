/-
  A tool of an entity type touches its own entity and nothing else.

  What a successful call leaves is told relative to the graph before it.  Adding an entity puts one
  node and edges at the ends of the two lists (`Graph.Added`); updating one exchanges its metadata
  and outgoing edges of some kinds of the type (`Graph.Updated`); deleting one strikes out its node
  and the edges that touch it (`Graph.Deleted`).  In all three the rest is a `filter` or a `map` of
  the lists before, so it is unchanged and in its order.

  The graph changes the first node of a name, and relationships are exchanged one after another.
  Names are distinct, so the first node of a name is the only one (`nodes_rewritten`,
  `eraseP_eq_filter`); and several exchanges come to one, of all their kinds at once
  (`foldl_relate_eq`).
-/
import GraphKeeper.Proofs.EntityCalls
import GraphKeeper.Proofs.EntityRefusals
import GraphKeeper.Proofs.Relationships

namespace GraphKeeper

open Schema Tool

/-- The kinds of the edges that the relationships of a type stand for. -/
def Schema.EntityType.edgeKinds (t : EntityType) : List String := t.relationshipFields.map Prod.snd

namespace Graph

variable {g : Graph} {name : String}

/-! ## Effects -/

/-- An entity was added: a node behind the nodes, and edges that start at it behind the edges. -/
structure Added (type : EntityType) (name : String) (g g' : Graph) : Prop where
  free : name ∉ g.names
  nodes : ∃ metadata, g'.nodes = g.nodes ++ [⟨name, type.kind, metadata⟩]
  edges : ∃ added, g'.edges = g.edges ++ added ∧
    ∀ e ∈ added, e.source = name ∧ e.kind ∈ type.edgeKinds

/-- An entity was updated: its metadata is another one, and of the edges only some that start at it
and are of kinds of the type are others. -/
structure Updated (type : EntityType) (name : String) (g g' : Graph) : Prop where
  kind : ∃ node, g.node? name = some node ∧ node.kind = type.kind
  nodes : ∃ metadata,
    g'.nodes = g.nodes.map fun n => if n.name = name then { n with metadata } else n
  edges : ∃ kinds added, (∀ kind ∈ kinds, kind ∈ type.edgeKinds) ∧
    g'.edges = without name kinds g.edges ++ added ∧
    ∀ e ∈ added, e.source = name ∧ e.kind ∈ kinds

/-- An entity was deleted: its node is gone, and with it the edges that touch it. -/
structure Deleted (type : EntityType) (name : String) (g g' : Graph) : Prop where
  kind : ∃ node, g.node? name = some node ∧ node.kind = type.kind
  nodes : g'.nodes = g.nodes.filter (·.name ≠ name)
  edges : g'.edges = g.edges.filter fun e => !e.touches name

/-- What a tool may do to a graph for the entity of a name. -/
def OwnEffect (t : EntityTool) (name : String) (g g' : Graph) : Prop :=
  match t.verb with
  | .add => Added t.type name g g'
  | .update => Updated t.type name g g'
  | .delete => Deleted t.type name g g'

end Graph

/-! ## Calls -/

namespace Tool.EntityTool

open GraphKeeper.Graph

variable {type : EntityType} {s s' : Store} {d d' : Disk} {args : Members} {name : String}
  {response : Response}

/-- The kind of the edges of a relationship is one of those of the type. -/
theorem mem_edgeKinds {f : EntityField} {kind : String} (hf : f ∈ type.fields)
    (hrole : f.role = .relationship kind) : kind ∈ type.edgeKinds :=
  List.mem_map.mpr ⟨(f, kind), mem_relationshipFields.mpr ⟨hf, hrole⟩, rfl⟩

/-- **A call that adds** puts one node and its edges at the ends. -/
theorem added_of_call (hname : entityName args = .ok name)
    (h : call ⟨.add, type⟩ s d (.obj args) = (.ok response, s', d')) :
    Added type name s.graph s'.graph := by
  obtain ⟨hfree, hgraph⟩ := graph_of_added hname h
  rw [hgraph]
  refine ⟨hfree, ⟨_, rfl⟩, _, rfl, fun e he => ?_⟩
  obtain ⟨f, hf, he⟩ := List.mem_flatMap.mp (mem_distinct.mp he)
  obtain ⟨hsource, hrole⟩ := mem_addedEdges he
  exact ⟨hsource, mem_edgeKinds hf hrole⟩

/-- **A call that updates** exchanges the lines of one node and edges that start at it. -/
theorem updated_of_call (hs : s.graph.WellFormed) (hname : entityName args = .ok name)
    (h : call ⟨.update, type⟩ s d (.obj args) = (.ok response, s', d')) :
    Updated type name s.graph s'.graph := by
  obtain ⟨node, hnode, hkind, hgraph⟩ := graph_of_updated hname h
  rw [hgraph]
  obtain ⟨added, hadded, hown⟩ := foldl_relate_eq name
    (type.fields.filterMap (relationshipChange? args)) s.graph.edges
  refine ⟨⟨node, hnode, hkind⟩, ?_, _, added, ?_, hadded, hown⟩
  · -- The new metadata depends on the old one, but only one node has the name.
    let u : EntityUpdate := ⟨name, type.kind, type.fields.filterMap (metadataChange? args),
      type.fields.filterMap (relationshipChange? args)⟩
    exact ⟨_, nodes_rewritten (u := u) hs hnode⟩
  · intro kind hk
    obtain ⟨change, hchange, rfl⟩ := List.mem_map.mp hk
    obtain ⟨f, hf, hchange⟩ := List.mem_filterMap.mp hchange
    exact mem_edgeKinds hf (role_of_relationshipChange? hchange)

/-- **A call that deletes** strikes out one node and what touches it. -/
theorem deleted_of_call (hs : s.graph.WellFormed) (hname : entityName args = .ok name)
    (h : call ⟨.delete, type⟩ s d (.obj args) = (.ok response, s', d')) :
    Deleted type name s.graph s'.graph := by
  obtain ⟨c, report, hc, happly⟩ := call_eq_ok h
  obtain ⟨name', hname', hdeletion⟩ := validate_eq_ok hc
  cases hname.symm.trans hname'
  cases hdeletion
  rw [EntityChange.apply] at happly
  obtain ⟨_, hdelete, _⟩ := Report.ofEntity_eq_ok happly
  obtain ⟨hkind, hdelete⟩ := deleteEntity_eq_ok_iff.mp hdelete
  have hgraph : s'.graph = ⟨s.graph.nodes.eraseP (·.name == name),
      s.graph.edges.filter fun e => !e.touches name⟩ :=
    congrArg Prod.snd (deleteNode_eq_ok_iff.mp hdelete).2
  rw [hgraph]
  exact ⟨hkind, eraseP_eq_filter hs.nodup_names, rfl⟩

end Tool.EntityTool

/-! ## Calls in a session -/

namespace Session

open GraphKeeper.Graph

/-- A call that is answered with a response has come to one. -/
theorem call_of_isError_eq_false {s : Session} {c : Call} (h : (s.dispatch c).1.isError = false) :
    ∃ response, (s.call c).1 = .ok response := by
  change (Reply.ofResult c.name (s.call c).1).isError = false at h
  cases hresult : (s.call c).1 with
  | ok response => exact ⟨response, rfl⟩
  | error failure =>
    rw [hresult] at h
    nomatch h

/-- **A tool of an entity type touches its own entity and nothing else.**  Whatever its type and
whatever the graph and the arguments, a call that succeeds adds, updates or deletes the entity that
the arguments name, of the kind of the type, and edges that start at it and are of the kinds of the
relationships; deleting takes along the edges that lead to it.  All other nodes and edges stay as
they were, in their order. -/
theorem dispatch_ownEffect {s : Session} {c : Call} {t : EntityTool} (hs : s.store.graph.WellFormed)
    (htool : s.catalog.tool? c.name = .ok (some (.entity t)))
    (hsuccess : (s.dispatch c).1.isError = false) :
    ∃ args name, c.arguments = .obj args ∧ entityName args = .ok name ∧
      OwnEffect t name s.store.graph (s.dispatch c).2.store.graph := by
  obtain ⟨response, hresponse⟩ := call_of_isError_eq_false hsuccess
  show ∃ args name, _ ∧ _ ∧ OwnEffect t name s.store.graph (s.call c).2.store.graph
  rw [call_of_tool? htool] at hresponse ⊢
  rcases hcall : t.call s.store s.disk c.arguments with ⟨result, s', d'⟩
  rw [hcall] at hresponse
  cases hresponse
  obtain ⟨change, _, hchange, _⟩ := EntityTool.call_eq_ok hcall
  obtain ⟨name, arguments⟩ := c
  cases arguments with
  | obj args =>
    obtain ⟨entity, hentity, _⟩ := EntityTool.validate_eq_ok hchange
    refine ⟨args, entity, rfl, hentity, ?_⟩
    -- The entity is the one that the arguments name, and the verb decides on the effect.
    obtain ⟨verb, type⟩ := t
    cases verb with
    | add => exact EntityTool.added_of_call hentity hcall
    | update => exact EntityTool.updated_of_call hs hentity hcall
    | delete => exact EntityTool.deleted_of_call hs hentity hcall
  | _ => nomatch hchange

/-- A quest that leads to itself and to a town, a town that leads back, and an elder who leads there
too. -/
def questSession : Session :=
  ⟨⟨"schemas", (Tool.assemble [⟨.update, EntityTool.questType⟩]).toOption⟩,
    ⟨"m", ⟨[⟨"Town", "place", []⟩, ⟨"Escort", "quest", ["Stage: 1"]⟩, ⟨"Elder", "npc", []⟩],
      [⟨"Escort", "Escort", "leads_to"⟩, ⟨"Town", "Escort", "leads_to"⟩,
        ⟨"Escort", "Elder", "given_by"⟩, ⟨"Escort", "Town", "leads_to"⟩,
        ⟨"Elder", "Town", "leads_to"⟩]⟩⟩, .empty⟩

/-- New stops take the place of those of the quest; the other edges stay, also those of the same
kind. -/
theorem ownEffect_questSession :
    let c : Call := ⟨"update_quest", .obj [("name", .str "Escort"), ("stops", .arr [.str "Elder"])]⟩
    let after := (questSession.dispatch c).2.store.graph
    questSession.store.graph.WellFormed ∧
      questSession.catalog.tool? c.name = .ok (some (.entity ⟨.update, EntityTool.questType⟩)) ∧
      (questSession.dispatch c).1.isError = false ∧
      after.edges = [⟨"Town", "Escort", "leads_to"⟩, ⟨"Escort", "Elder", "given_by"⟩,
        ⟨"Elder", "Town", "leads_to"⟩, ⟨"Escort", "Elder", "leads_to"⟩] ∧
      ∃ args name, c.arguments = .obj args ∧ entityName args = .ok name ∧
        OwnEffect ⟨.update, EntityTool.questType⟩ name questSession.store.graph after := by
  intro c after
  have hs : questSession.store.graph.WellFormed := by decide
  have htool : questSession.catalog.tool? c.name =
      .ok (some (.entity ⟨.update, EntityTool.questType⟩)) := rfl
  have hsuccess : (questSession.dispatch c).1.isError = false := by decide +kernel
  exact ⟨hs, htool, hsuccess, by decide +kernel, dispatch_ownEffect hs htool hsuccess⟩

end Session

end GraphKeeper
