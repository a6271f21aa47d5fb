/-
  What a successful call of a tool of an entity type leaves.

  A call goes through three layers: the tool checks the arguments and makes a change out of them,
  the change is made on the graph, and the store takes over the changed graph.  `call_eq_ok` puts
  the layers together, and `graph_of_added` and `graph_of_updated` tell the graph after the call
  from the graph before it, the fields of the type and the values of the arguments.
-/
import GraphKeeper.Proofs.EntityTools
import GraphKeeper.Proofs.SessionCalls

namespace GraphKeeper

open Tool GraphKeeper.Graph

/-! ## Calls -/

/-- A call of a tool of an entity type: its response or failure, and store and disk after it. -/
def Tool.EntityTool.call (t : EntityTool) (s : Store) (d : Disk) (args : Json) :
    Except Failure Response × Store × Disk :=
  match (Tool.entity t).validate args with
  | .error failure => (.error failure, s, d)
  | .ok request => request.run s d

/-- This is what a session does when the tool is called by its name. -/
theorem Session.call_of_tool? {s : Session} {c : Call} {t : EntityTool}
    (h : s.catalog.tool? c.name = .ok (some (.entity t))) :
    s.call c = ((t.call s.store s.disk c.arguments).1,
      { s with
        store := (t.call s.store s.disk c.arguments).2.1
        disk := (t.call s.store s.disk c.arguments).2.2 }) := by
  have hrequest : s.catalog.request c = (Tool.entity t).validate c.arguments := by
    rw [Catalog.request, h]
    rfl
  rw [Session.call, hrequest, EntityTool.call]
  cases (Tool.entity t).validate c.arguments <;> rfl

namespace Tool.EntityTool

variable {t : EntityTool} {s s' : Store} {d d' : Disk}

/-- A call with arguments that are refused does not come to the store. -/
theorem call_of_refused {args : Json} {failure : Failure} (h : t.validate args = .error failure) :
    t.call s d args = (.error failure, s, d) := by
  simp only [call, Tool.validate, h]
  rfl

/-- Any other call makes the change that its arguments ask for. -/
theorem call_of_accepted {args : Json} {c : EntityChange} (h : t.validate args = .ok c) :
    t.call s d args = ((s.change d (.entity c)).1.map .ofReport, (s.change d (.entity c)).2) := by
  simp only [call, Tool.validate, h]
  rfl

/-- A call that succeeds takes the store to the graph after the change that was asked for. -/
theorem call_eq_ok {args : Json} {response : Response}
    (h : t.call s d args = (.ok response, s', d')) :
    ∃ c report, t.validate args = .ok c ∧ c.apply s.graph = .ok (report, s'.graph) := by
  cases hc : t.validate args with
  | error failure => nomatch (call_of_refused hc).symm.trans h
  | ok c =>
    have hcall := (call_of_accepted hc).symm.trans h
    cases hchange : s.change d (.entity c) with
    | mk result after =>
      rw [hchange] at hcall
      cases result with
      | error failure => nomatch hcall
      | ok report =>
        cases hcall
        exact ⟨c, report, rfl, Store.change_eq_ok hchange⟩

/-- A call that fails changes nothing. -/
theorem call_eq_error {args : Json} {failure : Failure}
    (h : t.call s d args = (.error failure, s', d')) : s' = s ∧ d' = d := by
  unfold call at h
  cases hrequest : (Tool.entity t).validate args with
  | error _ =>
    rw [hrequest] at h
    cases h
    exact ⟨rfl, rfl⟩
  | ok request =>
    rw [hrequest] at h
    have hrun := Request.run_of_error (congrArg Prod.fst h)
    exact Prod.mk.inj ((congrArg Prod.snd h).symm.trans hrun)

/-! ## The graph after a call -/

variable {type : Schema.EntityType} {name : String} {args : Members} {response : Response}

/-- **An addition puts the node behind the others**, with the lines and the edges of its fields. -/
theorem graph_of_added (hname : entityName args = .ok name)
    (h : call ⟨.add, type⟩ s d (.obj args) = (.ok response, s', d')) :
    name ∉ s.graph.names ∧ s'.graph =
      ⟨s.graph.nodes ++ [⟨name, type.kind,
          applyMetadata [] (type.fields.filterMap (addedChange? args))⟩],
        s.graph.edges ++ distinct (type.fields.flatMap (addedEdges name args))⟩ := by
  -- From the call to the change, and from the change to the graph.
  obtain ⟨c, report, hc, happly⟩ := call_eq_ok h
  obtain ⟨name', hname', hcreation⟩ := validate_eq_ok hc
  cases hname.symm.trans hname'
  rw [creation_eq_ok hcreation, EntityChange.apply] at happly
  obtain ⟨_, hcreate, _⟩ := Report.ofEntity_eq_ok happly
  obtain ⟨g', hadd, _, hgraph⟩ := createEntity_eq_ok_iff.mp hcreate
  obtain ⟨⟨_, _, hnew⟩, hg'⟩ := addNode_eq_ok_iff.mp hadd
  cases hg'
  exact ⟨hnew, congrArg Prod.snd hgraph⟩

/-- **An update sets the lines of the node and rewrites its edges**, one field after another. -/
theorem graph_of_updated (hname : entityName args = .ok name)
    (h : call ⟨.update, type⟩ s d (.obj args) = (.ok response, s', d')) :
    ∃ node, s.graph.node? name = some node ∧ node.kind = type.kind ∧ s'.graph =
      { s.graph.modifyNode name fun node =>
          { node with
            metadata :=
              applyMetadata node.metadata (type.fields.filterMap (metadataChange? args)) } with
        edges := (type.fields.filterMap (relationshipChange? args)).foldl (relate name)
          s.graph.edges } := by
  obtain ⟨c, report, hc, happly⟩ := call_eq_ok h
  obtain ⟨name', hname', hupdating⟩ := validate_eq_ok hc
  cases hname.symm.trans hname'
  rw [updating_eq_ok hupdating, EntityChange.apply] at happly
  obtain ⟨_, hupdate, _⟩ := Report.ofEntity_eq_ok happly
  obtain ⟨node, hnode, hkind, _, hgraph⟩ := updateEntity_eq_ok_iff.mp hupdate
  exact ⟨node, hnode, hkind, congrArg Prod.snd hgraph⟩

end Tool.EntityTool

end GraphKeeper
