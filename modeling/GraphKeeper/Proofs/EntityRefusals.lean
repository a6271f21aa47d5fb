/-
  Why the change that a tool of an entity type asks for can fail.

  The graph checks a change of an entity again, and some of its checks cannot fail any more when a
  tool has made the change: names are not blank because the tool refuses blank ones, kinds of nodes
  and of edges are not blank because no type has such kinds, and the edges of a new entity start at
  it because the tool makes them so.  `EntityChange.Proper` gathers these facts, and
  `EntityTool.proper_of_validate` says that every change that a tool asks for has them.

  What is left depends on the graph: a name that is taken, an entity that is not there or is of
  another kind, a target that nobody knows.  `Refusal` lists these reasons with the conditions under
  which each is the one that is told, so no two of them hold at once, and a proper change fails
  exactly for a reason of the list (`EntityChange.apply_eq_error_iff`).
-/
import GraphKeeper.Graph.Report
import GraphKeeper.Proofs.EntityTools
import GraphKeeper.Proofs.EntityTypes
import GraphKeeper.Proofs.GraphChanges

namespace GraphKeeper

open Schema Tool

/-! ## Changes that tools ask for -/

namespace EntityChange

/-- What is to be done with the entity. -/
def verb : EntityChange → Verb
  | .create .. => .add
  | .update _ => .update
  | .delete .. => .delete

/-- The name of the entity. -/
def name : EntityChange → String
  | .create node _ => node.name
  | .update u => u.name
  | .delete name _ => name

/-- The kind that the entity has or is to have. -/
def kind : EntityChange → String
  | .create node _ => node.kind
  | .update u => u.kind
  | .delete _ kind => kind

/-- The kinds of the edges that the change makes or replaces. -/
def edgeKinds : EntityChange → List String
  | .create _ edges => edges.map Edge.kind
  | .update u => u.relationships.map RelationshipChange.kind
  | .delete .. => []

/-- The targets of the edges that the change makes, in order. -/
def targets : EntityChange → List String
  | .create _ edges => edges.map Edge.target
  | .update u => u.relationships.flatMap RelationshipChange.targets
  | .delete .. => []

/-- The nodes at which the edges of the change start, when it names them. -/
def sources : EntityChange → List String
  | .create _ edges => edges.map Edge.source
  | _ => []

/-- Nothing in the change is blank, and its edges start at its entity. -/
structure Proper (c : EntityChange) : Prop where
  name : Text.isBlank c.name = false
  kind : Text.isBlank c.kind = false
  edgeKinds : ∀ kind ∈ c.edgeKinds, Text.isBlank kind = false
  sources : ∀ source ∈ c.sources, source = c.name

end EntityChange

/-! ## Reasons to fail -/

/-- Whether a target is neither a node of the graph nor the entity of the given name. -/
def Graph.isUnknown (g : Graph) (name target : String) : Bool :=
  decide (target ∉ g.names ∧ target ≠ name)

/-- The first target of a change that is unknown. -/
def Graph.unknownTarget? (g : Graph) (c : EntityChange) : Option String :=
  c.targets.find? (g.isUnknown c.name)

/-- The reasons for which a proper change of an entity fails on a graph. -/
inductive Refusal (g : Graph) : EntityChange → Failure → Prop
  /-- An entity is to be added and its name is taken. -/
  | taken {node : Node} {edges : List Edge} (h : node.name ∈ g.names) :
    Refusal g (.create node edges) (.nodeExists node.name)
  /-- A new entity with a free name has an edge to a node that is not there. -/
  | unknownToNew {node : Node} {edges : List Edge} {target : String} (h : node.name ∉ g.names)
    (htarget : g.unknownTarget? (.create node edges) = some target) :
    Refusal g (.create node edges) (.notFound .node target)
  /-- An entity is to be updated or deleted and is not there. -/
  | absent {c : EntityChange} (hc : c.verb ≠ .add) (h : c.name ∉ g.names) :
    Refusal g c (.notFound .node c.name)
  /-- It is there, but of another kind. -/
  | otherKind {c : EntityChange} {node : Node} (hc : c.verb ≠ .add)
    (hnode : g.node? c.name = some node) (hkind : node.kind ≠ c.kind) :
    Refusal g c (.invalidArgument "name"
      s!"'{c.name}' is a {node.kind} node, not a {c.kind} node")
  /-- It is there and of its kind, and is to have an edge to a node that is not there. -/
  | unknownToUpdated {u : EntityUpdate} {node : Node} {target : String}
    (hnode : g.node? u.name = some node) (hkind : node.kind = u.kind)
    (htarget : g.unknownTarget? (.update u) = some target) :
    Refusal g (.update u) (.notFound .node target)

/-! ## The checks of the graph -/

namespace Graph

variable {g : Graph} {name kind : String} {failure : Failure}

/-- A node that is not blank is refused if its name is taken. -/
theorem addNode_eq_error_iff {node : Node} (hname : Text.isBlank node.name = false)
    (hkind : Text.isBlank node.kind = false) :
    (addNode node).onCopy g = .error failure ↔
      node.name ∈ g.names ∧ failure = .nodeExists node.name := by
  rw [onCopy_addNode, hname, hkind, ← hasNode_iff]
  cases g.hasNode node.name <;> simp [eq_comm]

/-- An entity is refused if it is not there, or if it is of another kind. -/
theorem checkKind_eq_error_iff :
    g.checkKind name kind = .error failure ↔
      (name ∉ g.names ∧ failure = .notFound .node name) ∨
        ∃ node, g.node? name = some node ∧ node.kind ≠ kind ∧
          failure = .invalidArgument "name"
            s!"'{name}' is a {node.kind} node, not a {kind} node" := by
  rw [checkKind, ← node?_eq_none_iff]
  cases g.node? name with
  | none => simp [eq_comm]
  | some node =>
    by_cases h : node.kind = kind
    · simp [h]
    · simp [h, eq_comm (a := failure)]

/-- An edge from a new entity can only fail for its target. -/
theorem checkOwnEdge_of_proper {node : Node} {e : Edge} (hsource : e.source = node.name)
    (hkind : Text.isBlank e.kind = false) :
    checkOwnEdge { g with nodes := g.nodes ++ [node] } node.name e =
      if g.isUnknown node.name e.target then .error (.notFound .node e.target) else .ok () := by
  have hnames : names { g with nodes := g.nodes ++ [node] } = g.names ++ [node.name] :=
    List.map_append
  -- The graph has the new node by now, so the entity itself is no unknown target.
  have hhas : ∀ n, hasNode { g with nodes := g.nodes ++ [node] } n = !g.isUnknown node.name n := by
    intro n
    rw [Bool.eq_iff_iff, hasNode_iff, hnames, List.mem_append, List.mem_singleton, isUnknown,
      Bool.not_eq_true', decide_eq_false_iff_not, not_and_not_right, or_iff_not_imp_left]
  have hself : g.isUnknown node.name e.source = false := by
    rw [isUnknown, decide_eq_false_iff_not]
    exact fun h => h.2 hsource
  rw [checkOwnEdge, if_neg (not_not.mpr hsource), checkEdge, hkind, hhas, hhas, hself]
  cases g.isUnknown node.name e.target <;> rfl

/-- The targets of an update are checked with the entity among the nodes, too. -/
theorem checkTarget_eq (target : String) :
    g.checkTarget name target =
      if g.isUnknown name target then .error (.notFound .node target) else .ok () := by
  have hknown : (target = name ∨ g.hasNode target = true) ↔ ¬ g.isUnknown name target = true := by
    rw [hasNode_iff, isUnknown, decide_eq_true_iff, not_and_not_right, or_iff_not_imp_right]
  unfold checkTarget
  by_cases h : g.isUnknown name target = true
  · rw [if_pos h, if_neg (mt hknown.mp (not_not.mpr h))]
  · rw [if_neg h, if_pos (hknown.mpr h)]

end Graph

/-- Putting a change into a report does not make it fail. -/
theorem Report.ofEntity_eq_error_iff {α : Type} {report : α → Report}
    {result : Except Failure (α × Graph)} {failure : Failure} :
    Report.ofEntity report result = .error failure ↔ result = .error failure := by
  cases result with
  | error e =>
    constructor
    · intro h
      cases h
      rfl
    · intro h
      cases h
      rfl
  | ok r => exact ⟨(nomatch ·), (nomatch ·)⟩

/-! ## Proper changes -/

namespace EntityChange

open GraphKeeper.Graph

variable {g : Graph} {c : EntityChange} {failure : Failure}

/-- **A proper creation fails for a taken name, or else for the first target that is unknown.** -/
theorem create_eq_error_iff {node : Node} {edges : List Edge}
    (hc : Proper (.create node edges)) :
    g.createEntity node edges = .error failure ↔
      (node.name ∈ g.names ∧ failure = .nodeExists node.name) ∨
        (node.name ∉ g.names ∧ ∃ target, g.unknownTarget? (.create node edges) = some target ∧
          failure = .notFound .node target) := by
  have hedges : ∀ e ∈ edges, checkOwnEdge { g with nodes := g.nodes ++ [node] } node.name e =
      if g.isUnknown node.name e.target then .error (.notFound .node e.target) else .ok () :=
    fun e he => checkOwnEdge_of_proper (hc.sources _ (List.mem_map_of_mem he))
      (hc.edgeKinds _ (List.mem_map_of_mem he))
  rw [createEntity_eq_bind, bind_eq_error_iff, addNode_eq_error_iff hc.name hc.kind]
  refine or_congr_right ⟨?_, ?_⟩
  · rintro ⟨r, hadd, h⟩
    obtain ⟨⟨_, _, hnew⟩, rfl⟩ := addNode_eq_ok_iff.mp hadd
    -- The name is new, so a failure comes from the checks of the edges; writing them cannot fail.
    rcases bind_eq_error_iff.mp h with h | ⟨_, _, h⟩
    · obtain ⟨e, he, rfl⟩ := (forM_eq_error_iff hedges).mp h
      refine ⟨hnew, e.target, ?_, rfl⟩
      rw [unknownTarget?, targets, List.find?_map]
      exact Option.map_eq_some_iff.mpr ⟨e, he, rfl⟩
    · cases h
  · rintro ⟨hnew, target, htarget, rfl⟩
    rw [unknownTarget?, targets, List.find?_map] at htarget
    obtain ⟨e, he, rfl⟩ := Option.map_eq_some_iff.mp htarget
    refine ⟨_, addNode_eq_ok_iff.mpr ⟨⟨hc.name, hc.kind, hnew⟩, rfl⟩, ?_⟩
    exact bind_eq_error_iff.mpr (Or.inl ((forM_eq_error_iff hedges).mpr ⟨e, he, rfl⟩))

/-- **A proper update fails for its entity, or else for the first target that is unknown.** -/
theorem update_eq_error_iff {u : EntityUpdate} :
    g.updateEntity u = .error failure ↔
      g.checkKind u.name u.kind = .error failure ∨
        ∃ node, g.node? u.name = some node ∧ node.kind = u.kind ∧
          ∃ target, g.unknownTarget? (.update u) = some target ∧
            failure = .notFound .node target := by
  have htargets : ∀ target ∈ u.relationships.flatMap RelationshipChange.targets,
      g.checkTarget u.name target =
        if g.isUnknown u.name target then .error (.notFound .node target) else .ok () :=
    fun target _ => checkTarget_eq target
  rw [updateEntity_eq_bind, bind_eq_error_iff]
  refine or_congr_right ⟨?_, ?_⟩
  · rintro ⟨_, hkind, h⟩
    obtain ⟨node, hnode, hkind⟩ := checkKind_eq_ok_iff.mp hkind
    refine ⟨node, hnode, hkind, ?_⟩
    -- The entity is there, so it is found again when the changes are made.
    rcases bind_eq_error_iff.mp h with h | ⟨_, _, h⟩
    · exact (forM_eq_error_iff htargets).mp h
    · rw [hnode] at h
      cases h
  · rintro ⟨node, hnode, hkind, htarget⟩
    refine ⟨(), checkKind_eq_ok_iff.mpr ⟨node, hnode, hkind⟩, ?_⟩
    exact bind_eq_error_iff.mpr (Or.inl ((forM_eq_error_iff htargets).mpr htarget))

/-- Once the entity is found to be there, deleting it cannot fail. -/
theorem delete_eq_error_iff {name kind : String} :
    g.deleteEntity name kind = .error failure ↔ g.checkKind name kind = .error failure := by
  rw [deleteEntity_eq_bind, bind_eq_error_iff]
  refine or_iff_left ?_
  rintro ⟨_, hkind, h⟩
  obtain ⟨node, hnode, _⟩ := checkKind_eq_ok_iff.mp hkind
  rw [onCopy_deleteNode, hasNode_iff.mpr (mem_names_of_node? hnode)] at h
  cases h

/-- **A proper change fails for the reasons of the list and for no other.** -/
theorem apply_eq_error_iff (hc : c.Proper) : c.apply g = .error failure ↔ Refusal g c failure := by
  -- Each reason of the list is the failure of one check, with those in front of it passed.
  cases c with
  | create node edges =>
    rw [apply, Report.ofEntity_eq_error_iff, create_eq_error_iff hc]
    constructor
    · rintro (⟨h, rfl⟩ | ⟨h, target, htarget, rfl⟩)
      · exact .taken h
      · exact .unknownToNew h htarget
    · intro h
      cases h with
      | taken h => exact Or.inl ⟨h, rfl⟩
      | unknownToNew h htarget => exact Or.inr ⟨h, _, htarget, rfl⟩
      | absent hc => exact absurd rfl hc
      | otherKind hc => exact absurd rfl hc
  | update u =>
    rw [apply, Report.ofEntity_eq_error_iff, update_eq_error_iff, checkKind_eq_error_iff]
    constructor
    · rintro ((⟨h, rfl⟩ | ⟨node, hnode, hkind, rfl⟩) | ⟨node, hnode, hkind, target, htarget, rfl⟩)
      · exact .absent (c := .update u) Verb.noConfusion h
      · exact .otherKind (c := .update u) Verb.noConfusion hnode hkind
      · exact .unknownToUpdated hnode hkind htarget
    · intro h
      cases h with
      | absent _ h => exact Or.inl (Or.inl ⟨h, rfl⟩)
      | otherKind _ hnode hkind => exact Or.inl (Or.inr ⟨_, hnode, hkind, rfl⟩)
      | unknownToUpdated hnode hkind htarget => exact Or.inr ⟨_, hnode, hkind, _, htarget, rfl⟩
  | delete name kind =>
    rw [apply, Report.ofEntity_eq_error_iff, delete_eq_error_iff, checkKind_eq_error_iff]
    constructor
    · rintro (⟨h, rfl⟩ | ⟨node, hnode, hkind, rfl⟩)
      · exact .absent (c := .delete name kind) Verb.noConfusion h
      · exact .otherKind (c := .delete name kind) Verb.noConfusion hnode hkind
    · intro h
      cases h with
      | absent _ h => exact Or.inl ⟨h, rfl⟩
      | otherKind _ hnode hkind => exact Or.inr ⟨_, hnode, hkind, rfl⟩

end EntityChange

/-! ## Changes that passed the checks of a tool -/

namespace Tool.EntityTool

variable {doc : Document} {t : EntityTool} {args : Members} {entity : String} {c : EntityChange}

/-- What a tool creates is proper: its edges start at the entity and are of kinds of the type. -/
theorem proper_of_creation (hdoc : EntityType.ofDocument doc = .ok t.type)
    (hentity : Text.isBlank entity = false) (h : t.creation entity args = .ok c) : c.Proper := by
  have hedges : ∀ e ∈ t.type.fields.flatMap (addedEdges entity args),
      e.source = entity ∧ Text.isBlank e.kind = false := by
    intro e he
    obtain ⟨f, hf, he⟩ := List.mem_flatMap.mp he
    obtain ⟨hsource, hrole⟩ := mem_addedEdges he
    exact ⟨hsource, isBlank_kind_of_role hdoc hf hrole⟩
  rw [creation_eq_ok h]
  exact {
    name := hentity
    kind := isBlank_kind hdoc
    edgeKinds := List.forall_mem_map.mpr fun e he => (hedges e he).2
    sources := List.forall_mem_map.mpr fun e he => (hedges e he).1 }

/-- So is what it updates. -/
theorem proper_of_updating (hdoc : EntityType.ofDocument doc = .ok t.type)
    (hentity : Text.isBlank entity = false) (h : t.updating entity args = .ok c) : c.Proper := by
  have hkinds : ∀ r ∈ t.type.fields.filterMap (relationshipChange? args),
      Text.isBlank r.kind = false := by
    intro r hr
    obtain ⟨f, hf, hr⟩ := List.mem_filterMap.mp hr
    exact isBlank_kind_of_role hdoc hf (role_of_relationshipChange? hr)
  rw [updating_eq_ok h]
  exact {
    name := hentity
    kind := isBlank_kind hdoc
    edgeKinds := List.forall_mem_map.mpr hkinds
    sources := fun _ hsource => absurd hsource List.not_mem_nil }

/-- What a tool asks for is proper, and it concerns the entity that the arguments name. -/
theorem proper_of_validate (hdoc : EntityType.ofDocument doc = .ok t.type)
    (h : t.validate (.obj args) = .ok c) :
    c.Proper ∧ c.verb = t.verb ∧ c.kind = t.type.kind ∧ entityName args = .ok c.name := by
  obtain ⟨entity, hentity, h⟩ := validate_eq_ok h
  have hblank := (entityName_eq_ok_iff.mp hentity).2
  cases hverb : t.verb with
  | add =>
    rw [hverb] at h
    refine ⟨proper_of_creation hdoc hblank h, ?_⟩
    rw [creation_eq_ok h]
    exact ⟨rfl, rfl, hentity⟩
  | update =>
    rw [hverb] at h
    refine ⟨proper_of_updating hdoc hblank h, ?_⟩
    rw [updating_eq_ok h]
    exact ⟨rfl, rfl, hentity⟩
  | delete =>
    rw [hverb] at h
    cases h
    exact ⟨⟨hblank, isBlank_kind hdoc, fun _ h => absurd h List.not_mem_nil,
      fun _ h => absurd h List.not_mem_nil⟩, rfl, rfl, hentity⟩

/-- **What a tool asks for is refused for the reasons of the list alone.**  Whatever arguments a
tool has accepted, its change is about the entity that they name and about the kind of its type, and
it fails on a graph exactly if the list has a reason for it, with the failure that the reason tells.
Blank names and kinds and edges that start elsewhere are no reasons any more: the change
has none. -/
theorem refusal_of_accepted {doc : Document} {t : EntityTool} {args : Json} {c : EntityChange}
    (hdoc : EntityType.ofDocument doc = .ok t.type) (hc : t.validate args = .ok c) :
    (∃ members, args = .obj members ∧ entityName members = .ok c.name) ∧
      c.verb = t.verb ∧ c.kind = t.type.kind ∧ c.Proper ∧
      ∀ g failure, c.apply g = .error failure ↔ Refusal g c failure := by
  cases args with
  | obj members =>
    obtain ⟨hproper, hverb, hkind, hname⟩ := proper_of_validate hdoc hc
    exact ⟨⟨members, rfl, hname⟩, hverb, hkind, hproper, fun g failure =>
      EntityChange.apply_eq_error_iff hproper⟩
  | _ => nomatch hc

/-! ## One change and three graphs -/

/-- Quests are given by somebody and lead to places. -/
def questDocument : Document where
  name := "quest"
  description := ""
  properties :=
    [("giver", ⟨.string, "", true, none, none, some ⟨"given_by", ""⟩⟩),
      ("stops", ⟨.array, "", false, none, none, some ⟨"leads_to", ""⟩⟩)]
  additional := false

def questType : EntityType :=
  ((EntityType.ofDocument questDocument).toOption).getD ⟨"", "", [], true⟩

/-- Sends a quest to itself, to a place and to somewhere else. -/
def questArgs : Json :=
  .obj [("stops", .arr [.str "Escort", .str "Town", .str "Moon", .str "Mars"]),
    ("name", .str "Escort")]

def questChange : EntityChange :=
  .update ⟨"Escort", "quest", [], [⟨"leads_to", ["Escort", "Town", "Moon", "Mars"]⟩]⟩

theorem refusal_of_escort :
    EntityTool.validate ⟨.update, questType⟩ questArgs = .ok questChange ∧
      questChange.apply ⟨[], []⟩ = .error (.notFound .node "Escort") ∧
      questChange.apply ⟨[⟨"Escort", "npc", []⟩], []⟩ =
        .error (.invalidArgument "name" "'Escort' is a npc node, not a quest node") ∧
      questChange.apply ⟨[⟨"Escort", "quest", []⟩, ⟨"Town", "place", []⟩], []⟩ =
        .error (.notFound .node "Moon") := by
  have hdoc : EntityType.ofDocument questDocument = .ok questType := rfl
  have hc : EntityTool.validate ⟨.update, questType⟩ questArgs = .ok questChange := rfl
  obtain ⟨_, _, _, _, hrefusal⟩ := refusal_of_accepted (t := ⟨.update, questType⟩) hdoc hc
  refine ⟨hc, (hrefusal _ _).mpr ?_, (hrefusal _ _).mpr ?_, (hrefusal _ _).mpr ?_⟩
  · exact .absent (c := questChange) (by decide) (by decide)
  · exact @Refusal.otherKind _ questChange ⟨"Escort", "npc", []⟩ (by decide) rfl (by decide)
  · exact @Refusal.unknownToUpdated _ _ ⟨"Escort", "quest", []⟩ _ rfl rfl rfl

end Tool.EntityTool

end GraphKeeper
