/-
  What an entity shows after any run of calls of the tools of its type.

  A run begins with the call that adds the entity and goes on with calls that update it, some of
  which may fail.  A history keeps the arguments of those that succeeded; it is not part of any
  state, but it tells which value a field was given last (`History.last?`).  After any run the graph
  shows these last values and nothing else (`EntityRun.lastWrites`):
    * a metadata field has one line with its value, or none if it was cleared or never given;
    * a relationship has one edge for each of its targets.

  The invariant (`Shown`) says so for one field at a time.  It holds after the first call because
  the lines and the edges of a new entity are those of its arguments, and each update changes the
  lines of one label and the edges of one kind for each field that it mentions.  Labels without
  blanks, distinct labels and distinct kinds are needed so that fields do not get in each other's
  way (`Separate`).
-/
import GraphKeeper.Proofs.EntityCalls
import GraphKeeper.Proofs.EntityTypes
import GraphKeeper.Proofs.Relationships

namespace GraphKeeper

open Schema Tool GraphKeeper.Graph Metadata

/-! ## Changes by fields -/

namespace Schema.EntityType

variable {type : EntityType} {args : Members} {f : EntityField} {kind name : String}

/-- The fields do not get in each other's way: their labels are labels of lines and distinct, and
so are the kinds of their edges. -/
structure Separate (type : EntityType) : Prop where
  isLabel : ∀ f ∈ type.metadataFields, isLabel f.label.toList = true
  nodup_labels : (type.metadataFields.map EntityField.label).Nodup
  nodup_kinds : (type.relationshipFields.map Prod.snd).Nodup

/-- The changes that set some of the metadata fields, each to a value or to none. -/
def settings (type : EntityType) (value : EntityField → Option (Option String)) :
    List MetadataChange :=
  type.metadataFields.filterMap fun f => (value f).map (MetadataChange.mk f.label)

/-- An update sets the metadata fields that it mentions. -/
theorem filterMap_metadataChange? :
    type.fields.filterMap (metadataChange? args) =
      type.settings fun f => (args.get? f.name).map renderValue := by
  rw [settings, metadataFields, List.filterMap_filter]
  refine congrArg (List.filterMap · type.fields) (funext fun f => ?_)
  rw [metadataChange?, Option.map_map]
  cases f.role <;> rfl

/-- An addition sets those that have a value with a text. -/
theorem filterMap_addedChange? :
    type.fields.filterMap (addedChange? args) =
      type.settings fun f => ((present? args f.name).bind renderValue).map some := by
  rw [settings, metadataFields, List.filterMap_filter]
  refine congrArg (List.filterMap · type.fields) (funext fun f => ?_)
  rw [addedChange?, Option.map_map]
  cases f.role <;> rfl

/-- A change of the metadata belongs to a field. -/
theorem mem_settings {value : EntityField → Option (Option String)} {c : MetadataChange} :
    c ∈ type.settings value ↔
      ∃ f ∈ type.metadataFields, ∃ v, value f = some v ∧ c = ⟨f.label, v⟩ := by
  rw [settings, List.mem_filterMap]
  constructor
  · rintro ⟨f, hf, h⟩
    obtain ⟨v, hv, rfl⟩ := Option.map_eq_some_iff.mp h
    exact ⟨f, hf, v, hv, rfl⟩
  · rintro ⟨f, hf, v, hv, rfl⟩
    exact ⟨f, hf, Option.map_eq_some_iff.mpr ⟨v, hv, rfl⟩⟩

/-- Its label is that of the field, so lines can carry it. -/
theorem isLabel_of_mem_settings (h : ∀ f ∈ type.metadataFields, isLabel f.label.toList = true)
    {value : EntityField → Option (Option String)} :
    ∀ c ∈ type.settings value, isLabel c.label.toList = true := by
  intro c hc
  obtain ⟨f, hf, v, _, rfl⟩ := mem_settings.mp hc
  exact h f hf

/-- Different changes have different labels, as the fields have. -/
theorem nodup_settings (h : (type.metadataFields.map EntityField.label).Nodup)
    (value : EntityField → Option (Option String)) :
    ((type.settings value).map MetadataChange.label).Nodup := by
  refine List.Nodup.sublist (map_filterMap_sublist (fun f c hc => ?_) _) h
  obtain ⟨v, _, rfl⟩ := Option.map_eq_some_iff.mp hc
  rfl

/-- The changes that give some of the relationships their targets. -/
def retargets (type : EntityType) (value : EntityField → Option (List String)) :
    List RelationshipChange :=
  type.relationshipFields.filterMap fun p => (value p.1).map (RelationshipChange.mk p.2)

/-- An update retargets the relationships that it mentions, each target once. -/
theorem filterMap_relationshipChange? :
    type.fields.filterMap (relationshipChange? args) =
      type.retargets fun f => (args.get? f.name).map fun v => distinct (namesIn v) := by
  rw [retargets, relationshipFields, List.filterMap_filterMap]
  refine congrArg (List.filterMap · type.fields) (funext fun f => ?_)
  unfold relationshipChange?
  cases f.role with
  | key => rfl
  | metadata => rfl
  | relationship kind => exact (Option.map_map _ _ _).symm

/-- A change of relationships belongs to a field, and is known by its kind. -/
theorem mem_retargets {value : EntityField → Option (List String)} {c : RelationshipChange} :
    c ∈ type.retargets value ↔
      ∃ f, (f, c.kind) ∈ type.relationshipFields ∧ value f = some c.targets := by
  rw [retargets, List.mem_filterMap]
  constructor
  · rintro ⟨⟨f, kind⟩, hf, h⟩
    obtain ⟨targets, hv, rfl⟩ := Option.map_eq_some_iff.mp h
    exact ⟨f, hf, hv⟩
  · rintro ⟨f, hf, hv⟩
    exact ⟨(f, c.kind), hf, Option.map_eq_some_iff.mpr ⟨c.targets, hv, rfl⟩⟩

/-- Only the relationships of a new entity give it edges. -/
theorem flatMap_addedEdges (name : String) (fields : List EntityField) :
    fields.flatMap (addedEdges name args) =
      (fields.filterMap fun f => match f.role with
        | .relationship kind => some (f, kind)
        | _ => none).flatMap fun p => addedEdges name args p.1 := by
  induction fields with
  | nil => rfl
  | cons f fields ih =>
    rw [List.flatMap_cons, ih, List.filterMap_cons]
    cases hrole : f.role with
    | relationship kind => rfl
    | _ =>
      rw [addedEdges, hrole]
      rfl

namespace Separate

/-- A field that is set has the line of its value, before further ones it had. -/
theorem carrying_of_some (h : Separate type) {value : EntityField → Option (Option String)}
    (hf : f ∈ type.metadataFields) {v : Option String} (hv : value f = some v)
    (lines : List String) :
    carrying f.label (applyMetadata lines (type.settings value)) =
      (v.map (line f.label)).toList ++ (carrying f.label lines).tail :=
  carrying_applyMetadata (isLabel_of_mem_settings h.isLabel) (nodup_settings h.nodup_labels value)
    (mem_settings.mpr ⟨f, hf, v, hv, rfl⟩) lines

/-- A field that is not set has the lines it had. -/
theorem carrying_of_none (h : Separate type) {value : EntityField → Option (Option String)}
    (hf : f ∈ type.metadataFields) (hv : value f = none) (lines : List String) :
    carrying f.label (applyMetadata lines (type.settings value)) = carrying f.label lines := by
  refine carrying_applyMetadata_of_forall_ne (isLabel_of_mem_settings h.isLabel)
    (fun c hc hlabel => ?_) lines
  obtain ⟨f', hf', v, hv', rfl⟩ := mem_settings.mp hc
  rw [List.inj_on_of_nodup_map h.nodup_labels hf' hf hlabel, hv] at hv'
  nomatch hv'

/-- After changes there are no lines but those of fields and those from before. -/
theorem label_of_mem (h : Separate type) {value : EntityField → Option (Option String)}
    {lines : List String} {l : String} (hl : l ∈ applyMetadata lines (type.settings value)) :
    l ∈ lines ∨ ∃ f ∈ type.metadataFields, label? l = some f.label := by
  rcases mem_applyMetadata hl with hl | ⟨c, hc, v, _, rfl⟩
  · exact Or.inl hl
  · obtain ⟨f, hf, _, _, rfl⟩ := mem_settings.mp hc
    exact Or.inr ⟨f, hf, label?_line (h.isLabel f hf) v⟩

/-- A relationship is known by the kind of its edges. -/
theorem field_eq (h : Separate type) {f' : EntityField} (hf : (f, kind) ∈ type.relationshipFields)
    (hf' : (f', kind) ∈ type.relationshipFields) : f' = f :=
  congrArg Prod.fst (List.inj_on_of_nodup_map h.nodup_kinds hf' hf rfl)

/-- Different changes are of different kinds, as the relationships are. -/
theorem nodup_retargets (h : Separate type) (value : EntityField → Option (List String)) :
    ((type.retargets value).map RelationshipChange.kind).Nodup := by
  refine List.Nodup.sublist (map_filterMap_sublist (fun p c hc => ?_) _) h.nodup_kinds
  obtain ⟨targets, _, rfl⟩ := Option.map_eq_some_iff.mp hc
  rfl

/-- A relationship that is retargeted has one edge for each target, and no others. -/
theorem outgoing_of_some (h : Separate type) {value : EntityField → Option (List String)}
    (hf : (f, kind) ∈ type.relationshipFields) {targets : List String}
    (hv : value f = some targets) (edges : List Edge) :
    outgoing name kind ((type.retargets value).foldl (relate name) edges) =
      (distinct targets).map (⟨name, ·, kind⟩) :=
  outgoing_foldl_relate (c := ⟨kind, targets⟩) (h.nodup_retargets value)
    (mem_retargets.mpr ⟨f, hf, hv⟩) edges

/-- A relationship that is not mentioned has the edges it had. -/
theorem outgoing_of_none (h : Separate type) {value : EntityField → Option (List String)}
    (hf : (f, kind) ∈ type.relationshipFields) (hv : value f = none) (edges : List Edge) :
    outgoing name kind ((type.retargets value).foldl (relate name) edges) =
      outgoing name kind edges := by
  refine outgoing_foldl_relate_of_forall_ne (fun c hc hkind => ?_) edges
  obtain ⟨f', hf', hv'⟩ := mem_retargets.mp hc
  rw [hkind] at hf'
  rw [h.field_eq hf hf', hv] at hv'
  nomatch hv'

/-- Among the edges of a new entity, those of one kind come from one field. -/
theorem outgoing_addedEdges (h : Separate type) (hf : (f, kind) ∈ type.relationshipFields) :
    outgoing name kind (distinct (type.fields.flatMap (addedEdges name args))) =
      (distinct (((present? args f.name).map namesIn).getD [])).map (⟨name, ·, kind⟩) := by
  have hedges : ∀ {f kind}, (f, kind) ∈ type.relationshipFields → addedEdges name args f =
      (distinct (((present? args f.name).map namesIn).getD [])).map (⟨name, ·, kind⟩) := by
    intro f kind hf
    rw [addedEdges, (mem_relationshipFields.mp hf).2]
  have hof : outgoing name kind (type.fields.flatMap (addedEdges name args)) =
      addedEdges name args f := by
    rw [flatMap_addedEdges]
    -- All edges of this field are of its kind, and none of another field are.
    refine filter_flatMap_eq (List.Nodup.of_map _ h.nodup_kinds) hf (fun e he => ?_)
      fun p hp hne e he => ?_
    · rw [hedges hf] at he
      obtain ⟨target, _, rfl⟩ := List.mem_map.mp he
      exact decide_eq_true ⟨rfl, rfl⟩
    · obtain ⟨f', kind'⟩ := p
      rw [hedges hp] at he
      obtain ⟨target, _, rfl⟩ := List.mem_map.mp he
      rw [decide_eq_true_iff]
      rintro ⟨_, rfl⟩
      exact hne (congrArg (·, kind') (h.field_eq hf hp))
  rw [outgoing_distinct, hof, hedges hf]
  refine distinct_eq_self ((nodup_distinct _).map fun a b hab => ?_)
  exact congrArg Edge.target hab

end Separate

end Schema.EntityType

/-! ## Runs -/

/-- The arguments of the calls that succeeded: of the one that added the entity, and of those that
updated it, the latest first. -/
structure History where
  added : Members
  updates : List Members

/-- The value that a field was given by the latest call that mentions it.  An update mentions a
field by naming it; the first call does so only by a value that is not `null`. -/
def History.last? (h : History) (field : String) : Option Json :=
  (h.updates.findSome? (·.get? field)).or (present? h.added field)

/-- The latest call counts, and the ones before it for what it does not mention. -/
theorem History.last?_update (h : History) (args : Members) (field : String) :
    History.last? { h with updates := args :: h.updates } field =
      (args.get? field).or (h.last? field) := by
  rw [last?, last?, List.findSome?_cons]
  cases args.get? field <;> rfl

/-- A run of calls for the entity `name`: one that adds it to a well formed graph, and updates of
it.  The disk may be another one at each call, and calls that fail may be in between. -/
inductive EntityRun (type : EntityType) (name : String) : Store → History → Prop
  | added {s s' : Store} {d d' : Disk} {args : Members} {response : Response}
    (hs : s.graph.WellFormed) (hname : entityName args = .ok name)
    (h : EntityTool.call ⟨.add, type⟩ s d (.obj args) = (.ok response, s', d')) :
    EntityRun type name s' ⟨args, []⟩
  | updated {s s' : Store} {d d' : Disk} {args : Members} {response : Response}
    {history : History} (hrun : EntityRun type name s history)
    (hname : entityName args = .ok name)
    (h : EntityTool.call ⟨.update, type⟩ s d (.obj args) = (.ok response, s', d')) :
    EntityRun type name s' { history with updates := args :: history.updates }
  | refused {s s' : Store} {d d' : Disk} {args : Json} {failure : Failure} {history : History}
    (hrun : EntityRun type name s history)
    (h : EntityTool.call ⟨.update, type⟩ s d args = (.error failure, s', d')) :
    EntityRun type name s' history

/-! ## The invariant of a run -/

/-- The node of the entity and its outgoing edges, one field at a time. -/
structure Shown (type : EntityType) (name : String) (history : History) (g : Graph) (node : Node) :
    Prop where
  found : g.node? name = some node
  kind : node.kind = type.kind
  lines : ∀ f ∈ type.metadataFields, carrying f.label node.metadata =
    (((history.last? f.name).bind renderValue).map (line f.label)).toList
  labels : ∀ l ∈ node.metadata, ∃ f ∈ type.metadataFields, label? l = some f.label
  edges : ∀ f kind, (f, kind) ∈ type.relationshipFields → outgoing name kind g.edges =
    (distinct (((history.last? f.name).map namesIn).getD [])).map (⟨name, ·, kind⟩)

section Steps

variable {type : EntityType} {name : String} {s s' : Store} {d d' : Disk} {args : Members}
  {response : Response} {history : History}

/-- **The invariant holds after the call that adds the entity.**  Its lines and edges are those of
its arguments. -/
theorem shown_of_added (ht : type.Separate) (hs : s.graph.WellFormed)
    (hname : entityName args = .ok name)
    (h : EntityTool.call ⟨.add, type⟩ s d (.obj args) = (.ok response, s', d')) :
    ∃ node, Shown type name ⟨args, []⟩ s'.graph node := by
  obtain ⟨hnew, hgraph⟩ := EntityTool.graph_of_added hname h
  rw [EntityType.filterMap_addedChange?] at hgraph
  rw [hgraph]
  refine ⟨_, node?_append_self hnew, rfl, fun f hf => ?_, fun l hl => ?_, fun f kind hf => ?_⟩
  · show carrying f.label (applyMetadata [] _) =
      (((present? args f.name).bind renderValue).map _).toList
    cases hv : (present? args f.name).bind renderValue with
    | none => exact ht.carrying_of_none hf (by rw [hv]; rfl) []
    | some text =>
      exact (ht.carrying_of_some hf (v := some text) (by rw [hv]; rfl) []).trans
        (List.append_nil _)
  · rcases ht.label_of_mem hl with hl | hl
    · exact absurd hl List.not_mem_nil
    · exact hl
  -- No edge can have started at a node that was not there.
  · have hold : outgoing name kind s.graph.edges = [] := by
      refine outgoing_eq_nil fun e he hsource _ => ?_
      exact hnew (hsource ▸ hs.source_mem e he)
    show outgoing name kind (s.graph.edges ++ _) = _
    rw [outgoing_append, hold, List.nil_append]
    exact ht.outgoing_addedEdges hf

/-- **An update keeps the invariant**: a field that it mentions is shown anew, any other
as before. -/
theorem shown_of_updated (ht : type.Separate) {node : Node}
    (hshown : Shown type name history s.graph node) (hname : entityName args = .ok name)
    (h : EntityTool.call ⟨.update, type⟩ s d (.obj args) = (.ok response, s', d')) :
    ∃ node', Shown type name { history with updates := args :: history.updates } s'.graph
      node' := by
  obtain ⟨node', hnode, hkind, hgraph⟩ := EntityTool.graph_of_updated hname h
  cases hshown.found.symm.trans hnode
  rw [EntityType.filterMap_metadataChange?, EntityType.filterMap_relationshipChange?] at hgraph
  rw [hgraph]
  have hfound : (s.graph.modifyNode name fun node => { node with
      metadata := applyMetadata node.metadata
        (type.settings fun f => (args.get? f.name).map renderValue) }).node? name = _ :=
    node?_modifyNode fun _ => rfl
  rw [hnode] at hfound
  refine ⟨_, hfound, hkind, fun f hf => ?_, fun l hl => ?_, fun f kind hf => ?_⟩
  · have hold := hshown.lines f hf
    rw [History.last?_update]
    -- A field that the call mentions has the value of the call, any other one that of the history.
    cases hv : args.get? f.name with
    | none =>
      exact (ht.carrying_of_none hf (by rw [hv]; rfl) node.metadata).trans hold
    | some v =>
      -- There was one line at most, and it is the one that is set now.
      have htail : (carrying f.label node.metadata).tail = [] := by
        rw [hold]
        cases (history.last? f.name).bind renderValue <;> rfl
      have hset : carrying f.label (applyMetadata node.metadata
          (type.settings fun f => (args.get? f.name).map renderValue)) =
            ((renderValue v).map (line f.label)).toList ++ (carrying f.label node.metadata).tail :=
        ht.carrying_of_some hf (by rw [hv]; rfl) node.metadata
      rw [htail, List.append_nil] at hset
      exact hset
  · rcases ht.label_of_mem hl with hl | hl
    · exact hshown.labels l hl
    · exact hl
  · rw [History.last?_update]
    cases hv : args.get? f.name with
    | none =>
      exact (ht.outgoing_of_none hf (by rw [hv]; rfl) s.graph.edges).trans
        (hshown.edges f kind hf)
    | some v =>
      refine (ht.outgoing_of_some hf (by rw [hv]; rfl) s.graph.edges).trans ?_
      rw [distinct_eq_self (nodup_distinct _)]
      rfl

/-- **Every state of a run shows the fields of its history.** -/
theorem EntityRun.shown (ht : type.Separate) (hrun : EntityRun type name s history) :
    ∃ node, Shown type name history s.graph node := by
  -- A call that failed has left the store as it was, and the history does not know of it.
  induction hrun with
  | added hs hname h => exact shown_of_added ht hs hname h
  | updated _ hname h ih =>
    obtain ⟨node, hshown⟩ := ih
    exact shown_of_updated ht hshown hname h
  | refused _ h ih =>
    rw [(EntityTool.call_eq_error h).1]
    exact ih

end Steps

/-! ## What a run comes to -/

/-- A value has a text unless it is `null` or an empty array. -/
theorem renderValue_eq_some {v : Json} (hnull : v ≠ .null) (hnil : v ≠ .arr []) :
    ∃ text, renderValue v = some text := by
  cases v with
  | null => exact absurd rfl hnull
  | arr vs =>
    cases vs with
    | nil => exact absurd rfl hnil
    | cons v vs => exact ⟨_, rfl⟩
  | _ => exact ⟨_, rfl⟩

/-- What the graph shows of an entity: for each field the value that was written last, and nothing
else. -/
structure LastWrites (type : EntityType) (name : String) (history : History) (g : Graph)
    (node : Node) : Prop where
  found : g.node? name = some node
  kind : node.kind = type.kind
  /-- A field with a value has one line, which holds the value. -/
  written : ∀ f ∈ type.metadataFields, ∀ v, history.last? f.name = some v → v ≠ .null →
    v ≠ .arr [] → ∃ text, renderValue v = some text ∧
      carrying f.label node.metadata = [line f.label text]
  /-- A field that was never mentioned, or was cleared, has no line. -/
  cleared : ∀ f ∈ type.metadataFields,
    (∀ v, history.last? f.name = some v → v = .null ∨ v = .arr []) →
      carrying f.label node.metadata = []
  /-- There are no lines but those of the fields. -/
  labels : ∀ l ∈ node.metadata, ∃ f ∈ type.metadataFields, label? l = some f.label
  /-- A relationship that was mentioned has one edge for each of the targets written last. -/
  targets : ∀ f kind, (f, kind) ∈ type.relationshipFields → ∀ v, history.last? f.name = some v →
    outgoing name kind g.edges = (distinct (namesIn v)).map (⟨name, ·, kind⟩)

/-- **The last write of each field wins.**  Take a type whose metadata labels have no blanks and are
distinct, as are the kinds of its edges.  After any run of its tools, the graph shows of the entity
the value that the latest successful call gave to each field, and nothing else. -/
theorem EntityRun.lastWrites {doc : Document} {type : EntityType} {name : String} {s : Store}
    {history : History} (hdoc : EntityType.ofDocument doc = .ok type)
    (hblank : ∀ f ∈ type.metadataFields, f.label.toList.any Text.isBlankChar = false)
    (hlabels : (type.metadataFields.map EntityField.label).Nodup)
    (hkinds : (type.relationshipFields.map Prod.snd).Nodup)
    (hrun : EntityRun type name s history) :
    ∃ node, LastWrites type name history s.graph node := by
  have ht : type.Separate := ⟨fun f hf => isLabel_label hdoc hf (hblank f hf), hlabels, hkinds⟩
  obtain ⟨node, hshown⟩ := hrun.shown ht
  refine ⟨node, hshown.found, hshown.kind, fun f hf v hv hnull hnil => ?_, fun f hf hv => ?_,
    hshown.labels, fun f kind hf v hv => ?_⟩
  · obtain ⟨text, htext⟩ := renderValue_eq_some hnull hnil
    refine ⟨text, htext, ?_⟩
    rw [hshown.lines f hf, hv, Option.bind_some, htext]
    rfl
  · rw [hshown.lines f hf]
    -- Never mentioned, `null`, or an empty array: none of the three has a text.
    cases hlast : history.last? f.name with
    | none => rfl
    | some v => rcases hv v hlast with rfl | rfl <;> rfl
  · rw [hshown.edges f kind hf, hv]
    rfl

/-! ## A run -/

/-- A document with two metadata fields and two relationships. -/
def npcDocument : Document where
  name := "add_npc"
  description := ""
  properties :=
    [("role", ⟨.string, "", true, none, none, none⟩),
      ("tags", ⟨.array, "", false, none, none, none⟩),
      ("home", ⟨.string, "", false, none, none, some ⟨"lives_in", ""⟩⟩),
      ("allies", ⟨.array, "", false, none, some ⟨.string, none⟩, some ⟨"knows", ""⟩⟩)]
  additional := false

def npcType : EntityType :=
  ((EntityType.ofDocument npcDocument).toOption).getD ⟨"", "", [], true⟩

/-- Adds an entity with a value that looks like a line, and with itself as a target. -/
def annAdded : Members :=
  [("name", .str "Ann"), ("role", .str "a: b"), ("tags", .null), ("home", .str "Town"),
    ("allies", .arr [.str "Ann", .str "Town", .str "Ann"])]

/-- Clears a field of either sort and sets another. -/
def annUpdated : Members :=
  [("allies", .arr []), ("role", .null), ("tags", .arr [.str "x", .str "y"]), ("name", .str "Ann")]

/-- A call for which a target is missing, between the two. -/
def annRefused : Members := [("name", .str "Ann"), ("home", .str "Nowhere")]

/-- The run of the three calls comes to the graph that is written out, and the last writes are in
it. -/
theorem lastWrites_ann :
    let s₀ : Store := ⟨"m", ⟨[⟨"Town", "place", []⟩], []⟩⟩
    let s₁ := (EntityTool.call ⟨.add, npcType⟩ s₀ .empty (.obj annAdded)).2.1
    let s₂ := (EntityTool.call ⟨.update, npcType⟩ s₁ .empty (.obj annRefused)).2.1
    let s₃ := (EntityTool.call ⟨.update, npcType⟩ s₂ .empty (.obj annUpdated)).2.1
    s₃.graph = ⟨[⟨"Town", "place", []⟩, ⟨"Ann", "npc", ["Tags: x, y"]⟩],
      [⟨"Ann", "Town", "lives_in"⟩]⟩ ∧
    ∃ node, LastWrites npcType "Ann" ⟨annAdded, [annUpdated]⟩ s₃.graph node := by
  intro s₀ s₁ s₂ s₃
  have hok : ∀ (t : EntityTool) (s : Store) (args : Json),
      (t.call s .empty args).1.isOk = true →
        ∃ response, t.call s .empty args =
          (.ok response, (t.call s .empty args).2.1, (t.call s .empty args).2.2) := by
    intro t s args h
    rcases hcall : t.call s .empty args with ⟨_ | response, after⟩
    · rw [hcall] at h
      nomatch h
    · exact ⟨response, rfl⟩
  have hfails : ∀ (t : EntityTool) (s : Store) (args : Json),
      (t.call s .empty args).1.isOk = false →
        ∃ failure, t.call s .empty args =
          (.error failure, (t.call s .empty args).2.1, (t.call s .empty args).2.2) := by
    intro t s args h
    rcases hcall : t.call s .empty args with ⟨failure | _, after⟩
    · exact ⟨failure, rfl⟩
    · rw [hcall] at h
      nomatch h
  obtain ⟨_, hadd⟩ := hok ⟨.add, npcType⟩ s₀ (.obj annAdded) (by decide +kernel)
  obtain ⟨_, hrefuse⟩ := hfails ⟨.update, npcType⟩ s₁ (.obj annRefused) (by decide +kernel)
  obtain ⟨_, hupdate⟩ := hok ⟨.update, npcType⟩ s₂ (.obj annUpdated) (by decide +kernel)
  have hfirst : EntityRun npcType "Ann" s₁ ⟨annAdded, []⟩ := .added (by decide) rfl hadd
  have hsecond : EntityRun npcType "Ann" s₂ ⟨annAdded, []⟩ := hfirst.refused hrefuse
  have hrun : EntityRun npcType "Ann" s₃ ⟨annAdded, [annUpdated]⟩ :=
    hsecond.updated rfl hupdate
  have hdoc : EntityType.ofDocument npcDocument = .ok npcType := rfl
  exact ⟨by decide +kernel,
    EntityRun.lastWrites hdoc (by decide) (by decide) (by decide) hrun⟩

end GraphKeeper
