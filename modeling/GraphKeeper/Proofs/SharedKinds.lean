/-
  Relationships that share the kind of their edges.

  Nothing keeps a document from giving one kind of edges to several of its fields.  The tool that
  adds an entity takes the edges of all of them together, so the node gets the targets of each field
  (`EntityTool.targets_of_added`).  The tool that updates an entity makes one change of each field,
  and each change clears the edges of its kind first.  So the last of the fields that a call
  mentions decides alone, and what the ones before it name is lost without a word
  (`EntityTool.targets_of_updated`): an update keeps all values exactly if the last field names all
  of them anyway.

  That a kind belongs to one field only is what `EntityRun.lastWrites` asks for; here nothing is
  asked of the type.
-/
import GraphKeeper.Proofs.EntityRuns
import Mathlib.Data.List.Induction

namespace GraphKeeper

open Schema Tool GraphKeeper.Graph

/-! ## The last change of a kind -/

namespace Graph

variable {name kind : String}

/-- The targets of the edges of a kind that start at a node, in order. -/
def targetsOf (g : Graph) (name kind : String) : List String :=
  (outgoing name kind g.edges).map Edge.target

/-- **Of several changes of one kind the last one decides.**  A change that comes behind it is of
another kind and does not touch these edges. -/
theorem outgoing_foldl_relate_last {changes : List RelationshipChange} {c : RelationshipChange}
    (h : (changes.filter (·.kind == kind)).getLast? = some c) (edges : List Edge) :
    outgoing name kind (changes.foldl (relate name) edges) =
      (distinct c.targets).map (⟨name, ·, kind⟩) := by
  -- The induction is on the last change, which either is of the kind or does not touch it.
  induction changes using List.reverseRecOn with
  | nil => nomatch h
  | append_singleton changes last ih =>
    rw [List.filter_append] at h
    rw [List.foldl_append, List.foldl_cons, List.foldl_nil]
    by_cases hkind : last.kind = kind
    · subst hkind
      have hlast : [last].filter (·.kind == last.kind) = [last] :=
        List.filter_cons_of_pos (beq_self_eq_true last.kind)
      rw [hlast, List.getLast?_concat] at h
      obtain rfl : last = c := Option.some.inj h
      exact outgoing_relate_self name _ last
    · have hlast : [last].filter (·.kind == kind) = [] :=
        List.filter_cons_of_neg (by simpa using hkind)
      rw [hlast, List.append_nil] at h
      rw [outgoing_relate_of_ne hkind]
      exact ih h

end Graph

/-! ## Fields of one kind -/

/-- The targets that the arguments name in a field; `null` names none. -/
def Tool.targetsIn (args : Members) (f : EntityField) : List String :=
  ((args.get? f.name).map namesIn).getD []

namespace Schema.EntityType

variable {args : Members} {kind : String}

/-- Whether the arguments mention a field, and the field is a relationship of the kind. -/
def mentions (args : Members) (kind : String) (f : EntityField) : Bool :=
  f.role == .relationship kind && (args.get? f.name).isSome

/-- The relationships of a kind that the arguments mention, in the order of the fields. -/
def mentioned (type : EntityType) (args : Members) (kind : String) : List EntityField :=
  type.fields.filter (mentions args kind)

/-- The change that a field asks for, if it is one of the kind. -/
theorem relationshipChange?_filter (f : EntityField) :
    (relationshipChange? args f).filter (·.kind == kind) =
      if mentions args kind f then some ⟨kind, distinct (targetsIn args f)⟩ else none := by
  rw [relationshipChange?, mentions, targetsIn]
  cases f.role with
  | key => rfl
  | metadata => rfl
  | relationship kind' =>
    cases args.get? f.name with
    | none => simp
    | some v =>
      by_cases hkind : kind' = kind
      · subst hkind
        simp
      · simp [hkind]

/-- The changes of a kind are those of the fields that are mentioned. -/
theorem filter_relationshipChange? (type : EntityType) :
    (type.fields.filterMap (relationshipChange? args)).filter (·.kind == kind) =
      (type.mentioned args kind).map fun f => ⟨kind, distinct (targetsIn args f)⟩ := by
  rw [List.filter_filterMap, mentioned, ← List.filterMap_eq_map, List.filterMap_filter]
  exact List.filterMap_congr fun f _ => relationshipChange?_filter f

end Schema.EntityType

/-! ## A type with two fields of one kind -/

/-- A document with two relationships of one kind. -/
def outlawDocument : Document where
  name := "add_outlaw"
  description := ""
  properties :=
    [("name", ⟨.string, "", true, none, none, none⟩),
      ("home", ⟨.string, "", false, none, none, some ⟨"hides_in", ""⟩⟩),
      ("hideout", ⟨.string, "", false, none, none, some ⟨"hides_in", ""⟩⟩)]
  additional := true

def outlawType : EntityType :=
  ((EntityType.ofDocument outlawDocument).toOption).getD ⟨"", "", [], true⟩

/-- A target for each of the two. -/
def robin : Members := [("name", .str "Robin"), ("home", .str "Cave"), ("hideout", .str "Forest")]

/-- The targets, without and with the entity. -/
def hidingPlaces : Store := ⟨"m", ⟨[⟨"Cave", "location", []⟩, ⟨"Forest", "location", []⟩], []⟩⟩

def robinAlone : Store :=
  { hidingPlaces with graph := ⟨hidingPlaces.graph.nodes ++ [⟨"Robin", "outlaw", []⟩], []⟩ }

/-! ## Calls -/

namespace Tool.EntityTool

variable {type : EntityType} {name kind : String} {s s' : Store} {d d' : Disk} {args : Members}
  {response : Response}

theorem call_of_isOk {t : EntityTool} {args : Json} (h : (t.call s d args).1.isOk = true) :
    ∃ response, t.call s d args = (.ok response, (t.call s d args).2) :=
  exists_eq_ok_of_isOk h

/-- An update leaves the targets of the last field of a kind that is mentioned. -/
theorem targetsOf_of_updated (hname : entityName args = .ok name)
    (h : call ⟨.update, type⟩ s d (.obj args) = (.ok response, s', d')) {last : EntityField}
    (hlast : (type.mentioned args kind).getLast? = some last) :
    s'.graph.targetsOf name kind = distinct (targetsIn args last) := by
  obtain ⟨node, _, _, hgraph⟩ := graph_of_updated hname h
  -- The changes of the kind are those of the fields mentioned, so the last of them is that of the
  -- last field.
  have hchange : ((type.fields.filterMap (relationshipChange? args)).filter
      (·.kind == kind)).getLast? = some ⟨kind, distinct (targetsIn args last)⟩ := by
    rw [EntityType.filter_relationshipChange?, List.getLast?_map, hlast]
    rfl
  rw [hgraph, targetsOf, outgoing_foldl_relate_last hchange, List.map_map,
    distinct_eq_self (nodup_distinct _)]
  exact List.map_id _

/-- The targets of the last field are those of all fields if it names all of them. -/
theorem eq_last_iff {fields : List EntityField} {last : EntityField}
    (hlast : fields.getLast? = some last) :
    (∀ target, target ∈ distinct (targetsIn args last) ↔
        ∃ f ∈ fields, target ∈ targetsIn args f) ↔
      ∀ f ∈ fields, targetsIn args f ⊆ targetsIn args last := by
  constructor
  · intro hall f hf target htarget
    exact mem_distinct.mp ((hall target).mpr ⟨f, hf, htarget⟩)
  · intro hcovered target
    rw [mem_distinct]
    exact ⟨fun htarget => ⟨last, List.mem_of_getLast? hlast, htarget⟩,
      fun ⟨f, hf, htarget⟩ => hcovered f hf htarget⟩

/-- **An update leaves the targets of the last field that was mentioned.**  Take any type and a kind
of edges that some fields of the call have.  After a call that succeeds the entity has the targets
of the last of them, each one once.  So it has the targets of all of them exactly if those before
name no others. -/
theorem targets_of_updated (hname : entityName args = .ok name)
    (h : call ⟨.update, type⟩ s d (.obj args) = (.ok response, s', d'))
    (hmentioned : type.mentioned args kind ≠ []) :
    ∃ last, (type.mentioned args kind).getLast? = some last ∧
      s'.graph.targetsOf name kind = distinct (targetsIn args last) ∧
      ((∀ target, target ∈ s'.graph.targetsOf name kind ↔
          ∃ f ∈ type.mentioned args kind, target ∈ targetsIn args f) ↔
        ∀ f ∈ type.mentioned args kind, targetsIn args f ⊆ targetsIn args last) := by
  have hlast := List.getLast?_eq_some_getLast hmentioned
  have htargets := targetsOf_of_updated hname h hlast
  refine ⟨_, hlast, htargets, ?_⟩
  rw [htargets]
  exact eq_last_iff hlast

/-- The update of an entity that names a target in each of two fields leaves the second one. -/
theorem targets_of_updated_robin :
    let s' := (call ⟨.update, outlawType⟩ robinAlone .empty (.obj robin)).2.1
    outlawType.mentioned robin "hides_in" ≠ [] ∧
      s'.graph.targetsOf "Robin" "hides_in" = ["Forest"] ∧
      ∃ last, (outlawType.mentioned robin "hides_in").getLast? = some last ∧
        s'.graph.targetsOf "Robin" "hides_in" = distinct (targetsIn robin last) ∧
        ((∀ target, target ∈ s'.graph.targetsOf "Robin" "hides_in" ↔
            ∃ f ∈ outlawType.mentioned robin "hides_in", target ∈ targetsIn robin f) ↔
          ∀ f ∈ outlawType.mentioned robin "hides_in",
            targetsIn robin f ⊆ targetsIn robin last) := by
  intro s'
  have hmentioned : outlawType.mentioned robin "hides_in" ≠ [] := by decide
  have hok : (call ⟨.update, outlawType⟩ robinAlone .empty (.obj robin)).1.isOk = true := by
    decide +kernel
  obtain ⟨response, hcall⟩ := call_of_isOk hok
  exact ⟨hmentioned, by decide +kernel, targets_of_updated rfl hcall hmentioned⟩

/-- Updates lose no value: whatever is mentioned, the entity has the targets of all fields of a
kind. -/
def KeepsTargets (type : EntityType) : Prop :=
  ∀ ⦃s s' : Store⦄ ⦃d d' : Disk⦄ ⦃args : Members⦄ ⦃response : Response⦄ ⦃name : String⦄,
    s.graph.WellFormed → entityName args = .ok name →
    call ⟨.update, type⟩ s d (.obj args) = (.ok response, s', d') →
    ∀ kind, type.mentioned args kind ≠ [] → ∀ target,
      target ∈ s'.graph.targetsOf name kind ↔
        ∃ f ∈ type.mentioned args kind, target ∈ targetsIn args f

/-- No value is lost where each kind of edges belongs to one field. -/
theorem keepsTargets_of_nodup (hkinds : (type.relationshipFields.map Prod.snd).Nodup) :
    KeepsTargets type := by
  intro s s' d d' args response name _ hname h kind hmentioned
  have hlast := List.getLast?_eq_some_getLast hmentioned
  rw [targetsOf_of_updated hname h hlast]
  refine (eq_last_iff hlast).mpr fun f hf => ?_
  have hfield : ∀ f ∈ type.mentioned args kind, (f, kind) ∈ type.relationshipFields := by
    intro f hf
    obtain ⟨hmem, hmentions⟩ := List.mem_filter.mp hf
    rw [EntityType.mentions, Bool.and_eq_true] at hmentions
    exact mem_relationshipFields.mpr ⟨hmem, eq_of_beq hmentions.1⟩
  have hsame : f = (type.mentioned args kind).getLast hmentioned := congrArg Prod.fst <|
    List.inj_on_of_nodup_map hkinds (hfield f hf) (hfield _ (List.getLast_mem hmentioned)) rfl
  rw [← hsame]
  exact List.Subset.refl _

/-- **Where two fields share a kind, values are lost.**  The document is one that a type is made of,
and the graph before the update is well formed. -/
theorem not_keepsTargets_outlawType :
    EntityType.ofDocument outlawDocument = .ok outlawType ∧ ¬ KeepsTargets outlawType := by
  refine ⟨rfl, fun h => ?_⟩
  have hok : (call ⟨.update, outlawType⟩ robinAlone .empty (.obj robin)).1.isOk = true := by
    decide +kernel
  have hlost : "Cave" ∉ (call ⟨.update, outlawType⟩ robinAlone .empty
      (.obj robin)).2.1.graph.targetsOf "Robin" "hides_in" := by
    decide +kernel
  obtain ⟨response, hcall⟩ := call_of_isOk hok
  exact hlost ((h (by decide) rfl hcall "hides_in" (by decide) "Cave").mpr (by decide))

/-- A new entity does not tell `null` from a field that is left out, and neither names targets. -/
theorem namesIn_present? (args : Members) (f : EntityField) :
    ((present? args f.name).map namesIn).getD [] = targetsIn args f := by
  rw [present?, targetsIn]
  cases args.get? f.name with
  | none => rfl
  | some v => cases v <;> rfl

/-- The edges that a field gives to a new entity lead to the targets named in it. -/
theorem mem_addedEdges_iff {f : EntityField} {target : String} :
    ⟨name, target, kind⟩ ∈ addedEdges name args f ↔
      EntityType.mentions args kind f = true ∧ target ∈ targetsIn args f := by
  have hmentioned : target ∈ targetsIn args f → (args.get? f.name).isSome = true := by
    rw [targetsIn]
    cases args.get? f.name with
    | none => exact fun h => absurd h List.not_mem_nil
    | some v => exact fun _ => rfl
  rw [addedEdges, EntityType.mentions, namesIn_present?]
  cases f.role with
  | key => simp
  | metadata => simp
  | relationship kind' =>
    simp only [List.mem_map, mem_distinct, Edge.mk.injEq, true_and, Bool.and_eq_true, beq_iff_eq,
      Role.relationship.injEq]
    constructor
    · rintro ⟨_, htarget, rfl, rfl⟩
      exact ⟨⟨rfl, hmentioned htarget⟩, htarget⟩
    · rintro ⟨⟨rfl, _⟩, htarget⟩
      exact ⟨target, htarget, rfl, rfl⟩

/-- **A new entity has the targets of all fields**, whether or not they share a kind. -/
theorem targets_of_added (hs : s.graph.WellFormed) (hname : entityName args = .ok name)
    (h : call ⟨.add, type⟩ s d (.obj args) = (.ok response, s', d')) (target : String) :
    target ∈ s'.graph.targetsOf name kind ↔
      ∃ f ∈ type.mentioned args kind, target ∈ targetsIn args f := by
  obtain ⟨hnew, hgraph⟩ := graph_of_added hname h
  have hold : outgoing name kind s.graph.edges = [] := by
    refine outgoing_eq_nil fun e he hsource _ => ?_
    exact hnew (hsource ▸ hs.source_mem e he)
  rw [hgraph, targetsOf, outgoing_append, hold, List.nil_append, outgoing_distinct]
  simp only [List.mem_map, mem_distinct, outgoing, List.mem_filter, List.mem_flatMap,
    EntityType.mentioned, decide_eq_true_iff]
  constructor
  · rintro ⟨⟨_, _, _⟩, ⟨⟨f, hf, he⟩, rfl, rfl⟩, rfl⟩
    obtain ⟨hmentions, htarget⟩ := mem_addedEdges_iff.mp he
    exact ⟨f, ⟨hf, hmentions⟩, htarget⟩
  · rintro ⟨f, ⟨hf, hmentions⟩, htarget⟩
    exact ⟨⟨name, target, kind⟩, ⟨⟨f, hf, mem_addedEdges_iff.mpr ⟨hmentions, htarget⟩⟩, rfl, rfl⟩,
      rfl⟩

/-- The same arguments make a new entity with both targets. -/
example : ((call ⟨.add, outlawType⟩ hidingPlaces .empty (.obj robin)).2.1.graph.targetsOf
    "Robin" "hides_in") = ["Cave", "Forest"] := by
  decide +kernel

end Tool.EntityTool

end GraphKeeper
