/-
  The tools that are listed are the tools that can be called.

  Documents lead to three tools each, and these are added to the tools for any graph.  Three things
  make the names of all of them distinct:
    * no two documents describe one kind, for then a tool would be added twice (`nodup_addTools`);
    * the verb and the kind can be read off the name of a tool (`EntityTool.name_inj`), so tools of
      different kinds have different names, whatever underscores there are in them;
    * a tool of a kind takes the name of a tool for any graph exactly if the kind is one of three
      (`exists_ofName?_iff`), and then the catalog is not set up at all.
  So each tool is added under a name that is new, which is what keeps the table of the tools and
  their listing in step (`Table.Holds`).  Whatever a name stands for in the table is therefore what
  the listing describes under it, and the other way round (`Tool.assemble_agrees`).
-/
import GraphKeeper.Proofs.CallFailures
import GraphKeeper.Proofs.Catalogs

namespace GraphKeeper

open Schema Tool

namespace Tool

/-! ## Names of tools -/

namespace EntityTool

/-- What stands behind the verb in a name. -/
theorem toList_name (t : EntityTool) :
    t.name.toList = t.verb.word.toList ++ '_' :: t.type.kind.toList := by
  simp [name]

/-- **The verb and the kind can be read off the name of a tool.** -/
theorem name_inj {t t' : EntityTool} (h : t.name = t'.name) :
    t.verb = t'.verb ∧ t.type.kind = t'.type.kind := by
  have hlist := congrArg String.toList h
  rw [toList_name, toList_name] at hlist
  have hverb : t.verb = t'.verb := by
    -- The verbs begin with different letters.
    have hhead := congrArg List.head? hlist
    revert hhead
    cases t.verb <;> cases t'.verb <;> simp [Verb.word]
  rw [hverb, List.append_cancel_left_eq, List.cons.injEq] at hlist
  exact ⟨hverb, String.toList_inj.mp hlist.2⟩

end EntityTool

/-- The kinds whose tools would take the names of tools for any graph. -/
def takenKinds : List String := ["nodes", "edges", "metadata"]

/-- A tool for any graph that has the name of a verb in front has one of three words behind it. -/
theorem drop_mem_takenKinds : ∀ g ∈ GraphTool.all, ∀ verb ∈ [Verb.add, .update, .delete],
    g.name.toList.take (verb.word.length + 1) = verb.word.toList ++ ['_'] →
      String.ofList (g.name.toList.drop (verb.word.length + 1)) ∈ takenKinds := by
  decide +kernel

theorem ofName?_isSome_iff {name : String} :
    (GraphTool.ofName? name).isSome = true ↔ ∃ g ∈ GraphTool.all, g.name = name := by
  rw [GraphTool.ofName?, List.find?_isSome]
  simp only [beq_iff_eq]

/-- **A kind is taken exactly if one of its tools would have the name of a tool for any graph.** -/
theorem exists_ofName?_iff (type : EntityType) :
    (∃ verb, (GraphTool.ofName? (EntityTool.name ⟨verb, type⟩)).isSome = true) ↔
      type.kind ∈ takenKinds := by
  constructor
  · rintro ⟨verb, htaken⟩
    obtain ⟨g, hg, hname⟩ := ofName?_isSome_iff.mp htaken
    have hlist : g.name.toList = (verb.word.toList ++ ['_']) ++ type.kind.toList := by
      rw [hname, EntityTool.toList_name, List.append_assoc, List.singleton_append]
    have hlength : verb.word.length + 1 = (verb.word.toList ++ ['_']).length := by
      rw [List.length_append, String.length_toList, List.length_singleton]
    -- The verb stands in front of the name, so what is dropped is the verb and what is left is the
    -- kind.
    have hmem := drop_mem_takenKinds g hg verb (by cases verb <;> decide)
      (by rw [hlist, hlength, List.take_left])
    rw [hlist, hlength, List.drop_left, String.ofList_toList] at hmem
    exact hmem
  · intro hkind
    refine ⟨.add, ofName?_isSome_iff.mpr ?_⟩
    simp only [takenKinds, List.mem_cons, List.not_mem_nil, or_false] at hkind
    rcases hkind with h | h | h
    · exact ⟨.addNodes, by decide, by rw [EntityTool.name, h]; rfl⟩
    · exact ⟨.addEdges, by decide, by rw [EntityTool.name, h]; rfl⟩
    · exact ⟨.addMetadata, by decide, by rw [EntityTool.name, h]; rfl⟩

/-! ## Tools of documents -/

variable {tools ts all : List EntityTool} {docs : List Document}

/-- **Tools are added under new names alone**, so the names stay distinct. -/
theorem nodup_addTools (h : addTools tools ts = .ok all)
    (hnodup : (tools.map EntityTool.name).Nodup) : (all.map EntityTool.name).Nodup := by
  induction ts generalizing tools with
  | nil =>
    cases h
    exact hnodup
  | cons t ts ih =>
    rw [addTools] at h
    split at h
    · cases h
    · rename_i hnew
      refine ih h ?_
      rw [List.map_append, List.nodup_append]
      refine ⟨hnodup, List.nodup_singleton _, ?_⟩
      rintro _ hold _ hname rfl
      obtain ⟨t', ht', hname'⟩ := List.mem_map.mp hold
      refine hnew (List.any_eq_true.mpr ⟨t', ht', beq_iff_eq.mpr ?_⟩)
      exact hname'.trans (List.mem_singleton.mp hname)

/-- So they do from one document to the next. -/
theorem nodup_toolsFrom (h : toolsFrom tools docs = .ok all)
    (hnodup : (tools.map EntityTool.name).Nodup) : (all.map EntityTool.name).Nodup := by
  induction docs generalizing tools with
  | nil =>
    cases h
    exact hnodup
  | cons doc docs ih =>
    obtain ⟨type, _, h⟩ := bind_eq_ok_iff.mp h
    obtain ⟨added, hadded, h⟩ := bind_eq_ok_iff.mp h
    exact ih h (nodup_addTools hadded hnodup)

/-- **The tools of documents stand in the order of their names**, and no name comes twice. -/
theorem pairwise_toolsOfDocuments (h : toolsOfDocuments docs = .ok ts) :
    ts.Pairwise fun t t' => t.name < t'.name := by
  obtain ⟨found, hfound, h⟩ := bind_eq_ok_iff.mp h
  cases h
  -- Sorted is what the sorting makes them, and strictly so because no name comes twice.
  have hsorted := @List.pairwise_mergeSort _ (fun t t' : EntityTool => t.name ≤ t'.name)
    (by simpa using fun _ _ _ => String.le_trans) (by simpa using fun _ _ => String.le_total _ _)
    found
  have hnodup := (nodup_toolsFrom hfound List.nodup_nil).perm
    ((List.mergeSort_perm found fun t t' : EntityTool => t.name ≤ t'.name).map
      EntityTool.name).symm
  refine (hsorted.and (List.pairwise_map.mp hnodup)).imp fun ⟨hle, hne⟩ => ?_
  exact Std.lt_of_le_of_ne (of_decide_eq_true hle) hne

/-! ## All tools -/

/-- The names of the tools of documents are distinct. -/
theorem nodup_toolsOfDocuments (h : toolsOfDocuments docs = .ok ts) :
    (ts.map EntityTool.name).Nodup := by
  refine List.pairwise_map.mpr ((pairwise_toolsOfDocuments h).imp fun hlt hname => ?_)
  rw [hname] at hlt
  exact String.lt_irrefl _ hlt

/-- Compiling a document keeps its kind. -/
theorem kindOf_of_ofDocument {doc : Document} {type : EntityType}
    (h : EntityType.ofDocument doc = .ok type) : kindOf doc = .ok type.kind := by
  obtain ⟨kind, hkind, h⟩ := bind_eq_ok_iff.mp h
  obtain ⟨fields, _, h⟩ := bind_eq_ok_iff.mp h
  cases h
  exact hkind

/-- The kind of a document is that of a type, and there is a tool of the type for each verb. -/
theorem exists_type_of_kindOf (h : toolsOfDocuments docs = .ok ts) {doc : Document} {kind : String}
    (hdoc : doc ∈ docs) (hkind : kindOf doc = .ok kind) :
    ∃ type : EntityType, type.kind = kind ∧ ∀ verb, ⟨verb, type⟩ ∈ ts := by
  obtain ⟨found, hfound, _⟩ := bind_eq_ok_iff.mp h
  obtain ⟨types, hdocs, _⟩ := exists_types_of_toolsFrom hfound
  obtain ⟨type, _, htype⟩ := hdocs.exists_mem hdoc
  refine ⟨type, Except.ok.inj ((kindOf_of_ofDocument htype).symm.trans hkind), fun verb => ?_⟩
  exact (mem_toolsOfDocuments_iff h).mpr ⟨doc, hdoc, htype⟩

/-- A tool of the documents is known by the kind of one of them and a verb. -/
theorem exists_name_iff (h : toolsOfDocuments docs = .ok ts) {name : String} :
    (∃ t ∈ ts, t.name = name) ↔
      ∃ doc ∈ docs, ∃ kind, kindOf doc = .ok kind ∧ ∃ verb : Verb,
        name = verb.word ++ "_" ++ kind := by
  constructor
  · rintro ⟨t, ht, rfl⟩
    obtain ⟨doc, hdoc, htype⟩ := (mem_toolsOfDocuments_iff h).mp ht
    exact ⟨doc, hdoc, t.type.kind, kindOf_of_ofDocument htype, t.verb, rfl⟩
  · rintro ⟨doc, hdoc, kind, hkind, verb, rfl⟩
    obtain ⟨type, rfl, hmem⟩ := exists_type_of_kindOf h hdoc hkind
    exact ⟨⟨verb, type⟩, hmem verb, rfl⟩

/-- **The tools cannot be put together exactly if one of the kinds is taken.** -/
theorem exists_assemble_eq_error_iff (h : toolsOfDocuments docs = .ok ts) :
    (∃ failure, assemble ts = .error failure) ↔
      ∃ doc ∈ docs, ∃ kind ∈ takenKinds, kindOf doc = .ok kind := by
  have hfails : (∃ failure, assemble ts = .error failure) ↔
      ∃ t ∈ ts, (GraphTool.ofName? t.name).isSome = true := by
    refine (Table.holds_addGraphTools.exists_addEntityTools_eq_error_iff ts
      (nodup_toolsOfDocuments h)).trans (exists_congr fun t => and_congr_right fun _ => ?_)
    rw [ofName?_isSome_iff, List.map_map, List.mem_map]
    rfl
  rw [hfails]
  constructor
  · rintro ⟨t, ht, htaken⟩
    obtain ⟨doc, hdoc, htype⟩ := (mem_toolsOfDocuments_iff h).mp ht
    exact ⟨doc, hdoc, t.type.kind, (exists_ofName?_iff t.type).mp ⟨t.verb, htaken⟩,
      kindOf_of_ofDocument htype⟩
  · rintro ⟨doc, hdoc, kind, htaken, hkind⟩
    obtain ⟨type, rfl, hmem⟩ := exists_type_of_kindOf h hdoc hkind
    obtain ⟨verb, hverb⟩ := (exists_ofName?_iff type).mpr htaken
    exact ⟨⟨verb, type⟩, hmem verb, hverb⟩

end Tool

/-! ## Names in a catalog -/

/-- A call is answered with the kind of failure for unknown tools exactly if no tool has its
name. -/
theorem Session.kind_dispatch_iff {s : Session} {table : Tool.Table}
    (htable : s.catalog.table = some table) (c : Call) :
    (s.dispatch c).1.error?.map ErrorReply.kind = some "UnknownToolError" ↔
      table.tool? c.name = none := by
  show (Reply.ofResult c.name (s.call c).1).error?.map ErrorReply.kind = _ ↔ _
  -- The name is looked up first; no failure behind that is of this kind.
  cases s.call_fate c with
  | notReady _ hunset _ => nomatch hunset.symm.trans htable
  | unknown table' hset hfind h =>
    cases hset.symm.trans htable
    rw [h]
    exact iff_of_true (congrArg some (ErrorReply.kind_ofFailure _ _)) hfind
  | reached table' tool hset hfind h =>
    cases hset.symm.trans htable
    refine iff_of_false ?_ (by rw [hfind]; exact Option.some_ne_none tool)
    cases hresult : (s.call c).1 with
    | ok response => exact nofun
    | error failure =>
      intro hkind
      exact Failure.kind_ne_of_isOfTool (h failure hresult)
        ((ErrorReply.kind_ofFailure c.name failure).symm.trans (Option.some.inj hkind))

namespace Catalog

theorem isEntityTool_eq_true_iff {c : Catalog} {name : String} :
    c.isEntityTool name = .ok true ↔ ∃ t, c.tool? name = .ok (some (.entity t)) := by
  refine map_eq_ok_iff.trans ⟨?_, ?_⟩
  · rintro ⟨found, hfound, htrue⟩
    cases found with
    | none => cases htrue
    | some tool =>
      cases tool with
      | graph t => cases htrue
      | entity t => exact ⟨t, hfound⟩
  · rintro ⟨t, hfound⟩
    exact ⟨_, hfound, rfl⟩

/-- What is listed, and what names stand for. -/
structure Agrees (docs : List Document) (table : Tool.Table) : Prop where
  /-- The tools for any graph in their own order, then three tools for each document in the order
  of their names. -/
  parts : ∃ ts : List EntityTool,
    table.listing = (GraphTool.all.map Tool.graph ++ ts.map Tool.entity).map Tool.descriptor ∧
      (ts.Pairwise fun t t' => t.name < t'.name) ∧ ∀ t, t ∈ ts ↔ IsDescribed docs t
  nodup : (table.listing.map Descriptor.name).Nodup
  /-- A name is listed exactly if calls of it are not refused for their name. -/
  known : ∀ (s : Session) (c : Call), s.catalog.table = some table →
    (c.name ∈ table.listing.map Descriptor.name ↔
      (s.dispatch c).1.error?.map ErrorReply.kind ≠ some "UnknownToolError")
  /-- The names of entity tools are those of a verb and the kind of a document. -/
  entity : ∀ (c : Catalog) (name : String), c.table = some table →
    (c.isEntityTool name = .ok true ↔ ∃ doc ∈ docs, ∃ kind, kindOf doc = .ok kind ∧
      ∃ verb : Verb, name = verb.word ++ "_" ++ kind)
  /-- The tool that a name stands for is the one that is described under it. -/
  resolved : ∀ (c : Catalog) (name : String) (d : Descriptor), c.table = some table →
    (d ∈ table.listing ∧ d.name = name ↔
      ∃ tool, c.tool? name = .ok (some tool) ∧ tool.descriptor = d)

end Catalog

namespace Tool

/-- In a table that holds tools, the listing and the names of the table tell of the same tools. -/
theorem Table.Holds.resolved {table : Table} {tools : List Tool} (h : table.Holds tools)
    {name : String} {d : Descriptor} :
    d ∈ table.listing ∧ d.name = name ↔
      ∃ tool, table.tool? name = some tool ∧ tool.descriptor = d := by
  rw [h.listing, List.mem_map]
  constructor
  · rintro ⟨⟨tool, hmem, rfl⟩, hname⟩
    exact ⟨tool, (h.found name tool).mpr ⟨hmem, hname⟩, rfl⟩
  · rintro ⟨tool, hfound, rfl⟩
    obtain ⟨hmem, hname⟩ := (h.found name tool).mp hfound
    exact ⟨⟨tool, hmem, rfl⟩, hname⟩

/-- The names in the listing are those of the tools. -/
theorem Table.Holds.names_listing {table : Table} {tools : List Tool} (h : table.Holds tools) :
    table.listing.map Descriptor.name = tools.map Tool.name := by
  rw [h.listing, List.map_map]
  rfl

/-- An entity tool that is held is one of those behind the tools for any graph. -/
theorem Table.Holds.exists_entity_iff {table : Table} {ts : List EntityTool} {name : String}
    (h : table.Holds (GraphTool.all.map .graph ++ ts.map .entity)) :
    (∃ t, table.tool? name = some (.entity t)) ↔ ∃ t ∈ ts, t.name = name := by
  refine exists_congr fun t => (h.found name (.entity t)).trans (and_congr_left fun _ => ?_)
  simp

/-- **The tools that are listed are those that can be called.**  From documents that lead to tools,
a catalog is set up unless one of the kinds is taken; then each name that is listed is listed once
and stands for the tool that is listed under it, and every other name is unknown. -/
theorem assemble_agrees {docs : List Document} {ts : List EntityTool}
    (h : toolsOfDocuments docs = .ok ts) :
    ((∃ failure, assemble ts = .error failure) ↔
      ∃ doc ∈ docs, ∃ kind ∈ takenKinds, kindOf doc = .ok kind) ∧
    ∀ table, assemble ts = .ok table → Catalog.Agrees docs table := by
  refine ⟨exists_assemble_eq_error_iff h, fun table hassemble => ?_⟩
  have hholds := holds_of_assemble hassemble
  refine ⟨⟨ts, hholds.listing, pairwise_toolsOfDocuments h, fun t => mem_toolsOfDocuments_iff h⟩,
    ?_, fun s c htable => ?_, fun c name htable => ?_, fun c name d htable => ?_⟩
  · rw [hholds.names_listing]
    exact hholds.nodup
  · rw [ne_eq, s.kind_dispatch_iff htable c, hholds.tool?_eq_none_iff, not_not,
      hholds.names_listing]
  · rw [← exists_name_iff h, Catalog.isEntityTool_eq_true_iff, ← hholds.exists_entity_iff]
    exact exists_congr fun t => Catalog.tool?_eq_ok_iff htable
  · refine hholds.resolved.trans (exists_congr fun tool => and_congr_left fun _ => ?_)
    exact (Catalog.tool?_eq_ok_iff htable).symm

end Tool

/-- Two kinds, one of which begins with a verb, so that `add_add_npc` begins with two. -/
def Catalog.nestedDocuments : List Document := [npcDocument, ⟨"add_add_npc", "", [], false⟩]

/-- A kind of which only two tools would have names that are taken. -/
def Catalog.takenDocuments : List Document := [⟨"metadata", "", [], true⟩]

/-- The first kinds do not get in each other's way; for the last the catalog is not set up. -/
theorem Tool.assemble_nestedDocuments :
    let ts := (toolsOfDocuments Catalog.nestedDocuments).toOption.getD []
    let taken := (toolsOfDocuments Catalog.takenDocuments).toOption.getD []
    toolsOfDocuments Catalog.nestedDocuments = .ok ts ∧
      (∃ table, assemble ts = .ok table ∧ Catalog.Agrees Catalog.nestedDocuments table) ∧
      toolsOfDocuments Catalog.takenDocuments = .ok taken ∧
      ∃ failure, assemble taken = .error failure := by
  intro ts taken
  have hts : toolsOfDocuments Catalog.nestedDocuments = .ok ts := eq_ok_of_isOk (by decide +kernel)
  have htaken : toolsOfDocuments Catalog.takenDocuments = .ok taken :=
    eq_ok_of_isOk (by decide +kernel)
  have hfree : ¬ ∃ doc ∈ Catalog.nestedDocuments, ∃ kind ∈ takenKinds,
      (kindOf doc).toOption = some kind := by decide +kernel
  refine ⟨hts, ?_, htaken, (assemble_agrees htaken).1.mpr ⟨_, List.mem_singleton_self _,
    "metadata", by decide, rfl⟩⟩
  cases hassemble : assemble ts with
  | ok table => exact ⟨table, rfl, (assemble_agrees hts).2 table hassemble⟩
  | error failure =>
    obtain ⟨doc, hdoc, kind, hkind, h⟩ := (assemble_agrees hts).1.mp ⟨failure, hassemble⟩
    exact absurd ⟨doc, hdoc, kind, hkind, by rw [h]; rfl⟩ hfree

end GraphKeeper
