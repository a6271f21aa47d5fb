/-
  The table of tools, told from the documents as a set.

  Tools are added one document after another, and the first name that is there already ends it.  But
  what comes out does not depend on the order.  Names of tools are distinct exactly if the kinds of
  their types are (`nodup_names_iff`), so the insertion goes through exactly if every document
  describes a type and the kinds of the types are distinct (`toolsFrom_nil_eq_ok_iff`); and a table
  is sorted by distinct names, so it is fixed by which tools are in it (`eq_of_perm`).  The main
  theorem is `table_of_documents`.
-/
import GraphKeeper.Proofs.Listings
import Mathlib.Data.List.Perm.Basic

namespace GraphKeeper.Tool

open Schema

variable {tools ts all : List EntityTool} {docs docs' : List Document} {types : List EntityType}

/-! ## Names of tools and kinds of types -/

/-- The tools of a type have the names of a verb and its kind. -/
theorem mem_map_name_all_iff {type : EntityType} {name : String} :
    name ∈ (EntityTool.all type).map EntityTool.name ↔
      ∃ verb, name = EntityTool.name ⟨verb, type⟩ := by
  constructor
  · rw [List.mem_map]
    rintro ⟨⟨verb, _⟩, ht, rfl⟩
    cases mem_all_iff.mp ht
    exact ⟨verb, rfl⟩
  · rintro ⟨verb, rfl⟩
    exact List.mem_map_of_mem (mem_all_iff.mpr rfl)

/-- The tools of one type differ in their verbs. -/
theorem nodup_map_name_all (type : EntityType) :
    ((EntityTool.all type).map EntityTool.name).Nodup := by
  refine (List.Nodup.of_map EntityTool.verb ?_).map_on fun t ht t' ht' h => ?_
  · exact (by decide : [Verb.add, .update, .delete].Nodup)
  · obtain ⟨verb, type'⟩ := t
    obtain ⟨verb', type''⟩ := t'
    cases mem_all_iff.mp ht
    cases mem_all_iff.mp ht'
    cases (EntityTool.name_inj h).1
    rfl

/-- Two types share the name of a tool exactly if they are types of one kind. -/
theorem disjoint_map_name_all_iff {type type' : EntityType} :
    ((EntityTool.all type).map EntityTool.name).Disjoint
      ((EntityTool.all type').map EntityTool.name) ↔ type.kind ≠ type'.kind := by
  constructor
  · intro h hkind
    have hname : EntityTool.name ⟨.add, type⟩ = EntityTool.name ⟨.add, type'⟩ := by
      rw [EntityTool.name, EntityTool.name, hkind]
    exact h (mem_map_name_all_iff.mpr ⟨.add, rfl⟩) (mem_map_name_all_iff.mpr ⟨.add, hname⟩)
  · intro hkind name h h'
    obtain ⟨verb, rfl⟩ := mem_map_name_all_iff.mp h
    obtain ⟨verb', hname⟩ := mem_map_name_all_iff.mp h'
    exact hkind (EntityTool.name_inj hname).2

/-- **The names of all tools are distinct exactly if the kinds are.** -/
theorem nodup_names_iff :
    ((types.flatMap EntityTool.all).map EntityTool.name).Nodup ↔
      (types.map EntityType.kind).Nodup := by
  rw [List.map_flatMap, List.nodup_flatMap, and_iff_right fun type _ => nodup_map_name_all type,
    List.Nodup, List.pairwise_map]
  exact ⟨List.Pairwise.imp disjoint_map_name_all_iff.mp,
    List.Pairwise.imp disjoint_map_name_all_iff.mpr⟩

/-! ## Adding the tools of documents -/

/-- Tools with new and distinct names are added. -/
theorem addTools_of_nodup (h : ((tools ++ ts).map EntityTool.name).Nodup) :
    addTools tools ts = .ok (tools ++ ts) := by
  induction ts generalizing tools with
  | nil => rw [addTools, List.append_nil]
  | cons t ts ih =>
    -- The names are distinct in the whole list, so none of those in front is the next one.
    have hnew : ¬ tools.any (·.name == t.name) = true := by
      intro hany
      obtain ⟨t', ht', hname⟩ := List.any_eq_true.mp hany
      rw [List.map_append, List.nodup_append] at h
      exact h.2.2 _ (List.mem_map_of_mem ht') _ (List.mem_map_of_mem List.mem_cons_self)
        (beq_iff_eq.mp hname)
    rw [← List.singleton_append, ← List.append_assoc] at h
    rw [addTools, if_neg hnew, ih h, List.append_assoc, List.singleton_append]

/-- The tools of documents are added, if their names are distinct throughout. -/
theorem toolsFrom_of_nodup (hdocs : Describe docs types) :
    ∀ {tools : List EntityTool},
      ((tools ++ types.flatMap EntityTool.all).map EntityTool.name).Nodup →
        toolsFrom tools docs = .ok (tools ++ types.flatMap EntityTool.all) := by
  induction hdocs with
  | nil => exact fun _ => congrArg Except.ok (List.append_nil _).symm
  | @cons doc type docs types hdoc _ ih =>
    intro tools h
    rw [List.flatMap_cons, ← List.append_assoc] at h
    -- The tools of this type go in front of the rest, and are distinct among what is there by then.
    have hfront : ((tools ++ EntityTool.all type).map EntityTool.name).Nodup := by
      rw [List.map_append] at h
      exact h.of_append_left
    rw [List.flatMap_cons, ← List.append_assoc]
    exact bind_eq_ok_iff.mpr ⟨type, hdoc, bind_eq_ok_iff.mpr ⟨_, addTools_of_nodup hfront, ih h⟩⟩

/-- **The insertion goes through exactly if the types are there and of distinct kinds.** -/
theorem toolsFrom_nil_eq_ok_iff :
    toolsFrom [] docs = .ok all ↔ ∃ types, Describe docs types ∧
      (types.map EntityType.kind).Nodup ∧ all = types.flatMap EntityTool.all := by
  constructor
  · intro h
    obtain ⟨types, hdocs, rfl⟩ := exists_types_of_toolsFrom h
    exact ⟨types, hdocs, nodup_names_iff.mp (nodup_toolsFrom h List.nodup_nil), rfl⟩
  · rintro ⟨types, hdocs, hnodup, rfl⟩
    exact toolsFrom_of_nodup hdocs (nodup_names_iff.mpr hnodup)

/-! ## Tables -/

/-- What is in the table are the tools of types of distinct kinds. -/
theorem perm_of_toolsOfDocuments (h : toolsOfDocuments docs = .ok ts) :
    ∃ types, Describe docs types ∧ (types.map EntityType.kind).Nodup ∧
      ts.Perm (types.flatMap EntityTool.all) := by
  obtain ⟨all, hall, h⟩ := bind_eq_ok_iff.mp h
  obtain ⟨types, hdocs, hnodup, rfl⟩ := toolsFrom_nil_eq_ok_iff.mp hall
  cases h
  exact ⟨types, hdocs, hnodup, List.mergeSort_perm _ _⟩

/-- And for such types there is a table. -/
theorem toolsOfDocuments_of_nodup (hdocs : Describe docs types)
    (hnodup : (types.map EntityType.kind).Nodup) :
    ∃ ts, toolsOfDocuments docs = .ok ts ∧ ts.Perm (types.flatMap EntityTool.all) := by
  refine ⟨_, bind_eq_ok_iff.mpr ⟨_, ?_, rfl⟩, List.mergeSort_perm _ _⟩
  exact toolsFrom_nil_eq_ok_iff.mpr ⟨types, hdocs, hnodup, rfl⟩

/-- A table is fixed by what is in it. -/
theorem eq_of_perm (h : toolsOfDocuments docs = .ok ts) (h' : toolsOfDocuments docs' = .ok all)
    (hperm : ts.Perm all) : ts = all :=
  hperm.eq_of_pairwise (fun _ _ _ _ hlt hgt => absurd hgt (String.lt_asymm hlt))
    (pairwise_toolsOfDocuments h) (pairwise_toolsOfDocuments h')

/-- Documents in another order lead to the same table. -/
theorem toolsOfDocuments_of_perm (hperm : docs'.Perm docs) (h : toolsOfDocuments docs = .ok ts) :
    toolsOfDocuments docs' = .ok ts := by
  obtain ⟨types, hdocs, hnodup, hts⟩ := perm_of_toolsOfDocuments h
  -- The types come in another order as well, which changes neither their kinds nor their tools.
  obtain ⟨types', hdocs', htypes⟩ := List.perm_comp_forall₂ hperm hdocs
  have hnodup' : (types'.map EntityType.kind).Nodup :=
    (htypes.map EntityType.kind).nodup_iff.mpr hnodup
  obtain ⟨ts', h', hts'⟩ := toolsOfDocuments_of_nodup hdocs' hnodup'
  rw [h', eq_of_perm h' h (hts'.trans ((htypes.flatMap_right _).trans hts.symm))]

/-- In a table a tool is found under its own name. -/
theorem find?_name_of_toolsOfDocuments (h : toolsOfDocuments docs = .ok ts) {t : EntityTool}
    (ht : t ∈ ts) : ts.find? (·.name == t.name) = some t := by
  cases hfind : ts.find? (·.name == t.name) with
  | none => exact absurd (beq_self_eq_true t.name) (List.find?_eq_none.mp hfind t ht)
  | some found =>
    -- Whatever is found has the same name, and the names of the table are distinct.
    have hname : found.name = t.name := by simpa using List.find?_some hfind
    have hmem : found ∈ ts := List.mem_of_find?_eq_some hfind
    rw [List.inj_on_of_nodup_map (nodup_toolsOfDocuments h) hmem ht hname]

/-- What a table of tools holds. -/
structure TableOf (docs : List Document) (ts : List EntityTool) : Prop where
  /-- Three tools for the type of each document, and no others. -/
  entries : ∃ types, Describe docs types ∧ ts.Perm (types.flatMap EntityTool.all)
  length : ts.length = 3 * docs.length
  /-- The names are distinct, and the tools are in the order of them. -/
  ordered : ts.Pairwise fun t t' => t.name < t'.name
  /-- Under the name made of a verb and the kind of a document stands the tool of its type. -/
  bound : ∀ doc ∈ docs, ∀ type, EntityType.ofDocument doc = .ok type → ∀ verb : Verb,
    ts.find? (·.name == verb.word ++ "_" ++ type.kind) = some ⟨verb, type⟩

/-- **A table holds what it should.** -/
theorem tableOf_of_toolsOfDocuments (h : toolsOfDocuments docs = .ok ts) : TableOf docs ts := by
  obtain ⟨types, hdocs, _, hts⟩ := perm_of_toolsOfDocuments h
  have hordered := pairwise_toolsOfDocuments h
  refine ⟨⟨types, hdocs, hts⟩, ?_, hordered, fun doc hdoc type htype verb => ?_⟩
  · have hthree : ∀ type ∈ types, (EntityTool.all type).length = 3 := fun _ _ => rfl
    rw [hts.length_eq, List.length_flatMap, List.map_congr_left hthree, List.map_const',
      List.sum_replicate_nat, hdocs.length_eq, Nat.mul_comm]
  · have hmem : ⟨verb, type⟩ ∈ ts := (mem_toolsOfDocuments_iff h).mpr ⟨doc, hdoc, htype⟩
    exact find?_name_of_toolsOfDocuments h hmem

/-- **The table of tools depends on the set of documents alone.**  There is a table exactly if every
document describes a type and the kinds of the types are distinct.  It holds three tools for each
document, under the names made of a verb and the kind, and documents in another order lead to the
same table or to none. -/
theorem table_of_documents (docs : List Document) :
    ((∃ ts, toolsOfDocuments docs = .ok ts) ↔
      ∃ types, Describe docs types ∧ (types.map EntityType.kind).Nodup) ∧
    (∀ ts, toolsOfDocuments docs = .ok ts → TableOf docs ts) ∧
    ∀ docs', docs'.Perm docs →
      (toolsOfDocuments docs').toOption = (toolsOfDocuments docs).toOption := by
  refine ⟨⟨?_, ?_⟩, fun ts h => tableOf_of_toolsOfDocuments h, fun docs' hperm => ?_⟩
  · rintro ⟨ts, h⟩
    obtain ⟨types, hdocs, hnodup, _⟩ := perm_of_toolsOfDocuments h
    exact ⟨types, hdocs, hnodup⟩
  · rintro ⟨types, hdocs, hnodup⟩
    obtain ⟨ts, h, _⟩ := toolsOfDocuments_of_nodup hdocs hnodup
    exact ⟨ts, h⟩
  · cases h : toolsOfDocuments docs with
    | ok ts => rw [toolsOfDocuments_of_perm hperm h]
    | error failure =>
      cases h' : toolsOfDocuments docs' with
      | ok ts => nomatch h.symm.trans (toolsOfDocuments_of_perm hperm.symm h')
      | error failure' => rfl

/-! ## Two pairs of documents -/

/-- Kinds that begin with verbs, and a document that names its kind without a verb. -/
def nestedKinds : List Document :=
  [⟨"add_add_npc", "", [], true⟩, ⟨"npc", "", [], true⟩, ⟨"update_npc", "", [], true⟩]

/-- Two names of one kind. -/
def oneKindTwice : List Document := [⟨"add_npc", "", [], true⟩, ⟨"npc", "", [], true⟩]

theorem table_of_nestedKinds :
    let ts := (toolsOfDocuments nestedKinds).toOption.getD []
    TableOf nestedKinds ts ∧ ts.length = 9 ∧
      (ts.find? (·.name == "add_npc")).map (·.type.kind) = some "npc" ∧
      (ts.find? (·.name == "add_add_npc")).map (·.type.kind) = some "add_npc" ∧
      (toolsOfDocuments nestedKinds.reverse).toOption = some ts ∧
      ¬ ∃ types, Describe oneKindTwice types ∧ (types.map EntityType.kind).Nodup := by
  intro ts
  have hts : toolsOfDocuments nestedKinds = .ok ts := eq_ok_of_isOk (by decide +kernel)
  have htable : TableOf nestedKinds ts := (table_of_documents _).2.1 ts hts
  refine ⟨htable, htable.length, ?_, ?_, ?_, fun h => ?_⟩
  · exact congrArg (Option.map (·.type.kind)) (htable.bound _ (.tail _ (.head _)) _ rfl .add)
  · exact congrArg (Option.map (·.type.kind)) (htable.bound _ (.head _) _ rfl .add)
  · rw [(table_of_documents _).2.2 _ (List.reverse_perm _), hts]
    rfl
  · obtain ⟨ts', h'⟩ := (table_of_documents _).1.mpr h
    have hfails : (toolsOfDocuments oneKindTwice).isOk = false := by decide +kernel
    rw [h'] at hfails
    nomatch hfails

end GraphKeeper.Tool
