/-
  Where the tools of a catalog come from.

  Setting a catalog up reads the documents of a directory, makes the tools of their types and adds
  them to the tools for any graph (`ofDirectory_eq_ok`).  So every entity tool of a catalog
  belongs to a type that some document describes (`exists_ofDocument`), and what is known of such
  types is known of all tools that can be called.
-/
import GraphKeeper.Proofs.JsonText
import GraphKeeper.Proofs.Registration
import GraphKeeper.Proofs.Utf8

namespace GraphKeeper

open Schema Tool

/-- A text that was written into a file is read as that text. -/
theorem Disk.readText_of_encode {d : Disk} {path s : String}
    (h : d.read path = .ok (Text.Utf8.encode s)) : d.readText path = .ok s := by
  refine bind_eq_ok_iff.mpr ⟨_, h, ?_⟩
  rw [Text.Utf8.decode_encode]
  rfl

/-! ## Tools of documents -/

namespace Tool

variable {tools ts all : List EntityTool} {docs : List Document} {types : List EntityType}

/-- Tools that are added stand behind those that are there. -/
theorem addTools_eq_ok (h : addTools tools ts = .ok all) : all = tools ++ ts := by
  induction ts generalizing tools with
  | nil =>
    cases h
    exact (List.append_nil _).symm
  | cons t ts ih =>
    -- A name that is there already ends the insertion, so nothing is left out where it goes
    -- through.
    rw [addTools] at h
    split at h
    · nomatch h
    · rw [ih h, List.append_assoc, List.singleton_append]

/-- The tool belongs to a type that one of the documents describes. -/
def IsDescribed (docs : List Document) (t : EntityTool) : Prop :=
  ∃ doc ∈ docs, EntityType.ofDocument doc = .ok t.type

/-- The types that the documents describe, in order. -/
def Describe (docs : List Document) (types : List EntityType) : Prop :=
  List.Forall₂ (fun doc type => EntityType.ofDocument doc = .ok type) docs types

/-- The tools of documents are those of the types that they describe, one type after another. -/
theorem exists_types_of_toolsFrom (h : toolsFrom tools docs = .ok all) :
    ∃ types, Describe docs types ∧ all = tools ++ types.flatMap EntityTool.all := by
  induction docs generalizing tools with
  | nil =>
    cases h
    exact ⟨[], .nil, (List.append_nil _).symm⟩
  | cons doc docs ih =>
    obtain ⟨type, hdoc, h⟩ := bind_eq_ok_iff.mp h
    obtain ⟨added, hadded, h⟩ := bind_eq_ok_iff.mp h
    obtain ⟨types, hdocs, rfl⟩ := ih h
    refine ⟨type :: types, .cons hdoc hdocs, ?_⟩
    rw [addTools_eq_ok hadded, List.flatMap_cons, List.append_assoc]

/-- The tools of a type are all tools with that type, as there are no other verbs. -/
theorem mem_all_iff {type : EntityType} {t : EntityTool} :
    t ∈ EntityTool.all type ↔ t.type = type := by
  obtain ⟨verb, type'⟩ := t
  cases verb <;> simp [EntityTool.all]

/-- Every document describes a type. -/
theorem Describe.exists_mem (h : Describe docs types) {doc : Document} (hdoc : doc ∈ docs) :
    ∃ type ∈ types, EntityType.ofDocument doc = .ok type := exists_mem_of_forall₂ h.flip hdoc

theorem Describe.mem_flatMap_all_iff (h : Describe docs types) {t : EntityTool} :
    t ∈ types.flatMap EntityTool.all ↔ IsDescribed docs t := by
  rw [List.mem_flatMap]
  constructor
  · rintro ⟨type, hmem, ht⟩
    obtain ⟨doc, hdoc, htype⟩ := exists_mem_of_forall₂ h hmem
    rw [← mem_all_iff.mp ht] at htype
    exact ⟨doc, hdoc, htype⟩
  · rintro ⟨doc, hdoc, htype⟩
    obtain ⟨type, hmem, htype'⟩ := h.exists_mem hdoc
    cases htype.symm.trans htype'
    exact ⟨t.type, hmem, mem_all_iff.mpr rfl⟩

/-- **The tools of documents are those of the types that they describe**, since sorting
drops none. -/
theorem mem_toolsOfDocuments_iff (h : toolsOfDocuments docs = .ok ts) {t : EntityTool} :
    t ∈ ts ↔ IsDescribed docs t := by
  obtain ⟨found, hfound, h⟩ := bind_eq_ok_iff.mp h
  cases h
  obtain ⟨types, hdocs, rfl⟩ := exists_types_of_toolsFrom hfound
  rw [List.mem_mergeSort, List.nil_append, hdocs.mem_flatMap_all_iff]

/-- What a directory leads to holds the tools for any graph and those of its documents. -/
theorem ofDirectory_eq_ok {d : Disk} {directory : String} {table : Table}
    (h : ofDirectory d directory = .ok table) :
    ∃ (docs : List Document) (ts : List EntityTool), readDirectory d directory = .ok docs ∧
      toolsOfDocuments docs = .ok ts ∧
      table.Holds (GraphTool.all.map .graph ++ ts.map .entity) := by
  obtain ⟨docs, hdocs, h⟩ := bind_eq_ok_iff.mp h
  obtain ⟨ts, hts, h⟩ := bind_eq_ok_iff.mp h
  exact ⟨docs, ts, mapError_eq_ok_iff.mp hdocs, mapError_eq_ok_iff.mp hts, holds_of_assemble h⟩

end Tool

/-! ## Catalogs that have been set up -/

namespace Catalog

variable {c : Catalog} {d : Disk} {directory name : String}

/-- A new catalog is set up exactly if its directory leads to tools. -/
theorem setUp_new_eq_ok_iff :
    (new directory).setUp d = .ok c ↔
      ∃ table, Tool.ofDirectory d directory = .ok table ∧ c = ⟨directory, some table⟩ := by
  show (Tool.ofDirectory d directory).map _ = .ok c ↔ _
  cases Tool.ofDirectory d directory with
  | error failure => exact ⟨(nomatch ·), fun ⟨_, h, _⟩ => nomatch h⟩
  | ok table =>
    constructor
    · intro h
      cases h
      exact ⟨table, rfl, rfl⟩
    · rintro ⟨_, h, rfl⟩
      cases h
      rfl

/-- In a catalog that is set up a name stands for what its table has under it. -/
theorem tool?_eq_ok_iff {table : Tool.Table} (htable : c.table = some table) {tool : Tool} :
    c.tool? name = .ok (some tool) ↔ table.tool? name = some tool := by
  rw [tool?, ready, htable]
  exact ⟨Except.ok.inj, congrArg _⟩

/-- The tools of a catalog are those for any graph and those of the types of documents. -/
theorem holds_of_setUp (h : (new directory).setUp d = .ok c) :
    ∃ (docs : List Document) (ts : List EntityTool) (table : Tool.Table), c.table = some table ∧
      table.Holds (GraphTool.all.map .graph ++ ts.map .entity) ∧ ∀ t ∈ ts, IsDescribed docs t := by
  obtain ⟨table, hread, rfl⟩ := setUp_new_eq_ok_iff.mp h
  obtain ⟨docs, ts, _, hts, hholds⟩ := Tool.ofDirectory_eq_ok hread
  exact ⟨docs, ts, table, rfl, hholds, fun _ ht => (mem_toolsOfDocuments_iff hts).mp ht⟩

/-- A tool that can be called has the name that it is called by. -/
theorem name_of_tool? (h : (new directory).setUp d = .ok c) {tool : Tool}
    (htool : c.tool? name = .ok (some tool)) : tool.name = name := by
  obtain ⟨_, _, table, htable, hholds, _⟩ := holds_of_setUp h
  exact ((hholds.found name tool).mp ((tool?_eq_ok_iff htable).mp htool)).2

/-- **An entity tool that can be called belongs to a type that a document describes.** -/
theorem exists_ofDocument (h : (new directory).setUp d = .ok c) {t : EntityTool}
    (ht : c.tool? name = .ok (some (.entity t))) :
    ∃ doc, EntityType.ofDocument doc = .ok t.type := by
  obtain ⟨docs, ts, table, htable, hholds, hdescribed⟩ := holds_of_setUp h
  have hmem := ((hholds.found name _).mp ((tool?_eq_ok_iff htable).mp ht)).1
  -- A tool for any graph is no entity tool.
  rcases List.mem_append.mp hmem with hmem | hmem
  · obtain ⟨_, _, hgraph⟩ := List.mem_map.mp hmem
    nomatch hgraph
  · obtain ⟨t', ht', hentity⟩ := List.mem_map.mp hmem
    cases hentity
    obtain ⟨doc, _, hdoc⟩ := hdescribed t ht'
    exact ⟨doc, hdoc⟩

/-! ## One document and its tools -/

/-- People may live with somebody. -/
def npcDocument : Document :=
  ⟨"npc", "", [("home", ⟨.string, "", false, none, none, some ⟨"lives_with", ""⟩⟩)], true⟩

/-- The document as it is written. -/
def npcJson : Json :=
  .obj [("name", .str "npc"), ("properties", .obj [("home", .obj [("type", .str "string"),
    ("relationship", .obj [("edgeType", .str "lives_with")])])])]

def npcType : EntityType := (EntityType.ofDocument npcDocument).toOption.getD ⟨"", "", [], true⟩

/-- A disk with the document in a directory. -/
def npcDisk : Disk :=
  ⟨[(["schemas"], .directory),
    (["schemas", "npc.json"], .file (Text.Utf8.encode npcJson.render))], none⟩

/-- The catalog with the tools of the document. -/
def npcCatalog : Catalog :=
  ⟨"schemas",
    (Tool.assemble [⟨.add, npcType⟩, ⟨.delete, npcType⟩, ⟨.update, npcType⟩]).toOption⟩

theorem readDocument_npcDisk : readDocument npcDisk "schemas/npc.json" = .ok npcDocument := by
  have hread : npcDisk.read "schemas/npc.json" = .ok (Text.Utf8.encode npcJson.render) := rfl
  have hlegible : npcJson.Legible := by simp [npcJson, Json.Legible, Json.LegibleMembers]
  have hdocument : Json.decodeText Document.decoder npcJson.render = .ok npcDocument := by
    rw [Json.decodeText_render hlegible (by decide)]
    rfl
  simp only [readDocument, Disk.readText_of_encode hread, hdocument]
  rfl

/-- The directory holds this document and no other one. -/
theorem readDirectory_npcDisk : readDirectory npcDisk "schemas" = .ok [npcDocument] := by
  have hdirectory : npcDisk.isDirectory "schemas" = true := by decide +kernel
  have hnames : npcDisk.fileNames "schemas" = .ok ["npc.json"] := by decide +kernel
  have hjson : (["npc.json"].filter fun name => Path.extension? name == some "json") =
      ["npc.json"] := by decide +kernel
  have hpath : Path.join "schemas" "npc.json" = "schemas/npc.json" := by decide +kernel
  simp only [readDirectory, hdirectory, hnames, hjson, Bool.not_true, Bool.false_eq_true, if_false,
    List.mapM_cons, List.mapM_nil, hpath, readDocument_npcDisk]
  rfl

/-- The tools stand in the order of their names. -/
theorem toolsOfDocuments_npcDocument : toolsOfDocuments [npcDocument] =
    .ok [⟨.add, npcType⟩, ⟨.delete, npcType⟩, ⟨.update, npcType⟩] := by
  have hau : EntityTool.name ⟨.add, npcType⟩ ≤ EntityTool.name ⟨.update, npcType⟩ := by
    decide +kernel
  have had : EntityTool.name ⟨.add, npcType⟩ ≤ EntityTool.name ⟨.delete, npcType⟩ := by
    decide +kernel
  have hud : ¬ EntityTool.name ⟨.update, npcType⟩ ≤ EntityTool.name ⟨.delete, npcType⟩ := by
    decide +kernel
  show Except.ok ((EntityTool.all npcType).mergeSort fun a b => a.name ≤ b.name) = _
  simp [EntityTool.all, List.mergeSort, List.MergeSort.Internal.splitInTwo, hau, had, hud]

/-- The disk leads to the catalog. -/
theorem setUp_npcDisk : (new "schemas").setUp npcDisk = .ok npcCatalog := by
  show (Tool.ofDirectory npcDisk "schemas").map _ = _
  rw [Tool.ofDirectory, readDirectory_npcDisk]
  show ((toolsOfDocuments [npcDocument]).mapError (.notReady ·.message) >>= Tool.assemble).map _ = _
  rw [toolsOfDocuments_npcDocument]
  rfl

end Catalog

end GraphKeeper
