/-
  What a new entity is made of.

  The lines of a new entity are set by their labels, one field after another, and setting a label
  may replace a line that is there.  With distinct labels that have no blanks in them it never does:
  a label is read back off its line whatever the value holds, so no line that was written carries
  the label that is set next (`Graph.applyMetadata_eq_append`).  The lines are then a plain list,
  one for each metadata field that shows something (`fieldLine?`), and the edges are a plain list
  anyway (`fieldEdges`).

  Both look at no more of the arguments than at the value that each declared field has, if it is not
  `null`.  So arguments that agree on these create the same entity, in whatever order they are given
  and whatever else is among them.  All this is `creation_inOrder`.
-/
import GraphKeeper.Proofs.EntityRuns
import GraphKeeper.Proofs.InputSchemas

namespace GraphKeeper.Tool

open Schema GraphKeeper.Graph Metadata

variable {type : EntityType} {f : EntityField} {args args' : Members} {entity kind : String}

/-! ## What a field shows -/

/-- The text of a value in a line: the items of an array with commas between them, any other value
by itself. -/
def rendering : Json → String
  | .arr vs => String.intercalate ", " (vs.map display)
  | v => display v

/-- The line of a metadata field; there is none if the value is missing, `null` or an array without
items. -/
def fieldLine? (args : Members) (f : EntityField) : Option String :=
  match args.get? f.name with
  | none => none
  | some .null => none
  | some (.arr []) => none
  | some v => some (line f.label (rendering v))

/-- The edges of a relationship with their kind: one for each name in the value, in the order in
which the names come first. -/
def fieldEdges (entity : String) (args : Members) (f : EntityField × String) : List Edge :=
  match args.get? f.1.name with
  | none => []
  | some v => (distinct (namesIn v)).map (⟨entity, ·, f.2⟩)

/-- **The line of a field is told from the value that is there**, and `null` is none. -/
theorem fieldLine?_eq :
    fieldLine? args f = ((present? args f.name).bind renderValue).map (line f.label) := by
  unfold fieldLine? present?
  cases args.get? f.name with
  | none => rfl
  | some v =>
    cases v with
    | arr vs => cases vs <;> rfl
    | _ => rfl

/-- So are its edges. -/
theorem fieldEdges_eq : fieldEdges entity args (f, kind) =
    (distinct (((present? args f.name).map namesIn).getD [])).map (⟨entity, ·, kind⟩) := by
  unfold fieldEdges present?
  cases args.get? f.name with
  | none => rfl
  | some v => cases v <;> rfl

theorem fieldLine?_congr (h : present? args f.name = present? args' f.name) :
    fieldLine? args f = fieldLine? args' f := by
  rw [fieldLine?_eq, fieldLine?_eq, h]

theorem fieldEdges_congr (h : present? args f.name = present? args' f.name) :
    fieldEdges entity args (f, kind) = fieldEdges entity args' (f, kind) := by
  rw [fieldEdges_eq, fieldEdges_eq, h]

/-! ## The whole entity -/

/-- The lines that settings write are those of the fields that have a text. -/
theorem writtenLines_settings (value : EntityField → Option String) :
    writtenLines (type.settings fun f => (value f).map some) =
      type.metadataFields.filterMap fun f => (value f).map (line f.label) := by
  unfold EntityType.settings
  induction type.metadataFields with
  | nil => rfl
  | cons f fields ih =>
    simp only [List.filterMap_cons]
    cases value f with
    | none => exact ih
    | some text => exact congrArg (line f.label text :: ·) ih

/-- **The lines are those of the fields, in order.** -/
theorem metadata_of_added (hlabels : ∀ f ∈ type.metadataFields, isLabel f.label.toList = true)
    (hnodup : (type.metadataFields.map EntityField.label).Nodup) :
    applyMetadata [] (type.fields.filterMap (addedChange? args)) =
      type.metadataFields.filterMap (fieldLine? args) := by
  rw [EntityType.filterMap_addedChange?,
    applyMetadata_eq_append (EntityType.isLabel_of_mem_settings hlabels)
      (EntityType.nodup_settings hnodup _) [] fun _ _ => rfl,
    List.nil_append, writtenLines_settings fun f => (present? args f.name).bind renderValue]
  exact congrArg (List.filterMap · _) (funext fun _ => fieldLine?_eq.symm)

/-- The edges are those of the relationships, in order. -/
theorem edges_of_added : type.fields.flatMap (addedEdges entity args) =
    type.relationshipFields.flatMap (fieldEdges entity args) := by
  refine (EntityType.flatMap_addedEdges entity type.fields).trans (List.flatMap_congr ?_)
  rintro ⟨f, kind⟩ hf
  rw [addedEdges, (mem_relationshipFields.mp hf).2, fieldEdges_eq]

/-- The entity that arguments create. -/
structure InOrder (type : EntityType) (args : Members) (c : EntityChange) : Prop where
  created : ∃ entity, present? args keyName = some (.str entity) ∧
    c = .create ⟨entity, type.kind, type.metadataFields.filterMap (fieldLine? args)⟩
      (type.relationshipFields.flatMap (fieldEdges entity args))
  /-- The value of a relationship is the name of a target or an array of such names. -/
  targets : ∀ f kind, (f, kind) ∈ type.relationshipFields → ∀ v, present? args f.name = some v →
    NamesTargets v

/-- **Arguments that agree on the declared fields create the same entity.** -/
theorem InOrder.congr {c c' : EntityChange} {doc : Document}
    (hdoc : EntityType.ofDocument doc = .ok type) (h : InOrder type args c)
    (h' : InOrder type args' c')
    (hsame : ∀ f ∈ type.fields, present? args f.name = present? args' f.name) : c = c' := by
  obtain ⟨entity, hentity, rfl⟩ := h.created
  obtain ⟨entity', hentity', rfl⟩ := h'.created
  -- The key is a declared field, too.
  obtain ⟨key, hkey, hname, _⟩ := exists_key hdoc
  have hsameName := hsame key hkey
  rw [hname, hentity, hentity'] at hsameName
  cases hsameName
  have hlines : type.metadataFields.filterMap (fieldLine? args) =
      type.metadataFields.filterMap (fieldLine? args') :=
    List.filterMap_congr fun f hf => fieldLine?_congr (hsame f (mem_metadataFields.mp hf).1)
  have hedges : type.relationshipFields.flatMap (fieldEdges entity args) =
      type.relationshipFields.flatMap (fieldEdges entity args') :=
    List.flatMap_congr fun p hp => fieldEdges_congr (hsame p.1 (mem_relationshipFields.mp hp).1)
  rw [hlines, hedges]

/-- **New entities show their fields in the order in which these are declared.**  Take a type whose
metadata labels have no blanks and are distinct.  Whenever arguments are accepted, the lines of the
new entity are those of the metadata fields with something to show, in declared order, and its edges
are those of the relationships, in declared order and for each target once.  Arguments that agree on
the declared fields, where `null` counts as absent, lead to the same entity, whatever the order of
their keys and whatever other keys they have. -/
theorem creation_inOrder {doc : Document} (hdoc : EntityType.ofDocument doc = .ok type)
    (hblank : ∀ f ∈ type.metadataFields, f.label.toList.any Text.isBlankChar = false)
    (hlabels : (type.metadataFields.map EntityField.label).Nodup) :
    (∀ (args : Json) (c : EntityChange), EntityTool.validate ⟨.add, type⟩ args = .ok c →
      ∃ ms, args = .obj ms ∧ InOrder type ms c) ∧
    ∀ (ms ms' : Members) (c c' : EntityChange),
      EntityTool.validate ⟨.add, type⟩ (.obj ms) = .ok c →
      EntityTool.validate ⟨.add, type⟩ (.obj ms') = .ok c' →
      (∀ f ∈ type.fields, present? ms f.name = present? ms' f.name) → c = c' := by
  have hinOrder : ∀ (ms : Members) (c : EntityChange),
      EntityTool.validate ⟨.add, type⟩ (.obj ms) = .ok c → InOrder type ms c := by
    intro ms c h
    constructor
    · -- The edges are a list anyway, and the lines are one as the labels are distinct and have no
      -- blanks.
      obtain ⟨entity, hentity, hcreation⟩ := EntityTool.validate_eq_ok h
      refine ⟨entity, (entityName_eq_ok_iff.mp hentity).1, ?_⟩
      rw [EntityTool.creation_eq_ok hcreation, edges_of_added,
        metadata_of_added (fun f hf => isLabel_label hdoc hf (hblank f hf)) hlabels]
    · intro f kind hf v hv
      obtain ⟨_, _, _, hfits⟩ :=
        (EntityTool.exists_validate_eq_ok_iff (show Verb.add ≠ .delete by decide)).mp ⟨c, h⟩
      obtain ⟨hmem, hrole⟩ := mem_relationshipFields.mp hf
      exact (hfits f hmem v hv).targets kind hrole
  refine ⟨fun args c h => ?_, fun ms ms' c c' h h' => ?_⟩
  · cases args with
    | obj ms => exact ⟨ms, rfl, hinOrder ms c h⟩
    | _ => nomatch h
  · exact (hinOrder ms c h).congr hdoc (hinOrder ms' c' h')

/-! ## A quest -/

/-- A document with a metadata field behind a relationship, open for other keys. -/
def questDocument : Document where
  name := "quest"
  description := ""
  properties :=
    [("description", ⟨.string, "", true, none, none, none⟩),
      ("giver", ⟨.string, "", false, none, none, some ⟨"given_by", ""⟩⟩),
      ("status", ⟨.string, "", false, none, none, none⟩),
      ("notes", ⟨.string, "", false, none, none, none⟩),
      ("steps", ⟨.array, "", false, none, none, none⟩),
      ("rewards", ⟨.array, "", false, none, none, none⟩),
      ("heroes", ⟨.array, "", false, none, none, some ⟨"given_by", ""⟩⟩)]
  additional := true

def questType : EntityType :=
  ((EntityType.ofDocument questDocument).toOption).getD ⟨"", "", [], true⟩

/-- Against the declared order, and with a value that looks like the line of another field. -/
def questArgs : Members :=
  [("heroes", .arr [.str "Bree", .str "Mira", .str "Bree"]), ("rewards", .arr []),
    ("steps", .arr [.str "find", .ofNat 2]), ("status", .str "open"), ("giver", .str "Mira"),
    ("description", .str "Status: lost"), ("name", .str "Amulet")]

/-- The same in another order, with a field that is `null` and a key that is not declared. -/
def questArgs' : Members :=
  [("name", .str "Amulet"), ("mood", .str "grim"), ("description", .str "Status: lost"),
    ("heroes", .arr [.str "Bree", .str "Mira", .str "Bree"]), ("giver", .str "Mira"),
    ("status", .str "open"), ("steps", .arr [.str "find", .ofNat 2]), ("rewards", .arr []),
    ("notes", .null)]

/-- Both objects are accepted, and they ask for the same entity. -/
theorem creation_inOrder_quest :
    let c : EntityChange :=
      .create ⟨"Amulet", "quest", ["Description: Status: lost", "Status: open", "Steps: find, 2"]⟩
        [⟨"Amulet", "Mira", "given_by"⟩, ⟨"Amulet", "Bree", "given_by"⟩,
          ⟨"Amulet", "Mira", "given_by"⟩]
    EntityTool.validate ⟨.add, questType⟩ (.obj questArgs) = .ok c ∧ InOrder questType questArgs c ∧
      EntityTool.validate ⟨.add, questType⟩ (.obj questArgs') = .ok c ∧
      ∀ c', EntityTool.validate ⟨.add, questType⟩ (.obj questArgs') = .ok c' → c = c' := by
  intro c
  have hdoc : EntityType.ofDocument questDocument = .ok questType := rfl
  obtain ⟨hinOrder, hsame⟩ := creation_inOrder hdoc (by decide) (by decide)
  have hquest : EntityTool.validate ⟨.add, questType⟩ (.obj questArgs) = .ok c := by rfl
  have hquest' : EntityTool.validate ⟨.add, questType⟩ (.obj questArgs') = .ok c := by rfl
  refine ⟨hquest, ?_, hquest', fun c' h' => hsame _ _ c c' hquest h' ?_⟩
  · obtain ⟨_, hobj, h⟩ := hinOrder _ _ hquest
    exact Json.obj.inj hobj ▸ h
  · intro f hf
    have hname : f.name ∈ questType.fields.map EntityField.name := List.mem_map_of_mem hf
    have hnames : questType.fields.map EntityField.name =
        ["name", "description", "giver", "status", "notes", "steps", "rewards", "heroes"] := rfl
    rw [hnames] at hname
    generalize f.name = name at hname
    simp only [List.mem_cons, List.not_mem_nil, or_false] at hname
    rcases hname with rfl | rfl | rfl | rfl | rfl | rfl | rfl | rfl <;> rfl

end GraphKeeper.Tool
