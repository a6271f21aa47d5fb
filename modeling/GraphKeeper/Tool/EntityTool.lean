/-
  The tools of an entity type: one to add an entity, one to update and one to delete it.

  A tool checks its arguments against the fields of the type and makes the change of the graph out
  of them.  It refuses the whole call at the first thing wrong: arguments that are no object, then a
  key that is no field of a closed type, then the name, then the fields in their order.  `null`
  counts as absent, except that an update takes it for the wish to clear the field.
-/
import GraphKeeper.Graph.Entity
import GraphKeeper.Json.Printer
import GraphKeeper.Schema.EntityType

namespace GraphKeeper.Tool

open Schema

/-- What a tool does with an entity. -/
inductive Verb where
  | add
  | update
  | delete
deriving DecidableEq, Repr

def Verb.word : Verb → String
  | .add => "add"
  | .update => "update"
  | .delete => "delete"

/-- A tool for the entities of one type. -/
structure EntityTool where
  verb : Verb
  type : EntityType
deriving Repr

/-! ## Values of fields -/

/-- The text of a value: a string as it is, anything else as JSON. -/
def display : Json → String
  | .str s => s
  | v => v.render

/-- The text of a value in a metadata line; none for `null` and for an array without items. -/
def renderValue : Json → Option String
  | .null => none
  | .arr [] => none
  | .arr vs => some (String.intercalate ", " (vs.map display))
  | v => some (display v)

/-- A value must be one of the allowed ones, if any are given. -/
def checkAllowed (field : String) (allowed : Option (List Json)) (v : Json) :
    Except Failure Unit :=
  match allowed with
  | none => .ok ()
  | some vs =>
    if v.isAmong vs then .ok ()
    else
      .error (.invalidArgument field
        ("must be one of: " ++ String.intercalate ", " (vs.map display)))

/-- An item of an array must follow the rule for items. -/
def checkItem (field : String) (rule : ItemRule) (v : Json) : Except Failure Unit := do
  if !rule.type.accepts v then
    throw (.invalidArgument field s!"elements must be of type {rule.type.name}")
  checkAllowed field rule.allowed v

/-- A value must be of the type of its field, allowed, and have items that follow the rule. -/
def checkValue (f : EntityField) (v : Json) : Except Failure Unit := do
  if !f.type.accepts v then
    throw (.invalidArgument f.name s!"must be of type {f.type.name}")
  checkAllowed f.name f.allowed v
  match v, f.items with
  | .arr vs, some rule => vs.forM (checkItem f.name rule)
  | _, _ => return ()

/-- The name of a target: a string that is not blank. -/
def targetName? : Json → Option String
  | .str s => if Text.isBlank s then none else some s
  | _ => none

/-- The targets that a value of a relationship names, each one once. -/
def targets (f : EntityField) (v : Json) : Except Failure (List String) :=
  let vs :=
    match v with
    | .arr vs => vs
    | v => [v]
  match vs.mapM targetName? with
  | some names => .ok (distinct names)
  | none =>
    .error (.invalidArgument f.name "relationship targets must be non-empty node names")

/-! ## Arguments -/

/-- The value of an argument, where `null` counts as absent. -/
def present? (args : Members) (name : String) : Option Json :=
  (args.get? name).filter fun v => !v.isNull

/-- The name of the entity. -/
def entityName (args : Members) : Except Failure String :=
  match present? args keyName with
  | some (.str s) => if Text.isBlank s then .error (.blank keyName) else .ok s
  | some _ => .error (.invalidArgument keyName "must be a string")
  | none => .error (.invalidArgument keyName "is required")

namespace EntityTool

def name (t : EntityTool) : String := t.verb.word ++ "_" ++ t.type.kind

def description (t : EntityTool) : String :=
  let kind := t.type.kind
  let summary :=
    match t.verb with
    | .add => s!"Create a new {kind} node"
    | .update => s!"Update fields of an existing {kind} node"
    | .delete => s!"Delete a {kind} node and its edges"
  if t.type.description = "" then summary else s!"{summary}. {t.type.description}"

/-- Whether a key may stand in the arguments of a closed type. -/
def knows (t : EntityTool) (key : String) : Bool :=
  match t.verb with
  | .delete => key == keyName
  | _ => (t.type.field? key).isSome

/-- A closed type refuses other keys. -/
def checkKeys (t : EntityTool) (args : Members) : Except Failure Unit :=
  if t.type.additional then .ok ()
  else
    match args.keys.find? fun key => !t.knows key with
    | some key => .error (.invalidArgument key s!"is not a field of {t.name}")
    | none => .ok ()

/-- The metadata and the edges of a new entity, as far as they are known. -/
structure Draft where
  metadata : List String
  edges : List Edge

/-- Adds a field to a new entity. -/
def Draft.add (entity : String) (args : Members) (draft : Draft) (f : EntityField) :
    Except Failure Draft :=
  match present? args f.name with
  | none => if f.required then .error (.invalidArgument f.name "is required") else .ok draft
  | some v => do
    checkValue f v
    match f.role with
    | .key => return draft
    | .metadata =>
      match renderValue v with
      | some text =>
        return { draft with metadata := Metadata.set f.label (some text) draft.metadata }
      | none => return draft
    | .relationship kind =>
      let names ← targets f v
      return { draft with edges := draft.edges ++ names.map fun target => ⟨entity, target, kind⟩ }

/-- The creation of an entity. -/
def creation (t : EntityTool) (entity : String) (args : Members) :
    Except Failure EntityChange := do
  let draft ← t.type.fields.foldlM (Draft.add entity args) ⟨[], []⟩
  return .create ⟨entity, t.type.kind, draft.metadata⟩ draft.edges

/-- The change that an argument asks for: of metadata or of a relationship, or none for the
key. -/
def fieldChange (f : EntityField) (v : Json) :
    Except Failure (Option (MetadataChange ⊕ RelationshipChange)) := do
  if !v.isNull then checkValue f v
  match f.role with
  | .key => return none
  | .metadata => return some (.inl ⟨f.label, renderValue v⟩)
  | .relationship kind =>
    if v.isNull then return some (.inr ⟨kind, []⟩)
    else return some (.inr ⟨kind, ← targets f v⟩)

/-- The changes that the arguments ask for, in the order of the fields. -/
def fieldChanges (args : Members) :
    List EntityField → Except Failure (List (MetadataChange ⊕ RelationshipChange))
  | [] => .ok []
  | f :: fs =>
    match args.get? f.name with
    | none => fieldChanges args fs
    | some v => do
      let change ← fieldChange f v
      return change.toList ++ (← fieldChanges args fs)

/-- The update of an entity. -/
def updating (t : EntityTool) (entity : String) (args : Members) :
    Except Failure EntityChange := do
  let changes ← fieldChanges args t.type.fields
  return .update ⟨entity, t.type.kind, changes.filterMap Sum.getLeft?,
    changes.filterMap Sum.getRight?⟩

/-- The change that the arguments ask for. -/
def validate (t : EntityTool) (args : Json) : Except Failure EntityChange :=
  match args with
  | .obj args => do
    t.checkKeys args
    let entity ← entityName args
    match t.verb with
    | .add => t.creation entity args
    | .update => t.updating entity args
    | .delete => return .delete entity t.type.kind
  | _ => .error (.invalidArgument "arguments" "must be a JSON object")

/-! ## Input schemas -/

/-- The description of a field in an input schema; a relationship without one tells its kind. -/
def fieldDescription (f : EntityField) : String :=
  match f.role with
  | .relationship kind => if f.description = "" then s!"Creates '{kind}' edges" else f.description
  | _ => f.description

/-- A member for allowed values, if any are given. -/
def allowedMember (allowed : Option (List Json)) : Members :=
  (allowed.map fun vs => ("enum", Json.arr vs)).toList

/-- The schema of the values of a field. -/
def fieldSchema (f : EntityField) : Json :=
  .obj ([("type", .str f.type.name)] ++
    (if fieldDescription f = "" then [] else [("description", .str (fieldDescription f))]) ++
    allowedMember f.allowed ++
    (f.items.map fun rule =>
      ("items", Json.obj (("type", .str rule.type.name) :: allowedMember rule.allowed))).toList)

/-- The fields that the arguments of the tool may hold. -/
def inputFields (t : EntityTool) : List EntityField :=
  match t.verb with
  | .delete => t.type.fields.filter (·.role == .key)
  | _ => t.type.fields

/-- The fields that the arguments of the tool must hold. -/
def inputRequired (t : EntityTool) : List String :=
  match t.verb with
  | .add => t.type.required
  | _ => [keyName]

/-- The schema of the arguments. -/
def inputSchema (t : EntityTool) : Json :=
  .obj [("type", .str "object"),
    ("properties", .obj (t.inputFields.map fun f => (f.name, fieldSchema f))),
    ("required", .ofStrings t.inputRequired),
    ("additionalProperties", .bool t.type.additional)]

/-- The tools of an entity type. -/
def all (type : EntityType) : List EntityTool :=
  [⟨.add, type⟩, ⟨.update, type⟩, ⟨.delete, type⟩]

end EntityTool

/-- Adds tools, none of which may have the name of one that is there. -/
def addTools (tools : List EntityTool) : List EntityTool → Except SchemaFailure (List EntityTool)
  | [] => .ok tools
  | t :: ts =>
    if tools.any (·.name == t.name) then .error (.repeatedTool t.name)
    else addTools (tools ++ [t]) ts

/-- The tools of documents, after those of the documents in front. -/
def toolsFrom (tools : List EntityTool) :
    List Document → Except SchemaFailure (List EntityTool)
  | [] => .ok tools
  | doc :: docs => do
    let type ← EntityType.ofDocument doc
    toolsFrom (← addTools tools (EntityTool.all type)) docs

/-- The tools of documents in the order of their names.  Two documents must not describe one
kind. -/
def toolsOfDocuments (docs : List Document) : Except SchemaFailure (List EntityTool) := do
  return (← toolsFrom [] docs).mergeSort fun a b => a.name ≤ b.name

end GraphKeeper.Tool
