/-
  Entity types: schema documents made ready for use.

  An entity type has one key, its field `name`.  Every other field is either written into the
  metadata of the node, under the field's name with a capital first letter, or it is a
  relationship, whose values are the targets of outgoing edges.

  `EntityType.ofDocument` accepts a document exactly when its name is that of a kind and each of its
  properties makes sense; the fields are its properties in order, with a key in front if none is
  declared.
-/
import GraphKeeper.Schema.Document
import GraphKeeper.Text.Case
import GraphKeeper.Text.Blank

namespace GraphKeeper.Schema

/-- What becomes of the value of a field. -/
inductive Role where
  /-- The name of the node. -/
  | key
  /-- A metadata line. -/
  | metadata
  /-- Edges of the given kind. -/
  | relationship (kind : String)
deriving DecidableEq, Repr

/-- A field of an entity type. -/
structure EntityField where
  name : String
  /-- The label of its metadata line. -/
  label : String
  type : ValueType
  allowed : Option (List Json)
  items : Option ItemRule
  required : Bool
  description : String
  role : Role
deriving Repr

/-- A kind of entities and what may be known of one. -/
structure EntityType where
  /-- The kind of the nodes. -/
  kind : String
  description : String
  fields : List EntityField
  /-- Whether other fields are let pass. -/
  additional : Bool
deriving Repr

/-- The name of the key. -/
def keyName : String := "name"

/-! ## From documents -/

def isKindChar (c : Char) : Bool := c.isAlphanum || c == '_'

/-- The kind that a document describes. -/
def kindOf (doc : Document) : Except SchemaFailure String :=
  let name := Text.trim doc.name
  let kind := (Text.stripLead? "add_" name).getD name
  if kind ≠ "" ∧ kind.toList.all isKindChar then .ok kind
  else
    .error (.invalid doc.name "name must be a tool name like 'add_npc' or a type like 'npc'")

/-- Whether the values of a property are strings or arrays of strings. -/
def namesTargets (p : Property) : Bool :=
  match p.type with
  | .string => true
  | .array => p.items.all fun items => items.type == .string
  | _ => false

/-- The role of a property, if the property makes sense; else the reason why not. -/
def roleOf (name : String) (p : Property) : Except String Role :=
  if name = "" then .error "property names must not be empty"
  else if p.allowed.any List.isEmpty then .error s!"'{name}' has an empty enum"
  else if name = keyName then
    if p.type ≠ .string ∨ p.relationship.isSome then
      .error "'name' must be a plain string property"
    else .ok .key
  else
    match p.relationship with
    | none => .ok .metadata
    | some r =>
      if Text.isBlank r.kind then .error s!"'{name}' has a relationship without an edgeType"
      else if !namesTargets p then
        .error s!"relationship '{name}' must be a string or an array of strings"
      else .ok (.relationship r.kind)

/-- The description of a property; that of its relationship stands in for a missing one. -/
def descriptionOf (p : Property) : String :=
  match p.relationship with
  | some r => if p.description = "" then r.description else p.description
  | none => p.description

/-- The field of a property. -/
def EntityField.ofProperty (name : String) (p : Property) : Except String EntityField := do
  let role ← roleOf name p
  return {
    name, role
    label := Text.capitalize name
    type := p.type
    allowed := p.allowed
    items := p.items
    required := p.required || role == .key
    description := descriptionOf p }

/-- The key of a kind that declares none. -/
def EntityField.key (kind : String) : EntityField where
  name := keyName
  label := Text.capitalize keyName
  type := .string
  allowed := none
  items := none
  required := true
  description := s!"Unique name of the {kind}"
  role := .key

namespace EntityType

/-- The entity type that a document describes. -/
def ofDocument (doc : Document) : Except SchemaFailure EntityType := do
  let kind ← kindOf doc
  let fields ← doc.properties.mapM fun (name, p) =>
    (EntityField.ofProperty name p).mapError (.invalid doc.name)
  let fields := if fields.any (·.role == .key) then fields else EntityField.key kind :: fields
  return ⟨kind, doc.description, fields, doc.additional⟩

/-- The field with a name. -/
def field? (t : EntityType) (name : String) : Option EntityField :=
  t.fields.find? (·.name == name)

/-- The names of the required fields, in order. -/
def required (t : EntityType) : List String := (t.fields.filter (·.required)).map (·.name)

/-- The fields that become metadata. -/
def metadataFields (t : EntityType) : List EntityField := t.fields.filter (·.role == .metadata)

/-- The relationships with the kinds of their edges. -/
def relationshipFields (t : EntityType) : List (EntityField × String) :=
  t.fields.filterMap fun f =>
    match f.role with
    | .relationship kind => some (f, kind)
    | _ => none

end EntityType

end GraphKeeper.Schema
