/-
  Schema documents: descriptions of kinds of entities, as they are written in files.

  A document names a kind and lists its properties in order.  A property has a type and perhaps a
  description, a list of allowed values, a rule for the items of an array, and a relationship: the
  kind of the edges that its values stand for.
-/
import GraphKeeper.Disk
import GraphKeeper.Json.Decoder

namespace GraphKeeper.Schema

open Json

/-- The types of values that a property may have. -/
inductive ValueType where
  | string
  | number
  | integer
  | boolean
  | array
  | object
deriving DecidableEq, Repr

namespace ValueType

def all : List ValueType := [.string, .number, .integer, .boolean, .array, .object]

def name : ValueType → String
  | .string => "string"
  | .number => "number"
  | .integer => "integer"
  | .boolean => "boolean"
  | .array => "array"
  | .object => "object"

/-- Whether a value is of the type.  An integer is also a number; a double is never an integer. -/
def accepts : ValueType → Json → Bool
  | .string, .str _ => true
  | .number, .num _ => true
  | .integer, .num (.int _) => true
  | .boolean, .bool _ => true
  | .array, .arr _ => true
  | .object, .obj _ => true
  | _, _ => false

/-- The type with the given name. -/
def named (name : String) : Except DecodeError ValueType :=
  match all.find? (·.name == name) with
  | some t => .ok t
  | none => .error (.unknownVariant name (all.map ValueType.name))

/-- A type is its name, or an object with the name as its only key and `null` as the value. -/
def decoder : Decoder ValueType := fun _ o =>
  match o with
  | .str name => named name
  | .obj _ (.entry key value .done) => do
    let t ← named (← liftFlaw key)
    match value with
    | .null => return t
    | value => value.wrongType "unit"
  | .obj _ _ => .error (.wrongValue .object "map with a single key")
  | o => o.wrongType "string or map"

end ValueType

/-- What the items of an array must be. -/
structure ItemRule where
  type : ValueType
  allowed : Option (List Json)
deriving Repr

/-- What makes a property a relationship. -/
structure Relationship where
  /-- The kind of its edges. -/
  kind : String
  description : String
deriving DecidableEq, Repr

/-- A property of a kind of entities. -/
structure Property where
  type : ValueType
  description : String
  required : Bool
  allowed : Option (List Json)
  items : Option ItemRule
  relationship : Option Relationship
deriving Repr

/-- A description of a kind of entities. -/
structure Document where
  /-- The kind, perhaps with `add_` in front. -/
  name : String
  description : String
  /-- The properties with their names, in order. -/
  properties : List (String × Property)
  /-- Whether entities may have other properties. -/
  additional : Bool
deriving Repr

/-! ## Decoding -/

/-- A list of allowed values, perhaps `null`. -/
def allowedDecoder : Decoder (Option (List Json)) := .optional (.list .json)

namespace ItemRule

def shape : Shape :=
  ⟨"ItemSchema", [.fixed "type" ValueType.decoder, .spare "enum" allowedDecoder], false⟩

def decoder : Decoder ItemRule := fun src o => do
  let values ← shape.read src o
  return {
    type := ← values.required "type" src ValueType.decoder
    allowed := ← values.orElse "enum" src allowedDecoder none }

end ItemRule

namespace Relationship

def shape : Shape :=
  ⟨"Relationship", [.fixed "edgeType" .string, .spare "description" .string], false⟩

def decoder : Decoder Relationship := fun src o => do
  let values ← shape.read src o
  return {
    kind := ← values.required "edgeType" src .string
    description := ← values.orElse "description" src .string "" }

end Relationship

namespace Property

def shape : Shape :=
  ⟨"PropertySchema", [.fixed "type" ValueType.decoder, .spare "description" .string,
    .spare "required" .bool, .spare "enum" allowedDecoder,
    .spare "items" (.optional ItemRule.decoder),
    .spare "relationship" (.optional Relationship.decoder)], false⟩

def decoder : Decoder Property := fun src o => do
  let values ← shape.read src o
  return {
    type := ← values.required "type" src ValueType.decoder
    description := ← values.orElse "description" src .string ""
    required := ← values.orElse "required" src .bool false
    allowed := ← values.orElse "enum" src allowedDecoder none
    items := ← values.orElse "items" src (.optional ItemRule.decoder) none
    relationship := ← values.orElse "relationship" src (.optional Relationship.decoder) none }

/-- The properties of an object of properties; an error names the property it is in. -/
def listOfMembers : Members → Except DecodeError (List (String × Property))
  | [] => .ok []
  | (name, v) :: ms => do
    let property ← (decodeValue decoder v).mapError (.inProperty name)
    return (name, property) :: (← listOfMembers ms)

def listDecoder : Decoder (List (String × Property)) := fun src o => do
  listOfMembers (← Decoder.members src o)

end Property

namespace Document

def shape : Shape :=
  ⟨"SchemaDocument", [.fixed "name" .string, .spare "description" .string,
    .spare "properties" Property.listDecoder, .spare "additionalProperties" .bool], false⟩

def decoder : Decoder Document := fun src o => do
  let values ← shape.read src o
  return {
    name := ← values.required "name" src .string
    description := ← values.orElse "description" src .string ""
    properties := ← values.orElse "properties" src Property.listDecoder []
    additional := ← values.orElse "additionalProperties" src .bool true }

end Document

/-! ## Failures -/

/-- Why schemas cannot be used. -/
inductive SchemaFailure where
  | noDirectory (path : String)
  | unreadable (path : String) (fault : DiskFault)
  | undecodable (path : String) (error : DecodeError)
  /-- A document that describes no kind of entities. -/
  | invalid (schema reason : String)
  /-- Two documents for one kind. -/
  | repeatedTool (tool : String)
deriving Repr

def SchemaFailure.message : SchemaFailure → String
  | .noDirectory path => s!"Schema directory not found: {path}"
  | .unreadable path fault => s!"Failed to read schema {path}: {fault.message}"
  | .undecodable path error => s!"Failed to parse schema {path}: {error.message}"
  | .invalid schema reason => s!"Invalid schema '{schema}': {reason}"
  | .repeatedTool tool => s!"Tool '{tool}' is defined more than once"

end GraphKeeper.Schema
