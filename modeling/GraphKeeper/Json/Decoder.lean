/-
  Reading typed values off outlines.

  A decoder goes over an outline from left to right and answers with a value or with the first
  thing at fault.  A record is given by its fields in order, each with a check of its value;
  `readFields` goes over the members in the order of the text, checks them, and hands back the
  outlines found.  The record may also be written as an array of its values in field order.  A
  closed record refuses a member that is not one of its fields, an open one skips it.

  Outlines have three sources: a text, a value at hand, and a part of a text that was set aside
  before its shape was known.  They differ only in the words for an array that has more items than
  the record has fields.
-/
import GraphKeeper.Json.Reader
import GraphKeeper.Json.Printer
import GraphKeeper.Text.Quote

namespace GraphKeeper.Json

/-- Where an outline comes from. -/
inductive Source where
  | text
  | value
  | setAside
deriving DecidableEq, Repr

/-- What was found in place of the value asked for. -/
inductive Found where
  | null
  | bool (b : Bool)
  | num (n : Number)
  | str (s : String)
  | array
  | object
deriving Repr

def Found.message : Found → String
  | .null => "null"
  | .bool b => s!"boolean `{b}`"
  | .num (.int n) => s!"integer `{String.ofList (intChars n)}`"
  | .num (.double x) => s!"floating point `{String.ofList x.documentText}`"
  | .str s => s!"string {Text.quote s}"
  | .array => "sequence"
  | .object => "map"

/-- Why an outline has no value of the type asked for. -/
inductive DecodeError where
  | malformed (flaw : Flaw)
  | wrongType (found : Found) (expected : String)
  | wrongValue (found : Found) (expected : String)
  | wrongLength (length : Nat) (expected : String)
  | missingField (name : String)
  | duplicateField (name : String)
  | unknownField (name : String) (known : List String)
  | unknownVariant (name : String) (known : List String)
  | noVariant (type : String)
  | inProperty (name : String) (error : DecodeError)
deriving Repr

/-- A choice of names in words; `none` names what there would be. -/
def oneOf (none : String) : List String → String
  | [] => s!"there are no {none}"
  | [a] => s!"expected `{a}`"
  | [a, b] => s!"expected `{a}` or `{b}`"
  | names => "expected one of " ++ String.intercalate ", " (names.map fun a => s!"`{a}`")

/-- The error in words.  An error that is met in a text has no ` at line 1 column 8` behind it,
which names the place that a parser of texts has come to: outlines do not keep their places, so the
position is left out here and wherever the message is passed on. -/
def DecodeError.message : DecodeError → String
  | .malformed flaw => flaw.message
  | .wrongType found expected => s!"invalid type: {found.message}, expected {expected}"
  | .wrongValue found expected => s!"invalid value: {found.message}, expected {expected}"
  | .wrongLength length expected => s!"invalid length {length}, expected {expected}"
  | .missingField name => s!"missing field `{name}`"
  | .duplicateField name => s!"duplicate field `{name}`"
  | .unknownField name known => s!"unknown field `{name}`, " ++ oneOf "fields" known
  | .unknownVariant name known => s!"unknown variant `{name}`, " ++ oneOf "variants" known
  | .noVariant type => s!"data did not match any variant of untagged enum {type}"
  | .inProperty name error => s!"property '{name}': {error.message}"

/-- Reads a value of a type off an outline. -/
abbrev Decoder (α : Type) := Source → Outline → Except DecodeError α

/-- The result of a plain reading, as one of decoding. -/
def liftFlaw {α : Type} (r : Except Flaw α) : Except DecodeError α := r.mapError .malformed

/-- What an outline shows to someone who asked for something else. -/
def Outline.found : Outline → Except Flaw Found
  | .null => .ok .null
  | .bool b => .ok (.bool b)
  | .num n => .ok (.num n)
  | .str s => .ok (.str s)
  | .unusable flaw => .error flaw
  | .broken why => .error why.onRead
  | .arr _ _ => .ok .array
  | .obj _ _ => .ok .object

/-- Fails because the outline is not of the type expected, or is not even a value. -/
def Outline.wrongType {α : Type} (o : Outline) (expected : String) : Except DecodeError α :=
  match o.found with
  | .ok found => .error (.wrongType found expected)
  | .error flaw => .error (.malformed flaw)

/-! ## Simple types -/

namespace Decoder

def string : Decoder String := fun _ o =>
  match o with
  | .str s => .ok s
  | o => o.wrongType "a string"

def bool : Decoder Bool := fun _ o =>
  match o with
  | .bool b => .ok b
  | o => o.wrongType "a boolean"

/-- Any value. -/
def json : Decoder Json := fun _ o => liftFlaw o.toJson

/-- Any object. -/
def members : Decoder Members := fun _ o =>
  match o with
  | .obj true _ => .error (.malformed .tooDeep)
  | .obj false entries => liftFlaw (entries.toMembers [])
  | o => o.wrongType "a map"

/-- The items of an array, each by the given decoder. -/
def items {α : Type} (item : Decoder α) (src : Source) : Items → Except DecodeError (List α)
  | .done => .ok []
  | .broken why => .error (.malformed why.onRead)
  | .item head tail => do
    let a ← item src head
    return a :: (← items item src tail)

def list {α : Type} (item : Decoder α) : Decoder (List α) := fun src o =>
  match o with
  | .arr true _ => .error (.malformed .tooDeep)
  | .arr false xs => items item src xs
  | o => o.wrongType "a sequence"

/-- A value or `null`. -/
def optional {α : Type} (inner : Decoder α) : Decoder (Option α) := fun src o =>
  match o with
  | .null => .ok none
  | o => (inner src o).map some

end Decoder

/-! ## Records -/

/-- A field of a record. -/
structure Field where
  name : String
  /-- Whether the value is of the field's type. -/
  check : Source → Outline → Except DecodeError Unit
  /-- Whether an array of the values may end in front of this field. -/
  trailing : Bool

/-- A field that must be there when the record is an array. -/
def Field.fixed {α : Type} (name : String) (value : Decoder α) : Field :=
  ⟨name, fun src o => (value src o).map fun _ => (), false⟩

/-- A field that may be left out. -/
def Field.spare {α : Type} (name : String) (value : Decoder α) : Field :=
  { Field.fixed name value with trailing := true }

/-- A record type: its name in messages, its fields, and whether it refuses other members. -/
structure Shape where
  type : String
  fields : List Field
  closed : Bool

/-- The values found for the fields of a record. -/
abbrev FieldValues := List (String × Outline)

/-- Goes over the members of a record, after those in `seen`. -/
def Shape.readEntries (shape : Shape) (src : Source) (seen : FieldValues) :
    Entries → Except DecodeError FieldValues
  | .done => .ok seen
  | .broken why => .error (.malformed why.onRead)
  | .entry key value tail => do
    let k ← liftFlaw key
    match shape.fields.find? (·.name == k) with
    | some field =>
      if (seen.lookup k).isSome then throw (.duplicateField k)
      field.check src value
      shape.readEntries src (seen ++ [(k, value)]) tail
    | none =>
      if shape.closed then throw (.unknownField k (shape.fields.map (·.name)))
      liftFlaw value.skip
      shape.readEntries src seen tail

/-- The flaw of a text that goes on behind the last value of a record written as an array. -/
def Items.overflow : Items → Option Flaw
  | .done => none
  | .broken why =>
    some (if why.onRead = .trailingComma ∨ why.onRead = .endInArray then why.onRead
      else .trailingText)
  | .item _ _ => some .trailingText

def elements (n : Nat) : String := if n = 1 then "1 element" else s!"{n} elements"

/-- Goes over the items of a record written as an array, from the field at `index` on. -/
def Shape.readItems (shape : Shape) (src : Source) (index : Nat) :
    List Field → Items → Except DecodeError FieldValues
  | [], rest =>
    match rest.overflow with
    | none => .ok []
    | some flaw =>
      match src with
      | .text => .error (.malformed flaw)
      | .value => .error (.wrongLength (index + rest.length) "fewer elements in array")
      | .setAside =>
        .error (.wrongLength (index + rest.length) s!"{elements index} in sequence")
  | field :: fields, .item head tail => do
    field.check src head
    return (field.name, head) :: (← shape.readItems src (index + 1) fields tail)
  | _ :: _, .broken why => .error (.malformed why.onRead)
  | field :: fields, .done =>
    if field.trailing then shape.readItems src (index + 1) fields .done
    else
      .error (.wrongLength index s!"struct {shape.type} with {elements shape.fields.length}")

/-- The outlines of the fields of a record, each one checked. -/
def Shape.read (shape : Shape) (src : Source) : Outline → Except DecodeError FieldValues
  | .obj true _ | .arr true _ => .error (.malformed .tooDeep)
  | .obj false entries => shape.readEntries src [] entries
  | .arr false items => shape.readItems src 0 shape.fields items
  | o => o.wrongType s!"struct {shape.type}"

/-- The value of a field that must be there. -/
def FieldValues.required {α : Type} (values : FieldValues) (name : String) (src : Source)
    (value : Decoder α) : Except DecodeError α :=
  match values.lookup name with
  | some o => value src o
  | none => .error (.missingField name)

/-- The value of a field that may be left out. -/
def FieldValues.orElse {α : Type} (values : FieldValues) (name : String) (src : Source)
    (value : Decoder α) (default : α) : Except DecodeError α :=
  match values.lookup name with
  | some o => value src o
  | none => .ok default

/-! ## Whole texts and values -/

/-- The value of a whole text. -/
def decodeText {α : Type} (decoder : Decoder α) (s : String) : Except DecodeError α := do
  let (o, rest) := readOutline s
  let a ← decoder .text o
  if rest.isEmpty then return a else throw (.malformed .trailingText)

/-- The typed value of a value at hand. -/
def decodeValue {α : Type} (decoder : Decoder α) (v : Json) : Except DecodeError α :=
  decoder .value (Outline.ofJson v)

end GraphKeeper.Json
