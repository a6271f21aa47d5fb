/-
  Settings: where the graph file and the schema documents are.

  A setting comes from the environment, else from the settings file, else it has its default.  The
  settings file is optional, and one that is no text counts as none, but a text must be readable;
  it may be TOML or JSON, as its extension tells.  A value must have a text.
-/
import GraphKeeper.Disk
import GraphKeeper.Settings.Toml.Document

namespace GraphKeeper

/-- Variables with their values, in order. -/
abbrev Environment := List (String × String)

/-- The paths that can be set. -/
structure Settings where
  memoryFile : String
  schemaDirectory : String
deriving DecidableEq, Repr

namespace Settings

def default : Settings := ⟨"memory.jsonl", "schemas"⟩

/-- Why settings cannot be used. -/
inductive Fault where
  /-- The settings file is neither TOML nor JSON. -/
  | unreadable
  /-- The value of a setting has no text. -/
  | noText (found key : String)
deriving DecidableEq, Repr

def Fault.message : Fault → String
  | .unreadable => "the settings file cannot be read"
  | .noText found key => s!"invalid type: {found}, expected a string for key `{key}`"

/-- Keys with their values, in the order in which they are set. -/
abbrev Assignments := List (String × Value)

/-! ## Keys -/

def isNameChar (c : Char) : Bool := c.isAlphanum || c = '_' || c = '-' || c = ' '

/-- The rest behind an index in brackets, from behind the opening one.  An index fits a word. -/
def afterIndex? (cs : List Char) : Option (List Char) :=
  let isSpace (c : Char) : Bool := c = ' ' || c = '\t'
  let cs := cs.dropWhile isSpace
  let (negative, ds) :=
    match cs with
    | '-' :: ds => (true, ds)
    | ds => (false, ds)
  match ds.takeWhile Char.isDigit, (ds.dropWhile Char.isDigit).dropWhile isSpace with
  | d :: digits, ']' :: rest =>
    if fitsWord (signed negative (Json.digitsValue (d :: digits))) then some rest else none
  | _, _ => none

/-- Whether the steps behind a name, a point and a name or an index each, are well formed. -/
def areSteps (fuel : Nat) (cs : List Char) : Bool :=
  match fuel, cs with
  | _, [] => true
  | 0, _ => false
  | fuel + 1, '.' :: cs =>
    !(cs.takeWhile isNameChar).isEmpty && areSteps fuel (cs.dropWhile isNameChar)
  | fuel + 1, '[' :: cs => (afterIndex? cs).any (areSteps fuel)
  | _, _ => false

/-- What a key assigns.  The case of a key does not matter, unless it leads inside of a setting:
then it makes a table or an array of the setting that has the name as it is written. -/
def assignment (key : String) (v : Value) : String × Value :=
  let name := key.toList.takeWhile isNameChar
  match key.toList.dropWhile isNameChar with
  | [] => (Text.lower key, v)
  | step :: steps =>
    if name.isEmpty ∨ !areSteps (steps.length + 1) (step :: steps) then (Text.lower key, v)
    else (String.ofList name, if step = '.' then .table else .array)

/-! ## The environment -/

/-- The lead of the variables that are settings, in lower case. -/
def variableLead : String := "loregraph__"

/-- The assignment of a variable, if it is a setting. -/
def ofVariable (name text : String) : Option (String × Value) :=
  (Text.stripLead? variableLead (Text.lower name)).map fun key =>
    assignment key (Value.ofPlainText text)

/-! ## The settings file -/

/-- The formats of settings files. -/
inductive Format where
  | toml
  | json
deriving DecidableEq, Repr

namespace Format

def all : List Format := [.toml, .json]

def extension : Format → String
  | .toml => "toml"
  | .json => "json"

/-- The assignments that a text in the format makes. -/
def parse (text : String) : Format → Option Assignments
  | .toml => Toml.parse text
  | .json =>
    match Json.parse text with
    | .ok (.obj members) => some (members.map fun (key, v) => (key, Value.ofJson v))
    | _ => none

end Format

/-- The path with an extension behind its last name, which must not be a way upwards. -/
def withExtension? (path : String) (format : Format) : Option String := do
  let names := Path.names path
  let last ← names.getLast?
  if last = ".." then none
  else
    let name := last ++ "." ++ format.extension
    let path := String.intercalate "/" (names.dropLast ++ [name])
    return String.join (Path.start path) ++ path

/-- The files that may hold the settings of a path, with their formats: the one at the path
itself, if its extension tells the format, and those with an extension behind the path. -/
def candidates (d : Disk) (path : String) : List (String × Format) :=
  if d.isFile path then
    let extension := (Path.names path).getLast?.bind Path.extension?
    (Format.all.filter fun format => extension == some format.extension).map (path, ·)
  else Format.all.filterMap fun format => (withExtension? path format).map (·, format)

/-- The text of the settings file of a path, with its format, if the first candidate that is there
is a text. -/
def settingsText? (d : Disk) (path : String) : Option (String × Format) := do
  let (path, format) ← (candidates d path).find? fun (path, _) => d.isFile path
  return (← (d.readText path).toOption, format)

/-- The assignments of the settings file of a path; none if there is no such text. -/
def readSettingsFile (d : Disk) (path : String) : Except Fault Assignments :=
  match settingsText? d path with
  | none => .ok []
  | some (text, format) =>
    match format.parse text with
    | some assignments => .ok (assignments.map fun (key, v) => assignment key v)
    | none => .error .unreadable

/-! ## Loading -/

/-- The value that the assignments leave under a key. -/
def valueUnder? (assignments : Assignments) (key : String) : Option Value :=
  (assignments.filter (·.1 = key)).foldl (fun old a => some (Value.replacedBy old a.2)) none

/-- The text of a setting. -/
def textUnder (assignments : Assignments) (key fallback : String) : Except Fault String :=
  match valueUnder? assignments key with
  | none => .ok fallback
  | some (.text s) => .ok s
  | some .nothing => .error (.noText "unit value" key)
  | some .array => .error (.noText "sequence" key)
  | some .emptyTable | some .table => .error (.noText "map" key)

/-- The settings of a path in an environment. -/
def load (d : Disk) (env : Environment) (path : String) : Except Fault Settings := do
  let assignments :=
    (← readSettingsFile d path) ++ env.filterMap fun (name, text) => ofVariable name text
  return {
    memoryFile := ← textUnder assignments "memory_file_path" default.memoryFile
    schemaDirectory := ← textUnder assignments "schema_dir" default.schemaDirectory }

end Settings

end GraphKeeper
