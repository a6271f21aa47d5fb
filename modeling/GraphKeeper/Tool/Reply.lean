/-
  Calls of tools and their replies, as they go over the wire.

  A call names a tool and holds its arguments.  A reply is a response or an error, and both are
  written without a wrapper: an error is told by its member `isError`.  An error tells what failed,
  where, and what to do about it, all of which follows from the failure.
-/
import GraphKeeper.Failure

namespace GraphKeeper.Tool

open Json

/-- A call of a tool. -/
structure Call where
  name : String
  arguments : Json
deriving Repr

/-- What a tool answers. -/
structure Response where
  data : Option Json
  message : String
  action : String
deriving Repr

/-- What is answered in place of a response. -/
structure ErrorReply where
  isError : Bool
  /-- The name of the tool. -/
  operation : String
  /-- The kind of the failure, a colon, and the failure in words. -/
  error : String
  context : Option Json
  suggestions : List String
  recovery : List String
deriving Repr

/-- The reply to a call. -/
inductive Reply where
  | error (e : ErrorReply)
  | success (r : Response)
deriving Repr

/-! ## Errors from failures -/

namespace ErrorReply

/-- What the failure is about. -/
def subject : Failure → Members
  | .invalidArgument field _ => [("field", .str field)]
  | .notFound what name => [("missing", .str what.word), ("name", .str name)]
  | .nodeExists name => [("name", .str name)]
  | .storage path _ => [("path", .str path)]
  | .corruptFile line _ => [("line", .ofNat line)]
  | .notReady _ | .unknownTool _ | .undecodable _ => []

/-- What to look at. -/
def suggestionsFor : Failure → List String
  | .invalidArgument .. => ["Check the tool's input schema with list_tools"]
  | .notFound .. => ["Use search_nodes or open_nodes to find existing names"]
  | .nodeExists _ =>
    ["Choose a different name", "Use an update tool to change the existing node"]
  | .notReady _ => ["Check that the schema directory exists and its documents are valid"]
  | .unknownTool _ => ["Run list_tools to see the available tool names"]
  | .storage .. => ["Check free space and permissions for the memory file"]
  | .corruptFile .. => ["Inspect the memory file for the malformed line"]
  | .undecodable _ => []

/-- What to do before trying again. -/
def recoveryFor : Failure → List String
  | .invalidArgument .. => ["Fix the argument named in the error and retry the call"]
  | .notFound .. => ["Create the missing node first, then retry the call"]
  | .nodeExists _ => ["Retry with a unique name"]
  | .notReady _ => ["Initialize the tool registry before dispatching calls"]
  | .unknownTool _ => ["Retry with one of the listed tool names"]
  | .storage .. => ["Retry the call; the graph was left unchanged"]
  | .corruptFile .. => ["Repair or remove the line and restart"]
  | .undecodable _ => []

/-- The error that tells of a failure. -/
def ofFailure (operation : String) (f : Failure) : ErrorReply where
  isError := true
  operation := operation
  error := s!"{f.kind}: {f.message}"
  context := some (.obj (("tool", .str operation) :: subject f))
  suggestions := suggestionsFor f
  recovery := recoveryFor f

/-- The kind of the failure that the error tells of: what stands in front of the first colon. -/
def kind (e : ErrorReply) : String := String.ofList (e.error.toList.takeWhile (· ≠ ':'))

end ErrorReply

namespace Reply

/-- The reply to a call of a tool that came to a result. -/
def ofResult (operation : String) : Except Failure Response → Reply
  | .ok r => .success r
  | .error f => .error (.ofFailure operation f)

def isError : Reply → Bool
  | .error _ => true
  | .success _ => false

def error? : Reply → Option ErrorReply
  | .error e => some e
  | .success _ => none

end Reply

/-! ## Writing -/

/-- A member that is left out when there is no value. -/
def optionalMember (key : String) (value : Option Json) : Members :=
  (value.map fun v => (key, v)).toList

/-- A member that is left out when there are no texts. -/
def textsMember (key : String) (texts : List String) : Members :=
  if texts.isEmpty then [] else [(key, .ofStrings texts)]

def Call.toJson (c : Call) : Json := .obj [("name", .str c.name), ("arguments", c.arguments)]

def Response.toJson (r : Response) : Json :=
  .obj (optionalMember "data" r.data ++
    [("message", .str r.message), ("actionTaken", .str r.action)])

def ErrorReply.toJson (e : ErrorReply) : Json :=
  .obj ([("isError", .bool e.isError), ("operation", .str e.operation), ("error", .str e.error)] ++
    optionalMember "context" e.context ++ textsMember "suggestions" e.suggestions ++
    textsMember "recoverySteps" e.recovery)

def Reply.toJson : Reply → Json
  | .error e => e.toJson
  | .success r => r.toJson

/-! ## Reading -/

namespace Call

def shape : Shape :=
  ⟨"ToolRequest", [.fixed "name" .string, .spare "arguments" .json], false⟩

def decoder : Decoder Call := fun src o => do
  let values ← shape.read src o
  return {
    name := ← values.required "name" src .string
    arguments := ← values.orElse "arguments" src .json .null }

end Call

namespace Response

def shape : Shape :=
  ⟨"ToolResponse", [.fixed "data" (.optional .json), .fixed "message" .string,
    .fixed "actionTaken" .string], false⟩

def decoder : Decoder Response := fun src o => do
  let values ← shape.read src o
  return {
    data := ← values.orElse "data" src (.optional .json) none
    message := ← values.required "message" src .string
    action := ← values.required "actionTaken" src .string }

end Response

namespace ErrorReply

def shape : Shape :=
  ⟨"ErrorEnvelope", [.fixed "isError" .bool, .fixed "operation" .string, .fixed "error" .string,
    .fixed "context" (.optional .json), .spare "suggestions" (.list .string),
    .spare "recoverySteps" (.list .string)], false⟩

def decoder : Decoder ErrorReply := fun src o => do
  let values ← shape.read src o
  return {
    isError := ← values.required "isError" src .bool
    operation := ← values.required "operation" src .string
    error := ← values.required "error" src .string
    context := ← values.orElse "context" src (.optional .json) none
    suggestions := ← values.orElse "suggestions" src (.list .string) []
    recovery := ← values.orElse "recoverySteps" src (.list .string) [] }

end ErrorReply

/-- The whole value is read before its shape is looked at; an error is tried first. -/
def Reply.decoder : Decoder Reply := fun _ o => do
  let _ ← liftFlaw o.toJson
  match ErrorReply.decoder .setAside o, Response.decoder .setAside o with
  | .ok e, _ => return .error e
  | _, .ok r => return .success r
  | _, _ => throw (.noVariant "ToolResult")

end GraphKeeper.Tool
