/-
  Why a request fails.

  A failure names its cause; `Failure.kind` is the name of the cause that callers see and
  `Failure.message` the cause in words.
-/
import GraphKeeper.Disk
import GraphKeeper.Json.Decoder

namespace GraphKeeper

/-- What can be missing from a graph. -/
inductive Thing where
  | node
  | edge
deriving DecidableEq, Repr

def Thing.word : Thing → String
  | .node => "Node"
  | .edge => "Edge"

/-- The cause of a failed request. -/
inductive Failure where
  /-- An argument is not as it must be. -/
  | invalidArgument (field reason : String)
  | notFound (what : Thing) (name : String)
  | nodeExists (name : String)
  /-- The tools are not set up. -/
  | notReady (reason : String)
  | unknownTool (name : String)
  /-- The disk refuses the graph file. -/
  | storage (path : String) (fault : DiskFault)
  /-- The graph file is not what a graph file must be. -/
  | corruptFile (line : Nat) (reason : String)
  | undecodable (error : Json.DecodeError)
deriving Repr

namespace Failure

def kind : Failure → String
  | .invalidArgument .. => "ValidationError"
  | .notFound .. => "NotFoundError"
  | .nodeExists .. => "ConflictError"
  | .notReady .. => "InitializationError"
  | .unknownTool .. => "UnknownToolError"
  | .storage .. => "PersistenceError"
  | .corruptFile .. => "CorruptStoreError"
  | .undecodable .. => "SerializationError"

def message : Failure → String
  | .invalidArgument field reason => s!"Invalid argument '{field}': {reason}"
  | .notFound what name => s!"{what.word} not found: {name}"
  | .nodeExists name => s!"Node already exists: {name}"
  | .notReady reason => s!"Tool registry not initialized: {reason}"
  | .unknownTool name => s!"Unknown tool: {name}"
  | .storage path fault => s!"Graph file I/O failed for {path}: {fault.message}"
  | .corruptFile line reason => s!"Corrupt graph store at line {line}: {reason}"
  | .undecodable error => s!"Serialization error: {error.message}"

/-- The failure of an argument that is blank. -/
def blank (field : String) : Failure := .invalidArgument field "must not be empty"

end Failure

end GraphKeeper
