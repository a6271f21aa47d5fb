/-
  The catalog of tools.

  It lists the tools for any graph, in their own order, and behind them the tools of the entity
  types that a directory of schema documents describes, in the order of their names.  Next to the
  listing stands a table of the tools by name; calls find their tools there.  Both are filled tool
  by tool.

  The directory is read when the catalog is set up.  That happens once: setting up fails without a
  trace, and when it has succeeded the tools stay as they are, whatever becomes of the directory.
-/
import GraphKeeper.Schema.Directory
import GraphKeeper.Tool.EntityTool
import GraphKeeper.Tool.GraphTool

namespace GraphKeeper

/-- A tool that can be called. -/
inductive Tool where
  | graph (t : Tool.GraphTool)
  | entity (t : Tool.EntityTool)
deriving Repr

namespace Tool

def name : Tool → String
  | .graph t => t.name
  | .entity t => t.name

def description : Tool → String
  | .graph t => t.description
  | .entity t => t.description

/-- The schema of the arguments. -/
def inputSchema : Tool → Json
  | .graph t => t.inputSchema
  | .entity t => t.inputSchema

/-- The request that the arguments ask for. -/
def validate (t : Tool) (args : Json) : Except Failure Request :=
  match t with
  | .graph t => t.validate args
  | .entity t => (t.validate args).map fun change => .change (.entity change)

end Tool

/-- What a listing tells of a tool. -/
structure Tool.Descriptor where
  name : String
  description : String
  inputSchema : Json
deriving Repr

def Tool.descriptor (t : Tool) : Tool.Descriptor := ⟨t.name, t.description, t.inputSchema⟩

def Tool.Descriptor.toJson (d : Tool.Descriptor) : Json :=
  .obj [("name", .str d.name), ("description", .str d.description),
    ("inputSchema", d.inputSchema)]

/-- The tools that names stand for, and next to them what is told of the tools. -/
structure Tool.Table where
  /-- Tools by their names.  Of two that were put under one name the one in front counts. -/
  handlers : List (String × Tool)
  listing : List Tool.Descriptor
deriving Repr

namespace Tool

namespace Table

def empty : Table := ⟨[], []⟩

/-- The tool that a name stands for. -/
def tool? (table : Table) (name : String) : Option Tool := table.handlers.lookup name

/-- Lists a tool, and puts it under its name in place of what was there. -/
def add (table : Table) (tool : Tool) : Table :=
  ⟨(tool.name, tool) :: table.handlers, table.listing ++ [tool.descriptor]⟩

/-- Adds tools for any graph one after another. -/
def addGraphTools (table : Table) : List GraphTool → Table
  | [] => table
  | t :: ts => (table.add (.graph t)).addGraphTools ts

/-- Adds tools of entity types one after another.  None may take a name that stands for a tool
already. -/
def addEntityTools (table : Table) : List EntityTool → Except Failure Table
  | [] => .ok table
  | t :: ts =>
    if (table.tool? t.name).isSome then
      .error (.notReady s!"Schema tool {t.name} collides with a built-in tool")
    else (table.add (.entity t)).addEntityTools ts

end Table

/-- The tools for any graph and behind them those given. -/
def assemble (tools : List EntityTool) : Except Failure Table :=
  (Table.empty.addGraphTools GraphTool.all).addEntityTools tools

/-- The tools that a directory of schema documents leads to. -/
def ofDirectory (d : Disk) (directory : String) : Except Failure Table := do
  let documents ← (Schema.readDirectory d directory).mapError (.notReady ·.message)
  let tools ← (toolsOfDocuments documents).mapError (.notReady ·.message)
  assemble tools

end Tool

/-- The tools that can be called, once they are set up. -/
structure Catalog where
  /-- The path of the directory of schema documents. -/
  directory : String
  table : Option Tool.Table
deriving Repr

namespace Catalog

/-- The catalog of a directory that has not been read yet. -/
def new (directory : String) : Catalog := ⟨directory, none⟩

def isSetUp (c : Catalog) : Bool := c.table.isSome

/-- Reads the directory unless that has been done. -/
def setUp (c : Catalog) (d : Disk) : Except Failure Catalog :=
  match c.table with
  | some _ => .ok c
  | none => (Tool.ofDirectory d c.directory).map fun table => { c with table := some table }

/-- The tools, which must be set up. -/
def ready (c : Catalog) : Except Failure Tool.Table :=
  match c.table with
  | some table => .ok table
  | none =>
    .error (.notReady s!"call initialize() before using tools (schema dir: {c.directory})")

/-- What is told of the tools, in the order in which they are listed. -/
def listing (c : Catalog) : Except Failure (List Tool.Descriptor) := c.ready.map Tool.Table.listing

/-- The tool of a name. -/
def tool? (c : Catalog) (name : String) : Except Failure (Option Tool) := c.ready.map (·.tool? name)

/-- Whether the name is that of a tool of an entity type. -/
def isEntityTool (c : Catalog) (name : String) : Except Failure Bool :=
  (c.tool? name).map fun
    | some (.entity _) => true
    | _ => false

/-- The request that a call asks for. -/
def request (c : Catalog) (call : Tool.Call) : Except Failure Tool.Request := do
  match ← c.tool? call.name with
  | some tool => tool.validate call.arguments
  | none => throw (.unknownTool call.name)

end Catalog

end GraphKeeper
