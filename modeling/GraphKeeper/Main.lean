/-
  The program.

  Everything is decided by pure definitions on a disk that holds the files a command line asks
  for: the settings file, the schema documents and the graph file.  The program reads these files,
  and when a step has replaced the graph file it writes the new content beside the old file and
  moves it there.  If the system refuses that, the step is taken again on a disk that refuses.
-/
import GraphKeeper.CommandLine

namespace GraphKeeper.Main

open CommandLine

/-! ## Reading the disk -/

/-- A path with nothing but its names. -/
def plainPath (path : String) : String :=
  String.join (Path.start path) ++ String.intercalate "/" (Path.names path)

/-- An entry of the system that stands for a directory. -/
def directoryEntry (path : String) : IO.FS.DirEntry :=
  { root := if path = "" then "?" else path, fileName := "." }

/-- The disk with a file at a path. -/
def withFile (d : Disk) (path : String) (content : Bytes) : Disk :=
  match d.makeParent path with
  | .ok d => (d.replace path content).toOption.getD d
  | .error _ => d

/-- The disk with a directory at a path. -/
def withDirectory (d : Disk) (path : String) : Disk :=
  (d.makeWay (Path.start path) (Path.names path)).toOption.getD d

/-- Takes what the names of a path lead to into the disk: a file, a directory, or nothing. -/
def takeFile (d : Disk) (path : String) : IO Disk := do
  let path := plainPath path
  if ← (directoryEntry path).path.isDir then return withDirectory d path
  try
    return withFile d path (← IO.FS.readBinFile path).toList
  catch _ => return d

/-- Takes a directory and its files into the disk. -/
def takeDirectory (d : Disk) (path : String) : IO Disk := do
  if !(← (directoryEntry path).path.isDir) then return d
  let mut d := withDirectory d path
  for entry in ← (directoryEntry path).path.readDir do
    let file := Path.join path entry.fileName
    if !(← (directoryEntry file).path.isDir) then d ← takeFile d file
  return d

/-- Takes the files that may hold the settings of a path into the disk. -/
def takeSettings (d : Disk) (path : String) : IO Disk :=
  (path :: Settings.Format.all.filterMap (Settings.withExtension? path)).foldlM takeFile d

/-- The pieces of a content between null bytes. -/
def splitNull : Bytes → List Bytes
  | [] => [[]]
  | b :: bs =>
    match splitNull bs with
    | [] => [[b]]
    | l :: ls => if b = 0 then [] :: l :: ls else (b :: l) :: ls

/-- The variables of the process. -/
def environment : IO Environment := do
  try
    let content := (← IO.FS.readBinFile "/proc/self/environ").toList
    return (splitNull content).map fun piece =>
      let cs := (Text.Utf8.decodeLossy piece).toList
      (String.ofList (cs.takeWhile (· ≠ '=')), String.ofList (cs.dropWhile (· ≠ '=')).tail)
  catch _ => return []

/-! ## Writing the graph file -/

/-- The path of the directory that holds the file of a path. -/
def parentPath (path : String) : String :=
  String.join (Path.start path) ++ String.intercalate "/" (Path.names path).dropLast

/-- Replaces the graph file as a whole. -/
def writeGraph (store : Store) : IO Unit := do
  let draft := store.path ++ ".new"
  IO.FS.writeBinFile draft (LineFile.encodeBytes store.graph).toByteArray
  IO.FS.rename draft store.path

/-- Takes a step and writes the graph file if the step has replaced it. -/
def perform {α : Type} (s : Session) (step : Session → α × Session) : IO (α × Session) := do
  let (a, next) := step s
  if next.store.graph = s.store.graph then return (a, next)
  try
    writeGraph next.store
    return (a, next)
  catch e =>
    let refusing := { s.disk with fault := some (.other (toString e)) }
    let (a, next) := step { s with disk := refusing }
    return (a, { next with disk := s.disk })

/-! ## Commands -/

/-- Ends with a message. -/
def fail (message : String) (code : UInt32) : IO UInt32 := do
  IO.eprintln message
  return code

def print (text : String) : IO Unit := do
  let output ← IO.getStdout
  output.putStr text
  output.flush

/-- Answers the lines of the input until it ends. -/
partial def serveLines (s : Session) (input : IO.FS.Stream) : IO UInt32 := do
  let line ← readLine input []
  if line.isEmpty then return 0
  let (result, s) ← perform s fun s =>
    match s.answer line with
    | .ok (reply, next) => (Except.ok reply, next)
    | .error fault => (.error fault, s)
  match result with
  | .error fault => fail fault.message 1
  | .ok reply =>
    if let some reply := reply then print (Session.replyLine reply)
    serveLines s input
where
  /-- Reads one line with the newline byte that ends it. -/
  readLine (input : IO.FS.Stream) (read : Bytes) : IO Bytes := do
    match (← input.read 1).toList with
    | [] => return read.reverse
    | b :: _ => if b = 10 then return (b :: read).reverse else readLine input (b :: read)

/-- Calls one tool. -/
def call (s : Session) (tool arguments : String) : IO UInt32 := do
  match Json.parse arguments with
  | .error flaw => fail s!"the arguments are not JSON: {flaw.message}" 1
  | .ok v =>
    let (reply, _) ← perform s (·.dispatch ⟨tool, v⟩)
    print (Session.replyLine reply)
    return if reply.isError then 1 else 0

/-- Opens the store of a path. -/
def openStore (d : Disk) (path : String) : IO (Except Failure Store × Disk) := do
  if parentPath path ≠ "" then IO.FS.createDirAll (parentPath path)
  return Store.openAt (← takeFile d path) path

/-- Carries out an invocation. -/
def carryOut (invocation : Invocation) : IO UInt32 := do
  let d ← takeSettings .empty invocation.settingsPath
  match invocation.settings d (← environment) with
  | .error fault => fail fault.message 1
  | .ok settings =>
    let d ← takeDirectory d settings.schemaDirectory
    match (Catalog.new settings.schemaDirectory).setUp d with
    | .error failure => fail failure.message 1
    | .ok catalog =>
      match invocation.command with
      | .listTools =>
        match catalog.listing with
        | .ok listing => print (listTools listing); return 0
        | .error failure => fail failure.message 1
      | command =>
        match ← openStore d settings.memoryFile with
        | (.error failure, _) => fail failure.message 1
        | (.ok store, d) =>
          let s : Session := ⟨catalog, store, d⟩
          match command with
          | .call tool arguments => call s tool arguments
          | _ => serveLines s (← IO.getStdin)

def usage : String :=
  "usage: serve | call NAME [--args JSON] | list-tools, with -c or --config PATH, " ++
    "--memory-file PATH, --schema-dir PATH"

end GraphKeeper.Main

open GraphKeeper in
def main (words : List String) : IO UInt32 := do
  match CommandLine.Invocation.parse words with
  | .error stop => Main.fail Main.usage (UInt32.ofNat stop.code)
  | .ok invocation =>
    try Main.carryOut invocation
    catch e => Main.fail (toString e) 1
