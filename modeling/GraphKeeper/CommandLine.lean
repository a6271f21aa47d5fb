/-
  The command line.

  A command line names a command and gives options in front of it or behind it.  It is read word by
  word, and the first word that does not fit decides: it asks for help or is a misuse.  An option
  takes its value from behind an equals sign or from the next word, which must not look like an
  option; it may be given once at each place, and what is given behind the command counts more.

  `run` says what becomes of a whole command line: what is printed, with which code the program
  ends, and the disk afterwards.
-/
import GraphKeeper.Session
import GraphKeeper.Settings

namespace GraphKeeper.CommandLine

/-! ## Words -/

/-- An option that takes a value. -/
inductive Opt where
  | settings
  | memoryFile
  | schemaDirectory
  | arguments
deriving DecidableEq, Repr

/-- A place in a command line: in front of the command, or behind it. -/
inductive Place where
  | front
  | serve
  | call
  | listTools
deriving DecidableEq, Repr

/-- Why a command line is not carried out. -/
inductive Stop where
  | help
  | misuse
deriving DecidableEq, Repr

/-- What a word is. -/
inductive Word where
  | help
  /-- An option with its value. -/
  | whole (option : Opt) (value : String)
  /-- An option whose value is the next word. -/
  | opened (option : Opt)
  /-- The sign that all words behind it are plain. -/
  | escape
  | plain
  | unknown
deriving DecidableEq, Repr

/-- The option with a long name at a place. -/
def Opt.named? (place : Place) (name : String) : Option Opt :=
  if name = "config" then some .settings
  else if name = "memory-file" then some .memoryFile
  else if name = "schema-dir" then some .schemaDirectory
  else if name = "args" ∧ place = .call then some .arguments
  else none

/-- A word from behind two dashes. -/
def longWord (place : Place) (cs : List Char) : Word :=
  let name := String.ofList (cs.takeWhile (· ≠ '='))
  let value := cs.dropWhile (· ≠ '=')
  if name = "help" then (if value.isEmpty then .help else .unknown)
  else
    match Opt.named? place name, value with
    | some o, [] => .opened o
    | some o, _ :: value => .whole o (String.ofList value)
    | none, _ => .unknown

/-- A word from behind a single dash. -/
def shortWord : List Char → Word
  | 'h' :: _ => .help
  | ['c'] => .opened .settings
  | 'c' :: '=' :: value => .whole .settings (String.ofList value)
  | 'c' :: value => .whole .settings (String.ofList value)
  | _ => .unknown

/-- What a word is at a place.  A dash alone is a plain word. -/
def Word.of (place : Place) (s : String) : Word :=
  match s.toList with
  | ['-', '-'] => .escape
  | '-' :: '-' :: cs => longWord place cs
  | '-' :: c :: cs => shortWord (c :: cs)
  | _ => .plain

/-! ## Places -/

/-- What is given at a place. -/
structure Given where
  options : List (Opt × String) := []
  /-- The name of the tool to call. -/
  tool : Option String := none
deriving Repr

/-- Whether an option may have a value: a path must not be empty. -/
def Opt.admits (o : Opt) (value : String) : Bool :=
  match o with
  | .memoryFile | .schemaDirectory => value ≠ ""
  | .settings | .arguments => true

/-- Gives an option, which must not be given yet. -/
def Given.addOption (given : Given) (o : Opt) (value : String) : Except Stop Given :=
  if (given.options.lookup o).isSome ∨ !o.admits value then .error .misuse
  else .ok { given with options := (o, value) :: given.options }

/-- Gives a plain word that names no command: only a call takes one, the name of the tool. -/
def Given.addPlain (given : Given) (place : Place) (s : String) : Except Stop Given :=
  if place = .call ∧ given.tool.isNone then .ok { given with tool := some s }
  else .error .misuse

/-- The place behind a command. -/
def Place.behind? (s : String) : Option Place :=
  if s = "serve" then some .serve
  else if s = "call" then some .call
  else if s = "list-tools" then some .listTools
  else none

/-- Whether help can be asked for with these words behind `help`. -/
def isHelpTopic : List String → Bool
  | [] => true
  | [s] => (Place.behind? s).isSome || s = "help"
  | _ => false

/-- What ends the words of a place: a command with the words behind it, or nothing. -/
abbrev End := Option (Place × List String)

/-- Reads the words of a place.  `opened` is an option whose value is to come, and `escaped` says
that all words are plain. -/
def readWords (place : Place) (given : Given) (opened : Option Opt) (escaped : Bool) :
    List String → Except Stop (Given × End)
  | [] => if opened.isSome then .error .misuse else .ok (given, none)
  | s :: rest =>
    if escaped then do readWords place (← given.addPlain place s) opened true rest
    else
      match opened, Word.of place s with
      | some o, .plain => do readWords place (← given.addOption o s) none false rest
      | some _, _ => .error .misuse
      | none, .help => .error .help
      | none, .whole o value => do
        readWords place (← given.addOption o value) none false rest
      | none, .opened o => readWords place given (some o) false rest
      | none, .escape => readWords place given none true rest
      | none, .unknown => .error .misuse
      | none, .plain =>
        if place ≠ .front then do readWords place (← given.addPlain place s) none false rest
        else if s = "help" then .error (if isHelpTopic rest then .help else .misuse)
        else
          match Place.behind? s with
          | some behind => .ok (given, some (behind, rest))
          | none => .error .misuse

/-! ## Invocations -/

/-- What is to be done. -/
inductive Command where
  | serve
  | call (tool arguments : String)
  | listTools
deriving DecidableEq, Repr

/-- A command with the options it is to be carried out with. -/
structure Invocation where
  command : Command
  /-- The path of the settings file, perhaps without its extension. -/
  settingsPath : String
  memoryFile : Option String
  schemaDirectory : Option String
deriving DecidableEq, Repr

def defaultSettingsPath : String := "loregraph"

def defaultArguments : String := "\x7b\x7d"

/-- The command of a place. -/
def commandAt (place : Place) (given : Given) : Except Stop Command :=
  match place with
  | .front => .error .misuse
  | .serve => .ok .serve
  | .listTools => .ok .listTools
  | .call =>
    match given.tool with
    | some tool => .ok (.call tool ((given.options.lookup .arguments).getD defaultArguments))
    | none => .error .misuse

/-- The invocation that the words of a command line stand for. -/
def Invocation.parse (words : List String) : Except Stop Invocation := do
  match ← readWords .front {} none false words with
  | (_, none) => throw .misuse
  | (outer, some (place, rest)) =>
    let (inner, _) ← readWords place {} none false rest
    let value (o : Opt) : Option String := inner.options.lookup o <|> outer.options.lookup o
    return {
      command := ← commandAt place inner
      settingsPath := (value .settings).getD defaultSettingsPath
      memoryFile := value .memoryFile
      schemaDirectory := value .schemaDirectory }

/-- The settings that the command is to be carried out with. -/
def Invocation.settings (i : Invocation) (d : Disk) (env : Environment) :
    Except Settings.Fault Settings := do
  let s ← Settings.load d env i.settingsPath
  return ⟨i.memoryFile.getD s.memoryFile, i.schemaDirectory.getD s.schemaDirectory⟩

/-! ## Carrying out -/

/-- What becomes of a command line: the code that the program ends with, what it prints, and the
disk. -/
structure Outcome where
  code : Nat
  output : String
  disk : Disk

/-- The code for a refused command line. -/
def Stop.code : Stop → Nat
  | .help => 0
  | .misuse => 2

/-- A listing of tools as it is printed. -/
def listTools (listing : List Tool.Descriptor) : String :=
  (Json.arr (listing.map Tool.Descriptor.toJson)).renderPretty ++ "\n"

/-- Calls one tool.  The arguments are read when the store is open. -/
def callTool (s : Session) (tool arguments : String) : Outcome :=
  match Json.parse arguments with
  | .error _ => ⟨1, "", s.disk⟩
  | .ok v =>
    let (reply, s) := s.dispatch ⟨tool, v⟩
    ⟨if reply.isError then 1 else 0, Session.replyLine reply, s.disk⟩

/-- Answers the lines of an input. -/
def serveInput (s : Session) (input : Bytes) : Outcome :=
  let served := s.serve (Session.lines input)
  ⟨if served.handled.isOk then 0 else 1, String.join (served.replies.map Session.replyLine),
    served.session.disk⟩

/-- Carries out a command with the tools of a catalog on the store of a path. -/
def carryOut (command : Command) (catalog : Catalog) (memoryFile : String) (input : Bytes)
    (d : Disk) : Outcome :=
  match command with
  | .listTools =>
    match catalog.listing with
    | .ok listing => ⟨0, listTools listing, d⟩
    | .error _ => ⟨1, "", d⟩
  | .call tool arguments =>
    match Store.openAt d memoryFile with
    | (.ok store, d) => callTool ⟨catalog, store, d⟩ tool arguments
    | (.error _, d) => ⟨1, "", d⟩
  | .serve =>
    match Store.openAt d memoryFile with
    | (.ok store, d) => serveInput ⟨catalog, store, d⟩ input
    | (.error _, d) => ⟨1, "", d⟩

/-- What becomes of the words of a command line in an environment, with an input and a disk. -/
def run (words : List String) (env : Environment) (input : Bytes) (d : Disk) : Outcome :=
  match Invocation.parse words with
  | .error stop => ⟨stop.code, "", d⟩
  | .ok invocation =>
    match invocation.settings d env with
    | .error _ => ⟨1, "", d⟩
    | .ok settings =>
      match (Catalog.new settings.schemaDirectory).setUp d with
      | .error _ => ⟨1, "", d⟩
      | .ok catalog => carryOut invocation.command catalog settings.memoryFile input d

end GraphKeeper.CommandLine
