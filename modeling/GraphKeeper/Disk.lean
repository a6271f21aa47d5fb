/-
  A disk: files and directories under the working directory and under the root.

  A path is the text that messages show.  Its names lead from the working directory, or from the
  root if it begins with a slash, to a location; each name on the way must be a directory.  What
  lies above the working directory is known by the steps upwards that lead there.  Paths and names
  that a disk cannot have at all are refused before it is asked what is there.

  Files are replaced as a whole: a replacement either happens completely or leaves the disk as it
  was.  A disk with a `fault` refuses every replacement with that fault, as one does that is full.
-/
import GraphKeeper.Text.Utf8

namespace GraphKeeper

/-- The content of a file. -/
abbrev Bytes := List UInt8

/-- Why a disk refuses something. -/
inductive DiskFault where
  | missing
  | busy
  | exists
  | notDirectory
  | isDirectory
  | tooLong
  | nullByte
  | notText
  | other (message : String)
deriving DecidableEq, Repr

def DiskFault.message : DiskFault → String
  | .missing => "No such file or directory (os error 2)"
  | .busy => "Device or resource busy (os error 16)"
  | .exists => "File exists (os error 17)"
  | .notDirectory => "Not a directory (os error 20)"
  | .isDirectory => "Is a directory (os error 21)"
  | .tooLong => "File name too long (os error 36)"
  | .nullByte => "file name contained an unexpected NUL byte"
  | .notText => "stream did not contain valid UTF-8"
  | .other message => message

/-! ## Paths -/

namespace Path

/-- The greatest number of bytes of a name. -/
def nameLimit : Nat := 255

/-- The greatest number of bytes of a path. -/
def lengthLimit : Nat := 4095

/-- Refuses a path that no disk has. -/
def check (path : String) : Except DiskFault Unit :=
  if path.toList.contains (Char.ofNat 0) then .error .nullByte
  else if lengthLimit < path.utf8ByteSize then .error .tooLong
  else .ok ()

/-- Where a path starts: nowhere at the working directory, a slash at the root. -/
def start (path : String) : List String := if path.toList.head? = some '/' then ["/"] else []

/-- The pieces of a path between slashes, empty ones included. -/
def pieces (path : String) : List String :=
  (path.toList.splitOn '/').map String.ofList

/-- The steps of a path: its names, and the dots that lead up or nowhere. -/
def steps (path : String) : List String := (pieces path).filter (· ≠ "")

/-- The names of a path, without the steps that lead nowhere. -/
def names (path : String) : List String := (steps path).filter (· ≠ ".")

/-- Whether a slash is at the end of a path. -/
def endsInSlash (path : String) : Bool := path.toList.getLast? == some '/'

/-- Whether the path asks for a directory by a slash or a dot at its end. -/
def asDirectory (path : String) : Bool :=
  match (pieces path).getLast? with
  | some last => (last = "" ∨ last = ".") ∧ path ≠ ""
  | none => false

/-- The path that leads on from a directory.  One that starts at the root does so from anywhere. -/
def join (directory path : String) : String :=
  if directory = "" ∨ path.toList.head? = some '/' then path
  else if directory.toList.getLast? = some '/' then directory ++ path
  else directory ++ "/" ++ path

/-- The extension of a file name: what stands behind its last dot, unless nothing stands in
front of that dot. -/
def extension? (name : String) : Option String :=
  let behind := name.toList.reverse.takeWhile (· ≠ '.')
  if behind.length + 1 < name.length then some (String.ofList behind.reverse) else none

end Path

/-- The way from the working directory or from the root to an entry. -/
abbrev Location := List String

/-- What is at a location. -/
inductive DiskEntry where
  | file (content : Bytes)
  | directory
deriving DecidableEq, Repr

/-- Files and directories. -/
structure Disk where
  entries : List (Location × DiskEntry)
  /-- Why no file can be replaced at present. -/
  fault : Option DiskFault := none
deriving DecidableEq, Repr

namespace Disk

def empty : Disk := ⟨[], none⟩

/-- Whether a location is the working directory or lies above it. -/
def isAbove (l : Location) : Bool := l.all (· == "..")

/-- What is at a location.  The root, the working directory and what lies above it are always
there. -/
def entry? (d : Disk) (l : Location) : Option DiskEntry :=
  if isAbove l ∨ l = ["/"] then some .directory else d.entries.lookup l

/-- The disk with an entry put at a location. -/
def put (d : Disk) (l : Location) (e : DiskEntry) : Disk :=
  { d with entries := (l, e) :: d.entries.filter (·.1 ≠ l) }

/-- The location that a name leads to from a directory. -/
def follow (l : Location) (name : String) : Location :=
  if name ≠ ".." then l ++ [name]
  else if l = ["/"] then l
  else if isAbove l then l ++ [".."]
  else l.dropLast

/-- One step on a way through directories. -/
def step (l : Location) (name : String) : Except DiskFault Location :=
  if Path.nameLimit < name.utf8ByteSize then .error .tooLong else .ok (follow l name)

/-- Follows names that must all be directories. -/
def walk (d : Disk) (l : Location) : List String → Except DiskFault Location
  | [] => .ok l
  | name :: names => do
    let l ← step l name
    match d.entry? l with
    | some .directory => walk d l names
    | some (.file _) => throw .notDirectory
    | none => throw .missing

/-- The location of the directory that holds the entry of a path. -/
def parent (d : Disk) (path : String) : Except DiskFault Location := do
  Path.check path
  d.walk (Path.start path) (Path.names path).dropLast

/-- The location of the entry of a path, which may be missing. -/
def locate (d : Disk) (path : String) : Except DiskFault Location := do
  let directory ← d.parent path
  match (Path.names path).getLast? with
  | some name => step directory name
  | none => if path = "" then throw .missing else return directory

def isDirectory (d : Disk) (path : String) : Bool :=
  match d.locate path with
  | .ok l => d.entry? l = some .directory
  | .error _ => false

/-- The content of a file. -/
def read (d : Disk) (path : String) : Except DiskFault Bytes := do
  let l ← d.locate path
  match d.entry? l with
  | some (.file content) => if Path.asDirectory path then throw .notDirectory else return content
  | some .directory => throw .isDirectory
  | none => throw .missing

/-- Whether a file is at a path. -/
def isFile (d : Disk) (path : String) : Bool := (d.read path).toOption.isSome

/-- The content of a file that is text. -/
def readText (d : Disk) (path : String) : Except DiskFault String := do
  let content ← d.read path
  match Text.Utf8.decode content with
  | .ok s => return s
  | .error _ => throw .notText

/-- Makes the directories along names that are not there. -/
def makeWay (d : Disk) (l : Location) : List String → Except DiskFault Disk
  | [] => .ok d
  | name :: names => do
    let l ← step l name
    match d.entry? l with
    | some .directory => makeWay d l names
    | some (.file _) => throw (if names.isEmpty then .exists else .notDirectory)
    | none => makeWay (d.put l .directory) l names

/-- Makes the directory that is to hold the entry of a path. -/
def makeParent (d : Disk) (path : String) : Except DiskFault Disk := do
  Path.check path
  d.makeWay (Path.start path) (Path.names path).dropLast

/-- The location where the file of a path may be put, in the directory that holds it.  A path that
ends in dots has a place that is taken, if there is a place at all. -/
def vacancy (d : Disk) (path : String) (directory : Location) : Except DiskFault Location :=
  match (Path.steps path).getLast? with
  | none => .error (if path = "" then .missing else .busy)
  | some "." => do
    let _ ← d.walk (Path.start path) (Path.names path)
    throw .busy
  | some ".." => .error .busy
  | some name => do
    let l ← step directory name
    if Path.endsInSlash path then throw .notDirectory
    if d.entry? l = some .directory then throw .isDirectory
    return l

/-- Replaces the file of a path, or makes it in a directory that is there.  The new file is written
beside the old one, and then moved to the path. -/
def replace (d : Disk) (path : String) (content : Bytes) : Except DiskFault Disk := do
  let directory ← d.parent path
  match d.fault with
  | some fault => throw fault
  | none => return d.put (← d.vacancy path directory) (.file content)

/-- The names of the files of a directory, in ascending order. -/
def fileNames (d : Disk) (path : String) : Except DiskFault (List String) := do
  let l ← d.locate path
  let names := d.entries.filterMap fun (place, e) =>
    match e, place.getLast? with
    | .file _, some name => if place.dropLast = l then some name else none
    | _, _ => none
  return names.mergeSort (· ≤ ·)

/-- The disk without an entry and everything under it. -/
def remove (d : Disk) (path : String) : Disk :=
  match d.locate path with
  | .ok l => { d with entries := d.entries.filter fun (place, _) => ¬ (l <+: place) }
  | .error _ => d

end Disk

end GraphKeeper
