/-
  A graph together with the file that backs it.

  A change is made on the graph first.  If it fails, nothing else happens.  If it succeeds and gives
  a different graph, the file is replaced, and only a replacement that succeeds makes the store
  take on the new graph.  So memory and file stay equal, and a change that fails leaves both as
  they were.
-/
import GraphKeeper.Graph.LineFile
import GraphKeeper.Graph.Report

namespace GraphKeeper

/-- A graph and the path of its file. -/
structure Store where
  path : String
  graph : Graph
deriving DecidableEq, Repr

namespace Store

/-- The graph of a file; a missing file is an empty graph. -/
def load (d : Disk) (path : String) : Except Failure Graph :=
  match d.read path with
  | .ok content => (LineFile.parse content).mapError LineFile.Corruption.failure
  | .error .missing => .ok .empty
  | .error fault => .error (.storage path fault)

/-- Opens the store of a path: makes the directories of its file and loads the graph.  The disk
keeps the directories whether or not the graph loads. -/
def openAt (d : Disk) (path : String) : Except Failure Store × Disk :=
  match d.makeParent path with
  | .error fault => (.error (.storage path fault), d)
  | .ok d => ((load d path).map fun graph => ⟨path, graph⟩, d)

/-- Makes a change: its report or failure, and the store and the disk after it. -/
def change (s : Store) (d : Disk) (c : Change) : Except Failure Report × Store × Disk :=
  match c.apply s.graph with
  | .error failure => (.error failure, s, d)
  | .ok (report, graph) =>
    if graph = s.graph then (.ok report, s, d)
    else
      match d.replace s.path (LineFile.encodeBytes graph) with
      | .error fault => (.error (.storage s.path fault), s, d)
      | .ok d => (.ok report, { s with graph }, d)

end Store

end GraphKeeper
