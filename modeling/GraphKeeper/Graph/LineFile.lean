/-
  The graph file: one record a line, all nodes first and then all edges.

  Reading is more lenient than writing: lines may be blank, records may come in any order, and an
  edge may come before its nodes.  But every line must be UTF-8 and hold one record, no name may
  come twice, and when all lines have been read the ends of every edge must be there.  The first
  line at fault is blamed; a missing end of an edge is only looked for when no line is at fault by
  itself.
-/
import GraphKeeper.Graph.Record

namespace GraphKeeper.LineFile

open Json

/-! ## Writing -/

/-- The records of a graph in the order of the file. -/
def records (g : Graph) : List Record := g.nodes.map .node ++ g.edges.map .edge

/-- The text of a graph file. -/
def encode (g : Graph) : String :=
  String.join ((records g).map fun r => r.toJson.render ++ "\n")

/-- The content of a graph file. -/
def encodeBytes (g : Graph) : Bytes := Text.Utf8.encode (encode g)

/-! ## Reading -/

/-- What is wrong with a line. -/
inductive LineFault where
  | notUtf8 (fault : Text.Utf8.Fault)
  | notRecord (error : DecodeError)
  | repeatedName (name : String)
  | missingEnd (edge : Edge) (name : String)
deriving Repr

def LineFault.message : LineFault → String
  | .notUtf8 fault => s!"invalid UTF-8: {fault.message}"
  | .notRecord error => error.message
  | .repeatedName name => s!"duplicate node name '{name}'"
  | .missingEnd edge name => s!"edge {edge.label} references missing node '{name}'"

/-- A line at fault, counted from 1. -/
structure Corruption where
  line : Nat
  fault : LineFault
deriving Repr

def Corruption.failure (c : Corruption) : Failure := .corruptFile c.line c.fault.message

/-- The pieces between newline bytes; there is always one more than there are newlines. -/
def splitLines : Bytes → List Bytes
  | [] => [[]]
  | b :: bs =>
    if b = 10 then [] :: splitLines bs
    else
      match splitLines bs with
      | [] => [[b]]
      | l :: ls => (b :: l) :: ls

/-- The record of a line, or none for a blank one. -/
def readLine (bytes : Bytes) : Except LineFault (Option Record) :=
  match Text.Utf8.decode bytes with
  | .error fault => .error (.notUtf8 fault)
  | .ok s =>
    if Text.isBlank s then .ok none
    else
      match decodeText Record.decoder s with
      | .ok r => .ok (some r)
      | .error e => .error (.notRecord e)

/-- The records of lines with their numbers; `line` is the number of the first line and `seen`
holds the names in front of it. -/
def readLines (line : Nat) (seen : List String) :
    List Bytes → Except Corruption (List (Nat × Record))
  | [] => .ok []
  | l :: ls =>
    match readLine l with
    | .error fault => .error ⟨line, fault⟩
    | .ok none => readLines (line + 1) seen ls
    | .ok (some (.edge e)) => ((line, .edge e) :: ·) <$> readLines (line + 1) seen ls
    | .ok (some (.node n)) =>
      if n.name ∈ seen then .error ⟨line, .repeatedName n.name⟩
      else ((line, .node n) :: ·) <$> readLines (line + 1) (n.name :: seen) ls

def nodesOf (records : List (Nat × Record)) : List Node :=
  records.filterMap fun
    | (_, .node n) => some n
    | _ => none

/-- The edges with the numbers of their lines. -/
def edgesOf (records : List (Nat × Record)) : List (Nat × Edge) :=
  records.filterMap fun
    | (line, .edge e) => some (line, e)
    | _ => none

/-- Both ends of an edge must be among the names. -/
def checkEnds (names : List String) (edge : Nat × Edge) : Except Corruption Unit :=
  if edge.2.source ∉ names then .error ⟨edge.1, .missingEnd edge.2 edge.2.source⟩
  else if edge.2.target ∉ names then .error ⟨edge.1, .missingEnd edge.2 edge.2.target⟩
  else .ok ()

/-- The graph of a file. -/
def parse (content : Bytes) : Except Corruption Graph := do
  let records ← readLines 1 [] (splitLines content)
  let g : Graph := ⟨nodesOf records, (edgesOf records).map Prod.snd⟩
  (edgesOf records).forM (checkEnds g.names)
  return g

end GraphKeeper.LineFile
