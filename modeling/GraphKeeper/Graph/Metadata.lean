/-
  Metadata lines.

  A line is free text.  A line of the form `label: value`, where the label is not empty and holds
  no blank character, carries that label.  The first colon with a space behind it divides label and
  value; a label may hold colons, a value anything.

  Setting a label replaces the first line that carries it, in place, and adds a line at the end if
  there is none.  Setting it to no value removes the first line that carries it.
-/
import GraphKeeper.Text.Blank

namespace GraphKeeper.Metadata

/-- The characters in front of the first `": "` and those behind it. -/
def cutLabel : List Char → Option (List Char × List Char)
  | [] => none
  | c :: cs =>
    if c = ':' ∧ cs.head? = some ' ' then some ([], cs.tail)
    else (cutLabel cs).map fun (label, value) => (c :: label, value)

/-- Whether a text can be the label of a line. -/
def isLabel (label : List Char) : Bool := !label.isEmpty && !label.any Text.isBlankChar

/-- The line with a label and a value. -/
def line (label value : String) : String := label ++ ": " ++ value

/-- The label and the value of a line. -/
def split? (line : String) : Option (String × String) := do
  let (label, value) ← cutLabel line.toList
  if isLabel label then some (String.ofList label, String.ofList value) else none

/-- The label of a line. -/
def label? (line : String) : Option String := (split? line).map Prod.fst

/-- Sets, replaces or removes the line that carries `label`. -/
def set (label : String) (value : Option String) : List String → List String
  | [] => (value.map (line label)).toList
  | l :: ls =>
    if label? l = some label then (value.map (line label)).toList ++ ls
    else l :: set label value ls

/-- Merges one line: it sets its label, or is added unless it is there already. -/
def mergeLine (lines : List String) (l : String) : List String :=
  match split? l with
  | some (label, value) => set label (some value) lines
  | none => if l ∈ lines then lines else lines ++ [l]

/-- Merges lines one after another. -/
def merge (lines added : List String) : List String := added.foldl mergeLine lines

/-- Adds the lines that are not there yet: those added and all lines after it. -/
def addMissing (lines : List String) : List String → List String × List String
  | [] => ([], lines)
  | l :: ls =>
    if l ∈ lines then addMissing lines ls
    else
      let (added, all) := addMissing (lines ++ [l]) ls
      (l :: added, all)

/-- The requested lines that are there, and the lines without them. -/
def remove (lines requested : List String) : List String × List String :=
  let removed := requested.filter (· ∈ lines)
  (removed, lines.filter (· ∉ removed))

end GraphKeeper.Metadata
