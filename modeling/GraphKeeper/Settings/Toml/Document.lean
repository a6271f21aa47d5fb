/-
  TOML documents, as far as settings need them: the keys at the top and what stands under each.

  A document is a list of statements, one a line.  They are read first, and then recorded one after
  another in the tables they speak of.  A key must not be defined twice, but how a table came about
  decides what may still be added to it: a table that only lies on the way to the table of a header
  may get a header of its own, once; one made by a dotted key may be extended by dotted keys only.

  A table whose first key is `$__toml_private_datetime` is no table: the string under the key must
  stand for a date-time, and the table for that.  Tables keep their keys in the order in which they
  came, but a table that gets its header only after tables within it comes last then.
-/
import GraphKeeper.Settings.Toml.Token

namespace GraphKeeper.Settings.Toml

/-! ## Tables -/

/-- How a table came about. -/
inductive Origin where
  /-- By a header of its own. -/
  | header
  /-- On the way to the table of a header. -/
  | way
  /-- By a dotted key. -/
  | dotted
deriving DecidableEq, Repr

/-- What stands under a key. -/
inductive Item where
  | string (s : String)
  /-- A value that nothing can be added to, and that is no string. -/
  | value (v : Value)
  | table (origin : Origin) (entries : List (String × Item))
  /-- An array of tables, of which only the last can still change and is kept. -/
  | tables (last : List (String × Item))
deriving Repr

abbrev Entries := List (String × Item)

namespace Entries

/-- The entries with an item under a key: in place of the one there, or at the end. -/
def put (key : String) (item : Item) : Entries → Entries
  | [] => [(key, item)]
  | e :: es => if e.1 = key then (key, item) :: es else e :: put key item es

/-- Adds an item under a dotted key, which is given by the parts in front and the last part. -/
def add (entries : Entries) (key : String) (item : Item) : List String → Option Entries
  | [] => if (entries.lookup key).isSome then none else some (entries ++ [(key, item)])
  | k :: ks =>
    match entries.lookup k with
    | none => do return entries ++ [(k, .table .dotted (← add [] key item ks))]
    | some (.string _) | some (.value _) => none
    | some (.table origin inner) =>
      if origin = .header ∨ (origin = .way ∧ ks.isEmpty) then none
      else do return entries.put k (.table origin (← add inner key item ks))
    | some (.tables last) =>
      if ks.isEmpty then none else do return entries.put k (.tables (← add last key item ks))

/-- Goes the way of a header to the entries that hold its table, and makes the tables on it. -/
def openAt (entries : Entries) (start : Entries → Option Entries) : List String → Option Entries
  | [] => start entries
  | k :: ks =>
    match entries.lookup k with
    | none => do return entries ++ [(k, .table .way (← openAt [] start ks))]
    | some (.string _) | some (.value _) => none
    | some (.table origin inner) => do
      return entries.put k (.table origin (← openAt inner start ks))
    | some (.tables last) => do return entries.put k (.tables (← openAt last start ks))

/-- Changes the table at the end of a way. -/
def within (entries : Entries) (change : Entries → Option Entries) : List String → Option Entries
  | [] => change entries
  | k :: ks =>
    match entries.lookup k with
    | some (.table origin inner) => do
      return entries.put k (.table origin (← within inner change ks))
    | some (.tables last) => do return entries.put k (.tables (← within last change ks))
    | _ => none

end Entries

/-! ## Meaning -/

/-- The key of the string that a table stands for. -/
def dateTimeKey : String := "$__toml_private_datetime"

mutual

/-- The value that an item stands for, if everything in it stands for something. -/
def Item.value? : Item → Option Value
  | .string s => some (.text s)
  | .value v => some v
  | .table _ entries => tableValue? entries
  | .tables last => (tableValue? last).map fun _ => .array

/-- The value that a table with these entries stands for. -/
def tableValue? : List (String × Item) → Option Value
  | [] => some .emptyTable
  | (key, item) :: entries =>
    if key = dateTimeKey then
      match item with
      | .string s => (DateTime.ofText? s).map fun t => .text t.text
      | _ => none
    else if item.value?.isSome && allMeaningful entries then some .table
    else none

/-- Whether every entry stands for something. -/
def allMeaningful : List (String × Item) → Bool
  | [] => true
  | (_, item) :: entries => item.value?.isSome && allMeaningful entries

end

/-! ## Headers -/

/-- A table gets its header: it is new, or lies on the way to another one. -/
def startTable (key : String) (entries : Entries) : Option Entries :=
  match entries.lookup key with
  | none => some (entries ++ [(key, .table .header [])])
  | some (.table .way inner) =>
    some (entries.filter (·.1 ≠ key) ++ [(key, .table .header inner)])
  | some _ => none

/-- An array of tables gets one more.  The one that was the last must stand for something. -/
def startElement (key : String) (entries : Entries) : Option Entries :=
  match entries.lookup key with
  | none => some (entries ++ [(key, .tables [])])
  | some (.tables last) => (tableValue? last).map fun _ => entries.put key (.tables [])
  | some _ => none

/-! ## Values -/

/-- The number of arrays and inline tables that may be open at once. -/
def depthLimit : Nat := 79

/-- The number of parts that a key may have. -/
def keyLimit : Nat := 79

mutual

/-- Reads a value that may open at most `depth` arrays and inline tables at once. -/
def readValue (fuel depth : Nat) : Reader Item := fun cs =>
  match fuel with
  | 0 => none
  | fuel + 1 =>
    match depth, cs with
    | 0, '[' :: _ | 0, '\x7b' :: _ => none
    | depth + 1, '[' :: cs => (readItems fuel depth cs).map fun rest => (.value .array, rest)
    | depth + 1, '\x7b' :: cs => do
      let (entries, rest) ←
        match skipSpaces cs with
        | '\x7d' :: rest => some ([], rest)
        | cs => readPairs fuel depth [] cs
      return (.value (← tableValue? entries), rest)
    | _, cs =>
      (readString cs).map (fun (s, rest) => (.string s, rest)) <|>
        (readPlain cs).map fun (s, rest) => (.value (.text s), rest)

/-- The rest behind the items of an array. -/
def readItems (fuel depth : Nat) (cs : List Char) : Option (List Char) :=
  match fuel with
  | 0 => none
  | fuel + 1 => do
    match ← skipBlanks (cs.length + 1) cs with
    | ']' :: rest => some rest
    | cs =>
      let (_, cs) ← readValue fuel depth cs
      match ← skipBlanks (cs.length + 1) cs with
      | ']' :: rest => some rest
      | ',' :: rest => readItems fuel depth rest
      | _ => none

/-- The entries of an inline table with the pairs that are to come, none of which may define a
key again. -/
def readPairs (fuel depth : Nat) (entries : Entries) : Reader Entries := fun cs =>
  match fuel with
  | 0 => none
  | fuel + 1 => do
    let (parts, cs) ← readKey keyLimit cs
    let cs ← after? '=' cs
    let (item, cs) ← readValue fuel depth (skipSpaces cs)
    let entries ← entries.add (← parts.getLast?) item parts.dropLast
    match skipSpaces cs with
    | '\x7d' :: rest => some (entries, rest)
    | ',' :: rest => readPairs fuel depth entries rest
    | _ => none

end

/-! ## Statements -/

/-- A statement, with the parts of its key. -/
inductive Statement where
  | table (key : List String)
  | element (key : List String)
  | pair (key : List String) (item : Item)
deriving Repr

/-- Reads the statement at the front of a text, up to the end of its line. -/
def readStatement (cs : List Char) : Option (Statement × List Char) :=
  match cs with
  | '[' :: '[' :: cs => do
    let (key, cs) ← readKey keyLimit cs
    let cs ← after? ']' (← after? ']' cs)
    return (.element key, ← endLine cs)
  | '[' :: cs => do
    let (key, cs) ← readKey keyLimit cs
    let cs ← after? ']' cs
    return (.table key, ← endLine cs)
  | cs => do
    let (key, cs) ← readKey keyLimit cs
    let cs ← after? '=' cs
    let (item, cs) ← readValue (cs.length + 1) depthLimit (skipSpaces cs)
    return (.pair key item, ← endLine cs)

/-- Reads the statements of a text.  A line without one is passed over. -/
def readStatements (fuel : Nat) (cs : List Char) : Option (List Statement) :=
  match fuel, skipSpaces cs with
  | 0, _ => none
  | _ + 1, [] => some []
  | fuel + 1, cs =>
    match endLine cs with
    | some rest => readStatements fuel rest
    | none => do
      let (statement, rest) ← readStatement cs
      return statement :: (← readStatements fuel rest)

/-- The entries of a document, and the way to the table that is open. -/
structure Document where
  entries : Entries
  way : List String

/-- The document after one more statement. -/
def Document.record (d : Document) : Statement → Option Document
  | .table key => do
    return ⟨← d.entries.openAt (startTable (← key.getLast?)) key.dropLast, key⟩
  | .element key => do
    return ⟨← d.entries.openAt (startElement (← key.getLast?)) key.dropLast, key⟩
  | .pair key item => do
    let last ← key.getLast?
    return { d with entries := ← d.entries.within (·.add last item key.dropLast) d.way }

/-- The keys at the top of a document with their values.  A byte order mark in front is no part of
it.  The document must be a table itself. -/
def parse (s : String) : Option (List (String × Value)) := do
  let cs := (Text.afterLead? [Char.ofNat 0xFEFF] s.toList).getD s.toList
  let statements ← readStatements (cs.length + 1) cs
  let d ← statements.foldlM Document.record ⟨[], []⟩
  if d.entries.head?.map Prod.fst = some dateTimeKey then none
  else d.entries.mapM fun (key, item) => item.value?.map (key, ·)

end GraphKeeper.Settings.Toml
