/-
  The outline of a JSON text: everything a reader meets in it, up to the place where the text
  stops being JSON.

  Whoever asks a text for a value of some shape goes over it from left to right, and the first
  thing at fault counts, be it a value of the wrong shape or a flaw of the text.  So a flaw is kept
  in the outline at its place, and a shape is read off an outline by recursion on it.  A value
  which nobody asks for is only skipped; that is more lenient than reading it, so a place where
  the text breaks has a flaw for either case.

  `Outline.ofJson` is the outline of a value that is at hand already, which has no flaw.
-/
import GraphKeeper.Json.Flaw
import GraphKeeper.Json.Value

namespace GraphKeeper.Json

/-- A place where the text breaks off: the flaw met when the value is read, and the one met when
it is skipped. -/
structure Break where
  onRead : Flaw
  onSkip : Flaw
deriving DecidableEq, Repr

/-- The same flaw for reading and for skipping. -/
def Break.both (flaw : Flaw) : Break := ⟨flaw, flaw⟩

mutual

/-- What a reader meets where a value should be. -/
inductive Outline where
  | null
  | bool (b : Bool)
  | num (n : Number)
  | str (s : String)
  /-- A whole token that stands for no value. -/
  | unusable (flaw : Flaw)
  /-- The text breaks off before the value is complete. -/
  | broken (why : Break)
  | arr (tooDeep : Bool) (items : Items)
  | obj (tooDeep : Bool) (entries : Entries)

/-- What a reader meets inside an array. -/
inductive Items where
  | done
  | broken (why : Break)
  | item (head : Outline) (tail : Items)

/-- What a reader meets inside an object.  A key may be a whole token that stands for no text. -/
inductive Entries where
  | done
  | broken (why : Break)
  | entry (key : Except Flaw String) (value : Outline) (tail : Entries)

end

/-! ## Skipping -/

mutual

/-- Goes over a value that nobody asks for. -/
def Outline.skip : Outline → Except Flaw Unit
  | .broken why => .error why.onSkip
  | .arr _ items => items.skip
  | .obj _ entries => entries.skip
  | _ => .ok ()

def Items.skip : Items → Except Flaw Unit
  | .done => .ok ()
  | .broken why => .error why.onSkip
  | .item head tail => do head.skip; tail.skip

def Entries.skip : Entries → Except Flaw Unit
  | .done => .ok ()
  | .broken why => .error why.onSkip
  | .entry _ value tail => do value.skip; tail.skip

end

/-! ## Reading any value -/

mutual

/-- The value, if there is no flaw in it. -/
def Outline.toJson : Outline → Except Flaw Json
  | .null => .ok .null
  | .bool b => .ok (.bool b)
  | .num n => .ok (.num n)
  | .str s => .ok (.str s)
  | .unusable flaw => .error flaw
  | .broken why => .error why.onRead
  | .arr tooDeep items => do
    if tooDeep then throw .tooDeep
    return .arr (← items.toJsons)
  | .obj tooDeep entries => do
    if tooDeep then throw .tooDeep
    return .obj (← entries.toMembers [])

def Items.toJsons : Items → Except Flaw (List Json)
  | .done => .ok []
  | .broken why => .error why.onRead
  | .item head tail => do
    let v ← head.toJson
    return v :: (← tail.toJsons)

/-- The members after those in `acc`; a key that comes again replaces the value in place. -/
def Entries.toMembers (acc : Members) : Entries → Except Flaw Members
  | .done => .ok acc
  | .broken why => .error why.onRead
  | .entry key value tail => do
    let k ← key
    let v ← value.toJson
    tail.toMembers (acc.set k v)

end

/-! ## The outline of a value -/

mutual

def Outline.ofJson : Json → Outline
  | .null => .null
  | .bool b => .bool b
  | .num n => .num n
  | .str s => .str s
  | .arr items => .arr false (Items.ofJsons items)
  | .obj members => .obj false (Entries.ofMembers members)

def Items.ofJsons : List Json → Items
  | [] => .done
  | v :: vs => .item (Outline.ofJson v) (Items.ofJsons vs)

def Entries.ofMembers : List (String × Json) → Entries
  | [] => .done
  | (k, v) :: ms => .entry (.ok k) (Outline.ofJson v) (Entries.ofMembers ms)

end

/-- The number of items up to the end or the break. -/
def Items.length : Items → Nat
  | .item _ tail => tail.length + 1
  | _ => 0

end GraphKeeper.Json
