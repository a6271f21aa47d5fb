/-
  JSON values.

  An object is the list of its members in the order in which they were written; a key stands in it
  once when it was read or built by `Members.set`.  A number is an integer or a double: `1` and
  `1.0` are different values.

  `Json.same` is the equality that comparisons of values use: it forgets the order of members and
  tells the two zeros of doubles apart from nothing.
-/
import GraphKeeper.Number.Double

namespace GraphKeeper

/-- A JSON number. -/
inductive Number where
  | int (n : Int)
  | double (x : Double)
deriving DecidableEq, Repr

/-- A JSON value. -/
inductive Json where
  | null
  | bool (b : Bool)
  | num (n : Number)
  | str (s : String)
  | arr (items : List Json)
  | obj (members : List (String × Json))
deriving Repr

/-- The members of an object, in order. -/
abbrev Members := List (String × Json)

namespace Members

/-- The value under a key. -/
def get? (ms : Members) (key : String) : Option Json := ms.lookup key

/-- The members with `value` under `key`: in place of the value that was there, else at the end. -/
def set (ms : Members) (key : String) (value : Json) : Members :=
  match ms with
  | [] => [(key, value)]
  | m :: ms => if m.1 = key then (key, value) :: ms else m :: set ms key value

def keys (ms : Members) : List String := ms.map Prod.fst

end Members

namespace Number

/-- Equality of values; an integer is never a double. -/
def same : Number → Number → Bool
  | .int m, .int n => m == n
  | .double x, .double y => x.same y
  | _, _ => false

end Number

namespace Json

/-! ## Building values -/

def ofNat (n : Nat) : Json := .num (.int n)

def ofStrings (ss : List String) : Json := .arr (ss.map .str)

/-- The text or `null`. -/
def ofString? (s : Option String) : Json := (s.map .str).getD .null

/-! ## Equality of values -/

mutual

/-- Equality of values, where objects are equal when they have the same keys with equal values. -/
def same : Json → Json → Bool
  | .null, .null => true
  | .bool a, .bool b => a == b
  | .num m, .num n => m.same n
  | .str s, .str t => s == t
  | .arr xs, .arr ys => sameItems xs ys
  | .obj ms, .obj ns => ms.length == ns.length && sameMembers ms ns
  | _, _ => false

/-- Equality item by item. -/
def sameItems : List Json → List Json → Bool
  | [], [] => true
  | x :: xs, y :: ys => same x y && sameItems xs ys
  | _, _ => false

/-- Whether every member of the first object is in the second. -/
def sameMembers : List (String × Json) → List (String × Json) → Bool
  | [], _ => true
  | (k, v) :: ms, ns =>
    (match ns.lookup k with
      | some w => same v w
      | none => false) && sameMembers ms ns

end

/-- Whether one of the values equals `v`. -/
def isAmong (v : Json) (vs : List Json) : Bool := vs.any (same · v)

def isNull : Json → Bool
  | .null => true
  | _ => false

end Json

end GraphKeeper
