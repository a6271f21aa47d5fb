/-
  Reading off the front of a text.

  A reader answers with what it has read and the rest of the text, or with nothing if the text
  does not start with what it reads.
-/
import GraphKeeper.Settings.Value

namespace GraphKeeper.Settings.Toml

/-- Reads something off the front of a text. -/
abbrev Reader (α : Type) := List Char → Option (α × List Char)

/-- The rest behind a character. -/
def after? (c : Char) : List Char → Option (List Char)
  | d :: cs => if d = c then some cs else none
  | [] => none

def isSpace (c : Char) : Bool := c = ' ' || c = '\t'

def skipSpaces (cs : List Char) : List Char := cs.dropWhile isSpace

/-- A number of exactly `count` digits between two bounds. -/
def readField (count low high : Nat) : Reader Nat := fun cs =>
  let ds := cs.take count
  let n := Json.digitsValue ds
  if ds.length = count ∧ ds.all Char.isDigit ∧ low ≤ n ∧ n ≤ high then some (n, cs.drop count)
  else none

end GraphKeeper.Settings.Toml
