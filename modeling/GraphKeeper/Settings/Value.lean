/-
  Values of settings.

  A setting is given as text, or as a value of a settings file.  Whatever is not an array or a table
  counts as text: truth values and numbers are known by the text they are shown by, which need not
  be the one they were written with (`+5` is `5`, and `1e3` is `1000`).  Of arrays and tables only
  the kind is kept, and whether a table is empty: an empty one has nothing to set.
-/
import GraphKeeper.Json.Printer
import GraphKeeper.Json.Reader
import GraphKeeper.Text.Case

namespace GraphKeeper.Settings

/-- The value of a setting. -/
inductive Value where
  | text (s : String)
  | nothing
  | array
  | emptyTable
  | table
deriving DecidableEq, Repr

/-- What becomes of a value when one more is set in its place: an empty table changes nothing. -/
def Value.replacedBy (old : Option Value) (new : Value) : Value :=
  match old, new with
  | some v, .emptyTable => v
  | _, v => v

/-! ## Numbers -/

/-- Whether an integer fits a word of 64 bits with a sign. -/
def fitsWord (n : Int) : Bool := -(Nat.pow 2 63 : Int) ≤ n && n < (Nat.pow 2 63 : Int)

/-- The text of an integer that fits a word. -/
def wordText? (n : Int) : Option String :=
  if fitsWord n then some (String.ofList (Json.intChars n)) else none

def infinityText (negative : Bool) : String := if negative then "-inf" else "inf"

/-- The text of the double nearest to `digits * 10 ^ scale`. -/
def doubleText (negative : Bool) (digits : Nat) (scale : Int) : String :=
  match Magnitude.ofDecimal? digits scale with
  | some m => String.ofList (Double.plainText ⟨negative, m⟩)
  | none => infinityText negative

/-- Whether a minus stands in front, and what stands behind the sign. -/
def splitSign : List Char → Bool × List Char
  | '-' :: cs => (true, cs)
  | '+' :: cs => (false, cs)
  | cs => (false, cs)

/-- The value of digits with a sign. -/
def signed (negative : Bool) (n : Nat) : Int := if negative then -n else n

/-- The number that digits stand for, perhaps with a sign and with nothing else. -/
def integer? (cs : List Char) : Option Int :=
  let (negative, ds) := splitSign cs
  if ds.isEmpty ∨ !ds.all Char.isDigit then none
  else some (signed negative (Json.digitsValue ds))

/-- The exponent that a text consists of; an empty text is the exponent zero. -/
def exponent? : List Char → Option Int
  | [] => some 0
  | c :: cs => if c = 'e' ∨ c = 'E' then integer? cs else none

/-- The text of a decimal number.  There must be a digit on one side of the point. -/
def decimalText? (negative : Bool) (cs : List Char) : Option String := do
  let whole := cs.takeWhile Char.isDigit
  let (fraction, rest) :=
    match cs.dropWhile Char.isDigit with
    | '.' :: fs => (fs.takeWhile Char.isDigit, fs.dropWhile Char.isDigit)
    | rest => ([], rest)
  if whole.isEmpty ∧ fraction.isEmpty then none
  else
    let exponent ← exponent? rest
    some (doubleText negative (Json.digitsValue (whole ++ fraction))
      (exponent - fraction.length))

/-- The text of infinity or of what is not a number, by its name in any case. -/
def specialText? (negative : Bool) (cs : List Char) : Option String :=
  let name := String.ofList (cs.map Char.toLower)
  if name = "inf" ∨ name = "infinity" then some (infinityText negative)
  else if name = "nan" then some "NaN"
  else none

/-- The text of a number in double precision. -/
def floatText? (cs : List Char) : Option String :=
  let (negative, cs) := splitSign cs
  specialText? negative cs <|> decimalText? negative cs

/-! ## Plain texts -/

/-- The value of a plain text: a truth value, an integer, a number or else the text itself. -/
def Value.ofPlainText (s : String) : Value :=
  let lower := Text.lower s
  if lower = "true" ∨ lower = "false" then .text lower
  else .text (((integer? s.toList).bind wordText? <|> floatText? s.toList).getD s)

/-! ## JSON -/

/-- The text of an integer; one that does not fit a word of 64 bits is rounded to a double. -/
def integerText (n : Int) : String := (wordText? n).getD (doubleText (n < 0) n.natAbs 0)

def Value.ofJson : Json → Value
  | .null => .nothing
  | .bool b => .text (if b then "true" else "false")
  | .num (.int n) => .text (integerText n)
  | .num (.double x) => .text (String.ofList x.plainText)
  | .str s => .text s
  | .arr _ => .array
  | .obj [] => .emptyTable
  | .obj (_ :: _) => .table

end GraphKeeper.Settings
