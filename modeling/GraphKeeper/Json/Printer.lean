/-
  The text of JSON values: compact, without any blank, and laid out over lines.

  Text is written as it is apart from the quote, the backslash and the control characters, which
  are escaped.  Doubles have the fewest digits that read back.  Both forms are lists of characters
  built by recursion on the value.
-/
import GraphKeeper.Json.Value
import GraphKeeper.Number.Shortest

namespace GraphKeeper.Json

/-- A digit of base 16, in lower case. -/
def hexDigit (n : Nat) : Char := Nat.digitChar n

/-- The form of one character inside a string. -/
def escapeChar (c : Char) : List Char :=
  if c = '"' then ['\\', '"']
  else if c = '\\' then ['\\', '\\']
  else if c.toNat < 0x20 then
    if c.toNat = 0x08 then ['\\', 'b']
    else if c.toNat = 0x09 then ['\\', 't']
    else if c.toNat = 0x0A then ['\\', 'n']
    else if c.toNat = 0x0C then ['\\', 'f']
    else if c.toNat = 0x0D then ['\\', 'r']
    else ['\\', 'u', '0', '0', hexDigit (c.toNat / 16), hexDigit (c.toNat % 16)]
  else [c]

/-- A string between quotes. -/
def stringChars (s : String) : List Char := '"' :: s.toList.flatMap escapeChar ++ ['"']

def intChars (n : Int) : List Char :=
  if n < 0 then '-' :: Nat.toDigits 10 n.natAbs else Nat.toDigits 10 n.natAbs

def numberChars : Number → List Char
  | .int n => intChars n
  | .double x => x.documentText

/-! ## Compact text -/

mutual

def chars : Json → List Char
  | .null => "null".toList
  | .bool true => "true".toList
  | .bool false => "false".toList
  | .num n => numberChars n
  | .str s => stringChars s
  | .arr [] => ['[', ']']
  | .arr (x :: xs) => '[' :: chars x ++ itemChars xs ++ [']']
  | .obj [] => ['\x7b', '\x7d']
  | .obj ((k, v) :: ms) =>
    '\x7b' :: stringChars k ++ ':' :: chars v ++ memberChars ms ++ ['\x7d']

/-- The items after the first, each with a comma in front. -/
def itemChars : List Json → List Char
  | [] => []
  | x :: xs => ',' :: chars x ++ itemChars xs

/-- The members after the first, each with a comma in front. -/
def memberChars : List (String × Json) → List Char
  | [] => []
  | (k, v) :: ms => ',' :: stringChars k ++ ':' :: chars v ++ memberChars ms

end

/-- The compact text of a value. -/
def render (v : Json) : String := String.ofList v.chars

/-! ## Text over lines -/

/-- A line break and the blanks in front of the next line. -/
def newLine (depth : Nat) : List Char := '\n' :: List.replicate (2 * depth) ' '

mutual

def prettyChars (depth : Nat) : Json → List Char
  | .arr (x :: xs) =>
    '[' :: newLine (depth + 1) ++ prettyChars (depth + 1) x ++ prettyItems (depth + 1) xs ++
      newLine depth ++ [']']
  | .obj ((k, v) :: ms) =>
    '\x7b' :: newLine (depth + 1) ++ stringChars k ++ ": ".toList ++ prettyChars (depth + 1) v ++
      prettyMembers (depth + 1) ms ++ newLine depth ++ ['\x7d']
  | v => chars v

def prettyItems (depth : Nat) : List Json → List Char
  | [] => []
  | x :: xs => ',' :: newLine depth ++ prettyChars depth x ++ prettyItems depth xs

def prettyMembers (depth : Nat) : List (String × Json) → List Char
  | [] => []
  | (k, v) :: ms =>
    ',' :: newLine depth ++ stringChars k ++ ": ".toList ++ prettyChars depth v ++
      prettyMembers depth ms

end

/-- The text of a value with one item or member a line, indented by two blanks a level. -/
def renderPretty (v : Json) : String := String.ofList (v.prettyChars 0)

end GraphKeeper.Json
