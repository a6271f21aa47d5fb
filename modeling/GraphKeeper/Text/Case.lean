/-
  Lower case and upper case of text by the full maps of the Unicode standard.

  A character may expand into several (`ß` into `SS`).  The lower-case map has one rule that looks
  at the surroundings: a capital sigma at the end of a word becomes `ς`, anywhere else `σ`.  It is
  at the end of a word when, characters apart that case ignores, a cased character stands before
  it and none stands after it.
-/
import GraphKeeper.Text.CaseTable

namespace GraphKeeper.Text

/-- Whether one of the ranges holds the number. -/
def inRanges (ranges : List (Nat × Nat)) (n : Nat) : Bool :=
  ranges.any fun r => r.1 ≤ n && n ≤ r.2

/-- Whether the run moves the character with this code. -/
def CaseRun.covers (run : CaseRun) (n : Nat) : Bool :=
  run.first ≤ n && n ≤ run.last && (n - run.first) % run.step == 0

/-- The character that a list of runs moves `c` to. -/
def shiftBy (runs : List CaseRun) (c : Char) : Char :=
  match runs.find? (·.covers c.toNat) with
  | some run => Char.ofNat (Int.toNat (c.toNat + run.shift))
  | none => c

/-- The case form of a character: its expansion if it has one, else its simple form. -/
def expandBy (expansions : List (Nat × List Nat)) (runs : List CaseRun) (c : Char) : List Char :=
  match expansions.find? (·.1 == c.toNat) with
  | some e => e.2.map Char.ofNat
  | none => [shiftBy runs c]

/-- The lower-case form of a character taken by itself. -/
def lowerChar (c : Char) : List Char :=
  if c.toNat < 0x80 then [c.toLower] else expandBy lowerExpansions lowerRuns c

/-- The upper-case form of a character. -/
def upperChar (c : Char) : List Char :=
  if c.toNat < 0x80 then [c.toUpper] else expandBy upperExpansions upperRuns c

def isCased (c : Char) : Bool := inRanges casedRanges c.toNat

def isCaseIgnorable (c : Char) : Bool := inRanges caseIgnorableRanges c.toNat

/-- Whether the first character that case does not ignore is a cased one. -/
def meetsCased (cs : List Char) : Bool :=
  match cs.dropWhile isCaseIgnorable with
  | c :: _ => isCased c
  | [] => false

/-- The capital sigma. -/
def capitalSigma : Char := Char.ofNat 0x3A3

/-- The lower-case form of a capital sigma with the characters before it, nearest first, and the
characters after it. -/
def lowerSigma (before after : List Char) : Char :=
  if meetsCased before && !meetsCased after then Char.ofNat 0x3C2 else Char.ofNat 0x3C3

/-- Lower case of `cs`, where `before` holds the characters in front, nearest first. -/
def lowerFrom (before : List Char) : List Char → List Char
  | [] => []
  | c :: cs =>
    (if c = capitalSigma then [lowerSigma before cs] else lowerChar c) ++ lowerFrom (c :: before) cs

/-- The text in lower case. -/
def lower (s : String) : String := String.ofList (lowerFrom [] s.toList)

/-- The text with its first character in upper case. -/
def capitalize (s : String) : String :=
  match s.toList with
  | [] => ""
  | c :: cs => String.ofList (upperChar c ++ cs)

end GraphKeeper.Text
