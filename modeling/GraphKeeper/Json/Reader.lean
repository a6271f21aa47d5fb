/-
  From text to outlines.

  The leaves come first: blanks, words, strings and numbers.  A leaf answers with what it stands for
  and the rest of the text, or with the break at which the text stops being JSON. Arrays and
  objects follow; they are read with fuel, and a text has enough fuel when there is as much of it
  as there are characters.

  Doubles: the digits that fit a 64-bit word are scaled by a power of ten in double precision, a
  power beyond `10 ^ 308` in more than one step, and digits after those are dropped.
-/
import GraphKeeper.Json.Outline

namespace GraphKeeper.Json

/-! ## Blanks and words -/

def isSpace (c : Char) : Bool := c = ' ' || c = '\n' || c = '\t' || c = '\r'

def skipSpaces (cs : List Char) : List Char := cs.dropWhile isSpace

/-- Reads the given characters. -/
def readWord : List Char → List Char → Except Break (List Char)
  | [], cs => .ok cs
  | _ :: _, [] => .error (.both .endInValue)
  | w :: ws, c :: cs => if c = w then readWord ws cs else .error (.both .badWord)

/-! ## Strings -/

/-- The value of a digit of base 16. -/
def hexValue? (c : Char) : Option Nat :=
  if '0' ≤ c ∧ c ≤ '9' then some (c.toNat - '0'.toNat)
  else if 'a' ≤ c ∧ c ≤ 'f' then some (c.toNat - 'a'.toNat + 10)
  else if 'A' ≤ c ∧ c ≤ 'F' then some (c.toNat - 'A'.toNat + 10)
  else none

/-- The value of four digits of base 16. -/
def hexValue4? (a b c d : Char) : Option Nat := do
  return ((← hexValue? a) * 16 + (← hexValue? b)) * 256 + ((← hexValue? c) * 16 + (← hexValue? d))

/-- The flaw of an escape with fewer than four characters after it: the text ends in it if fewer
than four bytes are left. -/
def shortCodeFlaw (cs : List Char) : Flaw :=
  if (String.ofList cs).utf8ByteSize < 4 then .endInString else .badEscape

/-- The character of an escape of two characters. -/
def simpleEscape? (c : Char) : Option Char :=
  if c = '"' ∨ c = '\\' ∨ c = '/' then some c
  else if c = 'b' then some (Char.ofNat 0x08)
  else if c = 'f' then some (Char.ofNat 0x0C)
  else if c = 'n' then some '\n'
  else if c = 'r' then some '\r'
  else if c = 't' then some '\t'
  else none

def isLeadSurrogate (n : Nat) : Bool := 0xD800 ≤ n && n ≤ 0xDBFF

def isTrailSurrogate (n : Nat) : Bool := 0xDC00 ≤ n && n ≤ 0xDFFF

/-- The character of a pair of surrogates. -/
def joinSurrogates (lead trail : Nat) : Char :=
  Char.ofNat (0x10000 + (lead - 0xD800) * 0x400 + (trail - 0xDC00))

/-- What is between the quotes of a string. -/
structure StringBody where
  /-- The characters, each of which may stand for nothing. -/
  pieces : List (Except Flaw Char)
  /-- The text after the closing quote. -/
  rest : Except Flaw (List Char)

def StringBody.push (piece : Except Flaw Char) (body : StringBody) : StringBody :=
  ⟨piece :: body.pieces, body.rest⟩

/-- The flaw of a lead surrogate that no trail surrogate follows. -/
def afterLeadFlaw : List Char → Flaw
  | '\\' :: 'u' :: _ => .loneSurrogate
  | [] | ['\\'] => .endInString
  | _ => .unfinishedPair

/-- Reads a string from behind its opening quote on. -/
def readStringBody : List Char → StringBody
  | [] => ⟨[], .error .endInString⟩
  | c :: cs =>
    if c = '"' then ⟨[], .ok cs⟩
    else if c = '\\' then
      match cs with
      | [] => ⟨[], .error .endInString⟩
      | e :: es =>
        if e = 'u' then
          match es with
          | h1 :: h2 :: h3 :: h4 :: rest =>
            match hexValue4? h1 h2 h3 h4 with
            | none => ⟨[], .error .badEscape⟩
            | some n =>
              if isTrailSurrogate n then (readStringBody rest).push (.error .loneSurrogate)
              else if isLeadSurrogate n then
                match rest with
                | '\\' :: 'u' :: g1 :: g2 :: g3 :: g4 :: rest' =>
                  match hexValue4? g1 g2 g3 g4 with
                  | none => ⟨[], .error .badEscape⟩
                  | some m =>
                    if isTrailSurrogate m then
                      (readStringBody rest').push (.ok (joinSurrogates n m))
                    else
                      ((readStringBody rest').push (.error .loneSurrogate)).push
                        (.error .loneSurrogate)
                | '\\' :: 'u' :: short => ⟨[], .error (shortCodeFlaw short)⟩
                | rest => (readStringBody rest).push (.error (afterLeadFlaw rest))
              else (readStringBody rest).push (.ok (Char.ofNat n))
          | short => ⟨[], .error (shortCodeFlaw short)⟩
        else
          match simpleEscape? e with
          | some d => (readStringBody es).push (.ok d)
          | none => ⟨[], .error .badEscape⟩
    else if c.toNat < 0x20 then ⟨[], .error .controlCharacter⟩
    else (readStringBody cs).push (.ok c)

/-- The text of the pieces, if each of them stands for a character. -/
def joinPieces : List (Except Flaw Char) → Except Flaw (List Char)
  | [] => .ok []
  | p :: ps => do
    let c ← p
    return c :: (← joinPieces ps)

/-- Reads a string from behind its opening quote on: its text and the rest. -/
def readString (cs : List Char) : Except Break (Except Flaw String × List Char) :=
  let body := readStringBody cs
  match body.rest with
  | .ok rest => .ok ((joinPieces body.pieces).map String.ofList, rest)
  | .error flaw =>
    match joinPieces body.pieces with
    | .ok _ => .error (.both flaw)
    | .error first => .error ⟨first, flaw⟩

/-! ## Numbers -/

/-- The greatest 64-bit word. -/
def wordMax : Nat := Nat.pow 2 64 - 1

/-- Takes digits into `n` as long as it stays a 64-bit word: the number and how many were taken. -/
def takeDigits (n taken : Nat) : List Char → Nat × Nat
  | [] => (n, taken)
  | d :: ds =>
    let m := n * 10 + (d.toNat - '0'.toNat)
    if m ≤ wordMax then takeDigits m (taken + 1) ds else (n, taken)

/-- `x * 10 ^ scale`, with at most `fuel` steps of `10 ^ -308` before the last one. -/
def scaleByTen? (fuel : Nat) (x : Magnitude) (scale : Int) : Option Magnitude :=
  if scale.natAbs ≤ 308 then do
    let power ← Magnitude.tenPow? scale.natAbs
    if 0 ≤ scale then x.mul? power else x.div? power
  else if x.mantissa = 0 then some x
  else if 0 ≤ scale then none
  else
    match fuel with
    | 0 => some Magnitude.zero
    | fuel + 1 => do
      let x ← x.div? (← Magnitude.tenPow? 308)
      scaleByTen? fuel x (scale + 308)

/-- The parts of a number token. -/
structure Numeral where
  negative : Bool
  whole : List Char
  /-- The digits behind the point. -/
  fraction : Option (List Char)
  exponent : Option Int

/-- The double a numeral stands for. -/
def Numeral.toDouble? (x : Numeral) : Option Double := do
  let (n, taken) := takeDigits 0 0 x.whole
  let (n, behind) := takeDigits n 0 (x.fraction.getD [])
  let scale : Int := (x.whole.length - taken : Nat) - (behind : Int) + x.exponent.getD 0
  return ⟨x.negative, ← scaleByTen? 4 (← Magnitude.ofNat? n) scale⟩

/-- The value of a numeral: an integer if it is written as one, fits a 64-bit word and is not a
negative zero, else a double. -/
def Numeral.value (x : Numeral) : Except Flaw Number :=
  let asDouble : Except Flaw Number :=
    match x.toDouble? with
    | some d => .ok (.double d)
    | none => .error .numberTooLarge
  if x.fraction.isNone ∧ x.exponent.isNone then
    let (n, taken) := takeDigits 0 0 x.whole
    if taken < x.whole.length then asDouble
    else if ¬ x.negative then .ok (.int n)
    else if 0 < n ∧ n ≤ Nat.pow 2 63 then .ok (.int (-n))
    else asDouble
  else asDouble

/-- The number written by decimal digits. -/
def digitsValue (ds : List Char) : Nat := ds.foldl (fun n d => n * 10 + (d.toNat - '0'.toNat)) 0

/-- A text that ends where a digit should be: reading sees the end, skipping a wrong number. -/
def noDigit (rest : List Char) : Break :=
  if rest.isEmpty then ⟨.endInValue, .badNumber⟩ else .both .badNumber

/-- Reads an exponent, if one is there. -/
def readExponent (cs : List Char) : Except Break (Option Int × List Char) :=
  match cs with
  | c :: es =>
    if c = 'e' ∨ c = 'E' then
      let (negative, ds) :=
        match es with
        | '+' :: ds => (false, ds)
        | '-' :: ds => (true, ds)
        | ds => (false, ds)
      let digits := ds.takeWhile Char.isDigit
      let rest := ds.dropWhile Char.isDigit
      if digits.isEmpty then .error (noDigit rest)
      else
        let n : Int := digitsValue digits
        .ok (some (if negative then -n else n), rest)
    else .ok (none, cs)
  | [] => .ok (none, [])

/-- Reads the digits behind a point, if one is there. -/
def readFraction (cs : List Char) : Except Break (Option (List Char) × List Char) :=
  match cs with
  | '.' :: fs =>
    let digits := fs.takeWhile Char.isDigit
    let rest := fs.dropWhile Char.isDigit
    if digits.isEmpty then .error (noDigit rest) else .ok (some digits, rest)
  | cs => .ok (none, cs)

/-- Reads the digits in front of the point; a zero in front of other digits is none of them. -/
def readWhole (cs : List Char) : Except Break (List Char × List Char) :=
  let digits := cs.takeWhile Char.isDigit
  let rest := cs.dropWhile Char.isDigit
  match digits with
  | [] => .error (noDigit rest)
  | '0' :: _ :: _ => .error (.both .badNumber)
  | _ => .ok (digits, rest)

/-- Reads a number from behind its sign on. -/
def readNumeral (negative : Bool) (cs : List Char) : Except Break (Numeral × List Char) := do
  let (whole, cs) ← readWhole cs
  let (fraction, cs) ← readFraction cs
  let (exponent, cs) ← readExponent cs
  return (⟨negative, whole, fraction, exponent⟩, cs)

/-! ## Values -/

/-- The number of arrays and objects that may be open at once. -/
def depthLimit : Nat := 127

/-- The outline of a leaf. -/
def leaf {α : Type} (found : Except Break (α × List Char)) (f : α → Outline) :
    Outline × List Char :=
  match found with
  | .ok (a, rest) => (f a, rest)
  | .error why => (.broken why, [])

def numberOutline (x : Numeral) : Outline :=
  match x.value with
  | .ok n => .num n
  | .error flaw => .unusable flaw

def stringOutline (s : Except Flaw String) : Outline :=
  match s with
  | .ok s => .str s
  | .error flaw => .unusable flaw

/-- Reads a word after its first character. -/
def wordOutline (word : String) (cs : List Char) (o : Outline) : Outline × List Char :=
  leaf ((readWord word.toList cs).map ((), ·)) fun _ => o

mutual

/-- Reads a value inside `depth` arrays and objects: its outline and the rest of the text. -/
def readValue (fuel depth : Nat) (cs : List Char) : Outline × List Char :=
  match fuel with
  | 0 => (.broken (.both .endInValue), [])
  | fuel + 1 =>
    match skipSpaces cs with
    | [] => (.broken (.both .endInValue), [])
    | c :: cs =>
      if c = '"' then leaf (readString cs) stringOutline
      else if c = '[' then
        let (items, rest) := readItems fuel (depth + 1) true cs
        (.arr (depthLimit ≤ depth) items, rest)
      else if c = '\x7b' then
        let (entries, rest) := readEntries fuel (depth + 1) true cs
        (.obj (depthLimit ≤ depth) entries, rest)
      else if c = 'n' then wordOutline "ull" cs .null
      else if c = 't' then wordOutline "rue" cs (.bool true)
      else if c = 'f' then wordOutline "alse" cs (.bool false)
      else if c = '-' then leaf (readNumeral true cs) numberOutline
      else if c.isDigit then leaf (readNumeral false (c :: cs)) numberOutline
      else (.broken (.both .noValue), [])

/-- Reads the items of an array, from the first one on or from behind an item on. -/
def readItems (fuel depth : Nat) (first : Bool) (cs : List Char) : Items × List Char :=
  match fuel with
  | 0 => (.broken (.both .endInArray), [])
  | fuel + 1 =>
    match skipSpaces cs with
    | [] => (.broken (.both .endInArray), [])
    | c :: cs =>
      if c = ']' then (.done, cs)
      else if first then
        let (head, rest) := readValue fuel depth (c :: cs)
        let (tail, rest) := readItems fuel depth false rest
        (.item head tail, rest)
      else if c = ',' then
        match skipSpaces cs with
        | [] => (.broken (.both .endInValue), [])
        | d :: ds =>
          if d = ']' then (.broken ⟨.trailingComma, .noValue⟩, [])
          else
            let (head, rest) := readValue fuel depth (d :: ds)
            let (tail, rest) := readItems fuel depth false rest
            (.item head tail, rest)
      else (.broken (.both .noCommaInArray), [])

/-- Reads the members of an object, from the first one on or from behind a member on. -/
def readEntries (fuel depth : Nat) (first : Bool) (cs : List Char) : Entries × List Char :=
  match fuel with
  | 0 => (.broken (.both .endInObject), [])
  | fuel + 1 =>
    match skipSpaces cs with
    | [] => (.broken (.both .endInObject), [])
    | c :: cs =>
      if c = '\x7d' then (.done, cs)
      else if first then readEntry fuel depth c cs
      else if c = ',' then
        match skipSpaces cs with
        | [] => (.broken ⟨.endInValue, .endInObject⟩, [])
        | d :: ds =>
          if d = '\x7d' then (.broken ⟨.trailingComma, .keyNotString⟩, [])
          else readEntry fuel depth d ds
      else (.broken (.both .noCommaInObject), [])

/-- Reads a member whose first character is `c`, and those after it. -/
def readEntry (fuel depth : Nat) (c : Char) (cs : List Char) : Entries × List Char :=
  match fuel with
  | 0 => (.broken (.both .endInObject), [])
  | fuel + 1 =>
    if c = '"' then
      match readString cs with
      | .error why => (.broken why, [])
      | .ok (key, rest) =>
        match skipSpaces rest with
        | [] => (.entry key (.broken (.both .endInObject)) .done, [])
        | d :: ds =>
          if d = ':' then
            let (value, rest) := readValue fuel depth ds
            let (tail, rest) := readEntries fuel depth false rest
            (.entry key value tail, rest)
          else (.entry key (.broken (.both .noColon)) .done, [])
    else (.broken (.both .keyNotString), [])

end

/-- Enough fuel to read a text of this length: every third step takes a character. -/
def fuelFor (cs : List Char) : Nat := 3 * cs.length + 3

/-- The outline of a whole text and what stands behind the value. -/
def readOutline (s : String) : Outline × List Char :=
  let (o, rest) := readValue (fuelFor s.toList) 0 s.toList
  (o, skipSpaces rest)

/-- The value of a text. -/
def parse (s : String) : Except Flaw Json := do
  let (o, rest) := readOutline s
  let v ← o.toJson
  if rest.isEmpty then return v else throw .trailingText

end GraphKeeper.Json
