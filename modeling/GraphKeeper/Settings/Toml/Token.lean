/-
  The tokens of TOML: blanks, comments, keys, strings, truth values, numbers and date-times.

  A token is read for what it stands for.  Truth values, numbers and date-times stand for the texts
  they are shown by.
-/
import GraphKeeper.Settings.Toml.DateTime

namespace GraphKeeper.Settings.Toml

/-! ## Blanks and comments -/

/-- The rest behind a line break. -/
def afterBreak? : List Char → Option (List Char)
  | '\n' :: cs => some cs
  | '\r' :: '\n' :: cs => some cs
  | _ => none

/-- Whether a character may stand in a text as itself: control characters may not, tabs may. -/
def isPlain (c : Char) : Bool := c = '\t' || (0x20 ≤ c.toNat && c.toNat ≠ 0x7F)

/-- The rest behind a comment, if one is there. -/
def skipComment : List Char → List Char
  | '#' :: cs => cs.dropWhile isPlain
  | cs => cs

/-- The rest behind blanks, perhaps a comment, and the end of the line. -/
def endLine (cs : List Char) : Option (List Char) :=
  match skipComment (skipSpaces cs) with
  | [] => some []
  | rest => afterBreak? rest

/-- The rest behind blanks, line breaks and comments.  A comment must end in a line break. -/
def skipBlanks (fuel : Nat) (cs : List Char) : Option (List Char) :=
  match fuel with
  | 0 => none
  | fuel + 1 =>
    let cs := skipSpaces cs
    match afterBreak? cs with
    | some rest => skipBlanks fuel rest
    | none =>
      match cs with
      | '#' :: _ => (afterBreak? (skipComment cs)).bind (skipBlanks fuel)
      | cs => some cs

/-! ## Strings -/

/-- The character with a code that is written with `count` digits of base 16. -/
def codeEscape (count : Nat) : Reader Char := fun cs => do
  let digits ← (cs.take count).mapM Json.hexValue?
  let code := digits.foldl (fun n d => n * 16 + d) 0
  if digits.length = count ∧ code.isValidChar then some (Char.ofNat code, cs.drop count) else none

/-- What an escape stands for, from behind its backslash. -/
def readEscape : Reader Char
  | [] => none
  | c :: cs =>
    if c = '"' ∨ c = '\\' then some (c, cs)
    else if c = 'b' then some (Char.ofNat 0x08, cs)
    else if c = 't' then some ('\t', cs)
    else if c = 'n' then some ('\n', cs)
    else if c = 'f' then some (Char.ofNat 0x0C, cs)
    else if c = 'r' then some ('\r', cs)
    else if c = 'u' then codeEscape 4 cs
    else if c = 'U' then codeEscape 8 cs
    else none

/-- A string of one line from behind its opening quote. -/
def readBasic (fuel : Nat) : Reader (List Char) := fun cs =>
  match fuel, cs with
  | 0, _ | _, [] => none
  | fuel + 1, c :: cs =>
    if c = '"' then some ([], cs)
    else if c = '\\' then do
      let (e, cs) ← readEscape cs
      let (s, rest) ← readBasic fuel cs
      return (e :: s, rest)
    else if isPlain c then do
      let (s, rest) ← readBasic fuel cs
      return (c :: s, rest)
    else none

/-- A string of one line without escapes, from behind its opening quote. -/
def readLiteral : Reader (List Char) := fun cs =>
  match cs.dropWhile fun c => c != '\'' && isPlain c with
  | '\'' :: rest => some (cs.takeWhile fun c => c != '\'' && isPlain c, rest)
  | _ => none

/-- Blanks and line breaks behind a backslash at the end of a line. -/
def skipFolded (fuel : Nat) (cs : List Char) : List Char :=
  match fuel with
  | 0 => cs
  | fuel + 1 =>
    let cs := skipSpaces cs
    match afterBreak? cs with
    | some rest => skipFolded fuel rest
    | none => cs

/-- A string of many lines from behind its opening quotes.  Three quotes end it, with one or two
more in front that belong to it. -/
def readLong (escapes : Bool) (quote : Char) (fuel : Nat) : Reader (List Char) := fun cs =>
  match fuel, cs with
  | 0, _ | _, [] => none
  | fuel + 1, c :: cs =>
    let keep (s : List Char) (rest : List Char) : Option (List Char × List Char) := do
      let (t, rest) ← readLong escapes quote fuel rest
      return (s ++ t, rest)
    if c = quote then
      let count := 1 + (cs.takeWhile (· == quote)).length
      if count < 3 then keep (List.replicate count quote) (cs.drop (count - 1))
      else
        let own := min (count - 3) 2
        some (List.replicate own quote, cs.drop (own + 2))
    else if escapes ∧ c = '\\' then
      match afterBreak? (skipSpaces cs) with
      | some rest => keep [] (skipFolded rest.length rest)
      | none => do
        let (e, rest) ← readEscape cs
        keep [e] rest
    else
      match afterBreak? (c :: cs) with
      | some rest => keep ['\n'] rest
      | none => if isPlain c then keep [c] cs else none

/-- A string of many lines; a line break behind its opening quotes is not part of it. -/
def readLongBody (escapes : Bool) (quote : Char) : Reader (List Char) := fun cs =>
  readLong escapes quote (cs.length + 1) ((afterBreak? cs).getD cs)

/-- A string in any of its four forms. -/
def readString : Reader String := fun cs =>
  let found :=
    match cs with
    | '"' :: '"' :: '"' :: cs => readLongBody true '"' cs
    | '"' :: cs => readBasic (cs.length + 1) cs
    | '\'' :: '\'' :: '\'' :: cs => readLongBody false '\'' cs
    | '\'' :: cs => readLiteral cs
    | _ => none
  found.map fun (s, rest) => (String.ofList s, rest)

/-! ## Keys -/

def isBareChar (c : Char) : Bool := c.isAlphanum || c = '_' || c = '-'

/-- One part of a key: bare or a string of one line. -/
def readKeyPart : Reader String := fun cs =>
  match cs with
  | '"' :: cs => (readBasic (cs.length + 1) cs).map fun (s, rest) => (String.ofList s, rest)
  | '\'' :: cs => (readLiteral cs).map fun (s, rest) => (String.ofList s, rest)
  | cs =>
    let bare := cs.takeWhile isBareChar
    if bare.isEmpty then none else some (String.ofList bare, cs.dropWhile isBareChar)

/-- The parts of a key between points, with the blanks around them; at most `count` of them. -/
def readKey (count : Nat) : Reader (List String) := fun cs =>
  match count with
  | 0 => none
  | count + 1 => do
    let (part, rest) ← readKeyPart (skipSpaces cs)
    match skipSpaces rest with
    | '.' :: rest => do
      let (parts, rest) ← readKey count rest
      return (part :: parts, rest)
    | rest => return ([part], rest)

/-! ## Numbers -/

/-- Digits behind a digit, each perhaps with an underscore in front. -/
def moreDigits (p : Char → Bool) : List Char → List Char × List Char
  | [] => ([], [])
  | '_' :: c :: cs =>
    if p c then
      let (ds, rest) := moreDigits p cs
      (c :: ds, rest)
    else ([], '_' :: c :: cs)
  | c :: cs =>
    if p c then
      let (ds, rest) := moreDigits p cs
      (c :: ds, rest)
    else ([], c :: cs)

/-- Digits with single underscores between them. -/
def readDigits (p : Char → Bool) : Reader (List Char)
  | c :: cs =>
    if p c then
      let (ds, rest) := moreDigits p cs
      some (c :: ds, rest)
    else none
  | [] => none

/-- Decimal digits of which the first is zero only if it is the only one. -/
def readWhole : Reader (List Char)
  | '0' :: cs => some (['0'], cs)
  | cs => readDigits Char.isDigit cs

/-- The value of digits of a base. -/
def baseValue (base : Nat) (ds : List Char) : Nat :=
  ds.foldl (fun n d => n * base + (Json.hexValue? d).getD 0) 0

/-- Whether a character is a digit of a base. -/
def isDigitOf (base : Nat) (c : Char) : Bool := (Json.hexValue? c).any (· < base)

/-- An integer of base 2, 8 or 16 from behind its lead. -/
def readBased (base : Nat) : Reader String := fun cs => do
  let (ds, rest) ← readDigits (isDigitOf base) cs
  return (← wordText? (baseValue base ds), rest)

/-- An integer. -/
def readInteger : Reader String := fun cs =>
  match cs with
  | '0' :: 'x' :: cs => readBased 16 cs
  | '0' :: 'o' :: cs => readBased 8 cs
  | '0' :: 'b' :: cs => readBased 2 cs
  | cs => do
    let (negative, cs) := splitSign cs
    let (ds, rest) ← readWhole cs
    return (← wordText? (signed negative (Json.digitsValue ds)), rest)

/-- The digits behind a point, if one is there. -/
def readFraction : Reader (List Char)
  | '.' :: cs => readDigits Char.isDigit cs
  | cs => some ([], cs)

/-- An exponent, if one is there. -/
def readExponent : Reader Int := fun cs =>
  match cs with
  | c :: es =>
    if c = 'e' ∨ c = 'E' then do
      let (negative, es) := splitSign es
      let (ds, rest) ← readDigits Char.isDigit es
      return (signed negative (Json.digitsValue ds), rest)
    else some (0, cs)
  | [] => some (0, [])

/-- A number with a fraction or an exponent.  Positive ones that are too large are refused. -/
def readDecimal : Reader String := fun cs => do
  let (negative, cs) := splitSign cs
  let (whole, behind) ← readWhole cs
  let (fraction, rest) ← readFraction behind
  let (exponent, rest) ← readExponent rest
  if rest.length = behind.length then none
  else
    let s := doubleText negative (Json.digitsValue (whole ++ fraction)) (exponent - fraction.length)
    if s = infinityText false then none else some (s, rest)

/-- Infinity or what is not a number. -/
def readSpecial : Reader String := fun cs =>
  let (negative, cs) := splitSign cs
  match cs with
  | 'i' :: 'n' :: 'f' :: rest => some (infinityText negative, rest)
  | 'n' :: 'a' :: 'n' :: rest => some ("NaN", rest)
  | _ => none

/-! ## Scalars -/

/-- A truth value. -/
def readTruth : Reader String
  | 't' :: 'r' :: 'u' :: 'e' :: rest => some ("true", rest)
  | 'f' :: 'a' :: 'l' :: 's' :: 'e' :: rest => some ("false", rest)
  | _ => none

/-- A value that is no string, no array and no table. -/
def readPlain : Reader String := fun cs =>
  readTruth cs <|> readSpecial cs <|> (readDateTime cs).map (fun (t, rest) => (t.text, rest)) <|>
    readDecimal cs <|> readInteger cs

end GraphKeeper.Settings.Toml
