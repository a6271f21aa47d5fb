/-
  The ways in which a text fails to be JSON.
-/

namespace GraphKeeper.Json

/-- The reason why a text is not JSON at the place where reading stops. -/
inductive Flaw where
  | endInValue
  | endInString
  | endInArray
  | endInObject
  | noValue
  | badWord
  | noCommaInArray
  | noCommaInObject
  | noColon
  | keyNotString
  | trailingComma
  | trailingText
  | badNumber
  | numberTooLarge
  | badEscape
  | unfinishedPair
  | loneSurrogate
  | controlCharacter
  | tooDeep
deriving DecidableEq, Repr

/-- The flaw in words.  A parser of texts goes on with the place where it stopped, as in
` at line 1 column 8`; a flaw does not know its place, and that part is left out. -/
def Flaw.message : Flaw → String
  | .endInValue => "EOF while parsing a value"
  | .endInString => "EOF while parsing a string"
  | .endInArray => "EOF while parsing a list"
  | .endInObject => "EOF while parsing an object"
  | .noValue => "expected value"
  | .badWord => "expected ident"
  | .noCommaInArray => "expected `,` or `]`"
  | .noCommaInObject => "expected `,` or `\x7d`"
  | .noColon => "expected `:`"
  | .keyNotString => "key must be a string"
  | .trailingComma => "trailing comma"
  | .trailingText => "trailing characters"
  | .badNumber => "invalid number"
  | .numberTooLarge => "number out of range"
  | .badEscape => "invalid escape"
  | .unfinishedPair => "unexpected end of hex escape"
  | .loneSurrogate => "lone leading surrogate in hex escape"
  | .controlCharacter => "control character (\\u0000-\\u001F) found while parsing a string"
  | .tooDeep => "recursion limit exceeded"

end GraphKeeper.Json
