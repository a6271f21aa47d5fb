/-
  Quoting of text inside a message.

  The text stands between double quotes.  Line breaks, tabs, NUL, the quote and the backslash have
  escapes of two characters; a character without a visible form of its own is written by its code
  in hexadecimal.
-/
import GraphKeeper.Text.Case
import GraphKeeper.Text.QuoteTable

namespace GraphKeeper.Text

/-- The digits of a number in base 16, in lower case, without leading zeros. -/
def hexDigits (n : Nat) : List Char := Nat.toDigits 16 n

/-- Whether a character is quoted by its code. -/
def needsCode (c : Char) : Bool :=
  inRanges extendingRanges c.toNat || inRanges invisibleRanges c.toNat ||
    inRanges fillerRanges c.toNat

/-- The form of one character inside quotes. -/
def quoteChar (c : Char) : List Char :=
  if c = '"' then ['\\', '"']
  else if c = '\\' then ['\\', '\\']
  else if c = '\n' then ['\\', 'n']
  else if c = '\r' then ['\\', 'r']
  else if c = '\t' then ['\\', 't']
  else if c.toNat = 0 then ['\\', '0']
  else if needsCode c then "\\u\x7b".toList ++ hexDigits c.toNat ++ ['\x7d']
  else [c]

/-- The text between double quotes, with escapes. -/
def quote (s : String) : String :=
  String.ofList ('"' :: s.toList.flatMap quoteChar ++ ['"'])

end GraphKeeper.Text
