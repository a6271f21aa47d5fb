/-
  Dates and times.

  A date-time is a date, a time of day, or both together, and then perhaps with the distance from
  universal time.  It has one text, whatever it was written as: a capital `T` joins date and time,
  a fraction of a second has no zeros at its end, and no distance is negative zero.

  In a document the fields keep to the clock.  A text that stands for a date-time may also name the
  hour 24 and count the minutes of a distance beyond 59, as long as the distance is at most a day.
-/
import GraphKeeper.Settings.Toml.Reader
import GraphKeeper.Text.Blank

namespace GraphKeeper.Settings.Toml

structure Date where
  year : Nat
  month : Nat
  day : Nat
deriving DecidableEq, Repr

/-- A time of day.  The fraction of the second is given by its digits. -/
structure Time where
  hour : Nat
  minute : Nat
  second : Nat
  fraction : List Char
deriving DecidableEq, Repr

/-- How far a local time is from universal time. -/
inductive Offset where
  | universal
  | minutes (ahead : Int)
deriving DecidableEq, Repr

inductive DateTime where
  | date (d : Date)
  | time (t : Time)
  | moment (d : Date) (t : Time) (offset : Option Offset)
deriving DecidableEq, Repr

/-! ## Texts -/

/-- The digits of a number with zeros in front up to a width. -/
def padded (width n : Nat) : String :=
  let ds := Nat.toDigits 10 n
  String.ofList (List.replicate (width - ds.length) '0' ++ ds)

def Date.text (d : Date) : String :=
  padded 4 d.year ++ "-" ++ padded 2 d.month ++ "-" ++ padded 2 d.day

def Time.text (t : Time) : String :=
  padded 2 t.hour ++ ":" ++ padded 2 t.minute ++ ":" ++ padded 2 t.second ++
    if t.fraction.isEmpty then "" else String.ofList ('.' :: t.fraction)

def Offset.text : Offset → String
  | .universal => "Z"
  | .minutes ahead =>
    (if ahead < 0 then "-" else "+") ++
      padded 2 (ahead.natAbs / 60) ++ ":" ++ padded 2 (ahead.natAbs % 60)

def DateTime.text : DateTime → String
  | .date d => d.text
  | .time t => t.text
  | .moment d t offset => d.text ++ "T" ++ t.text ++ (offset.map Offset.text).getD ""

/-! ## Reading -/

/-- How far the fields of a time may go. -/
structure Bounds where
  hour : Nat
  offsetHour : Nat
  offsetMinute : Nat

/-- The bounds in a document. -/
def Bounds.clock : Bounds := ⟨23, 23, 59⟩

/-- The bounds in a text that stands for a date-time. -/
def Bounds.wide : Bounds := ⟨24, 99, 99⟩

def isLeap (year : Nat) : Bool := year % 4 = 0 && (year % 100 ≠ 0 || year % 400 = 0)

def daysIn (year month : Nat) : Nat :=
  if month = 2 then (if isLeap year then 29 else 28)
  else if month ∈ [4, 6, 9, 11] then 30
  else 31

def readDate : Reader Date := fun cs => do
  let (year, cs) ← readField 4 0 9999 cs
  let (month, cs) ← readField 2 1 12 (← after? '-' cs)
  let (day, cs) ← readField 2 1 (daysIn year month) (← after? '-' cs)
  return (⟨year, month, day⟩, cs)

/-- The fraction of a second, if one is there: at most nine digits count, and zeros at the end do
not. -/
def readSecondFraction : Reader (List Char)
  | '.' :: cs =>
    let ds := cs.takeWhile Char.isDigit
    if ds.isEmpty then none
    else some (Text.dropTrailing (· == '0') (ds.take 9), cs.dropWhile Char.isDigit)
  | cs => some ([], cs)

def readTime (bounds : Bounds) : Reader Time := fun cs => do
  let (hour, cs) ← readField 2 0 bounds.hour cs
  let (minute, cs) ← readField 2 0 59 (← after? ':' cs)
  let (second, cs) ← readField 2 0 60 (← after? ':' cs)
  let (fraction, cs) ← readSecondFraction cs
  return (⟨hour, minute, second, fraction⟩, cs)

/-- The greatest distance from universal time in minutes. -/
def offsetLimit : Nat := 24 * 60

/-- The distance from universal time, if one is there. -/
def readOffset (bounds : Bounds) : Reader (Option Offset) := fun cs =>
  match cs with
  | c :: rest =>
    if c = 'Z' ∨ c = 'z' then some (some .universal, rest)
    else if c = '+' ∨ c = '-' then do
      let (hour, rest) ← readField 2 0 bounds.offsetHour rest
      let (minute, rest) ← readField 2 0 bounds.offsetMinute (← after? ':' rest)
      let distance := hour * 60 + minute
      if offsetLimit < distance then none
      else return (some (.minutes (signed (c = '-') distance)), rest)
    else some (none, cs)
  | [] => some (none, [])

/-- Whether a character joins a date and a time. -/
def isJoint (c : Char) : Bool := c = 'T' || c = 't' || c = ' '

/-- A time behind a date, if one is there. -/
def readTimeOfDate (d : Date) : Reader DateTime := fun cs =>
  match cs with
  | c :: rest =>
    if isJoint c then
      match readTime .clock rest with
      | some (t, rest) => do
        let (offset, rest) ← readOffset .clock rest
        return (.moment d t offset, rest)
      | none => some (.date d, cs)
    else some (.date d, cs)
  | [] => some (.date d, [])

/-- A date, a time, or both, at the front of a text. -/
def readDateTime : Reader DateTime := fun cs =>
  match readDate cs with
  | some (d, rest) => readTimeOfDate d rest
  | none => (readTime .clock cs).map fun (t, rest) => (.time t, rest)

/-- What a reader reads, if nothing is left behind it. -/
def whole? {α : Type} (read : Reader α) (cs : List Char) : Option α :=
  match read cs with
  | some (a, []) => some a
  | _ => none

/-- A time and perhaps a distance, which are all that stands behind a date. -/
def readMoment (d : Date) : Reader DateTime := fun cs => do
  let (t, cs) ← readTime .wide cs
  let (offset, cs) ← readOffset .wide cs
  return (.moment d t offset, cs)

/-- The date-time that a whole text stands for. -/
def DateTime.ofText? (s : String) : Option DateTime :=
  match s.toList with
  | a :: b :: ':' :: cs => (whole? (readTime .wide) (a :: b :: ':' :: cs)).map .time
  | cs => do
    let (d, rest) ← readDate cs
    match rest with
    | [] => return .date d
    | c :: rest => if isJoint c then whole? (readMoment d) rest else none

end GraphKeeper.Settings.Toml
