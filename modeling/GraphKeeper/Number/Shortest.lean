/-
  The shortest decimal that reads back as a given magnitude.

  The decimals that read back as a magnitude fill an interval around it, half of the gap to the
  neighbour on each side, with the ends included when the mantissa is even.  On the grid of the
  decimals with a given last place, only the two neighbours of the magnitude can be the nearest
  ones in that interval.  The first grid with a hit, coming from the coarsest, gives the digits; of
  two hits the nearer counts, and at a tie the even one.

  All comparisons are between natural numbers, in quarters of a unit so that the ends of the
  interval are whole.
-/
import GraphKeeper.Number.Double

namespace GraphKeeper

/-- The number `digits * 10 ^ scale`. -/
structure Decimal where
  digits : Nat
  scale : Int
deriving DecidableEq, Repr

namespace Decimal

/-- The same number with its trailing zeros moved into the scale; at most `fuel` of them. -/
def strip (fuel : Nat) (x : Decimal) : Decimal :=
  match fuel with
  | 0 => x
  | fuel + 1 =>
    if x.digits % 10 = 0 ∧ x.digits ≠ 0 then strip fuel ⟨x.digits / 10, x.scale + 1⟩ else x

/-- The digits as characters. -/
def digitChars (x : Decimal) : List Char := Nat.toDigits 10 x.digits

/-- The place of the first digit: `1` for ten and up to one hundred, `-1` for a tenth. -/
def order (x : Decimal) : Int := x.digitChars.length - 1 + x.scale

end Decimal

namespace Magnitude

/-- The interval of decimals that read back as `x`, in quarters of a unit. -/
structure Interval where
  low : Nat
  high : Nat
  closed : Bool

/-- Below a power of two the gap is half as wide, the least exponent apart. -/
def interval (x : Magnitude) : Interval :=
  let gap := Nat.pow 2 x.exponent
  let below := if x.mantissa = Nat.pow 2 52 ∧ x.exponent ≠ 0 then gap else 2 * gap
  ⟨4 * x.units - below, 4 * x.units + 2 * gap, x.mantissa % 2 = 0⟩

/-- Whether `num / den` lies in the interval. -/
def Interval.holds (i : Interval) (num den : Nat) : Bool :=
  if i.closed then i.low * den ≤ num && num ≤ i.high * den
  else i.low * den < num && num < i.high * den

/-- The number of digits of `n`, none for zero. -/
def digitCount (n : Nat) : Nat := if n = 0 then 0 else (Nat.toDigits 10 n).length

/-- The place of the first digit of `x`. -/
def order (x : Magnitude) : Int :=
  if x.units ≥ unitsPerOne then (digitCount (x.units / unitsPerOne) : Int) - 1
  else -(digitCount ((unitsPerOne + x.units - 1) / x.units - 1) : Int)

/-- `10 ^ scale` as a fraction. -/
def tenFraction (scale : Int) : Nat × Nat :=
  if 0 ≤ scale then (Nat.pow 10 scale.toNat, 1) else (1, Nat.pow 10 (-scale).toNat)

/-- The decimal with last place `10 ^ scale` that reads back as `x` and is nearest to it. -/
def onGrid? (x : Magnitude) (scale : Int) : Option Decimal :=
  let (up, down) := tenFraction scale
  -- the value is `value / down` and a step of the grid is `step / down`, in quarters of a unit
  let value := 4 * x.units * down
  let step := 4 * unitsPerOne * up
  let floor := value / step
  let hit (n : Nat) : Bool := x.interval.holds (n * step) down
  let rest := value % step
  match hit floor, hit (floor + 1) with
  | true, true =>
    if 2 * rest < step then some ⟨floor, scale⟩
    else if step < 2 * rest then some ⟨floor + 1, scale⟩
    else if floor % 2 = 0 then some ⟨floor, scale⟩ else some ⟨floor + 1, scale⟩
  | true, false => some ⟨floor, scale⟩
  | false, true => some ⟨floor + 1, scale⟩
  | false, false => none

/-- Tries the grids of `count` last places from `scale` down. -/
def firstOnGrids (x : Magnitude) (scale : Int) : Nat → Option Decimal
  | 0 => none
  | count + 1 =>
    match onGrid? x scale with
    | some d => some d
    | none => firstOnGrids x (scale - 1) count

/-- The shortest decimal that reads back as `x`.  Seventeen digits are always enough. -/
def shortest (x : Magnitude) : Decimal :=
  if x.mantissa = 0 then ⟨0, 0⟩
  else (((firstOnGrids x x.order 17).getD ⟨0, 0⟩).strip 20)

end Magnitude

namespace Decimal

/-- Positional digits with a point where the scale puts it; no point for a whole number. -/
def positional (x : Decimal) : List Char :=
  let ds := x.digitChars
  if 0 ≤ x.scale then ds ++ List.replicate x.scale.toNat '0'
  else
    let places := (-x.scale).toNat
    if places < ds.length then
      ds.take (ds.length - places) ++ '.' :: ds.drop (ds.length - places)
    else '0' :: '.' :: List.replicate (places - ds.length) '0' ++ ds

/-- One digit, the others behind a point, and the place of the first digit as an exponent with a
sign. -/
def scientific (x : Decimal) : List Char :=
  let exponent := (if 0 ≤ x.order then "e+" else "e-").toList ++ Nat.toDigits 10 x.order.natAbs
  match x.digitChars with
  | [] => exponent
  | d :: [] => d :: exponent
  | d :: ds => d :: '.' :: ds ++ exponent

end Decimal

namespace Double

def signChars (x : Double) : List Char := if x.negative then ['-'] else []

/-- The text of a number in a document: positional from the fifth place behind the point up to
sixteen digits in front of it, always with a fraction, and scientific outside. -/
def documentText (x : Double) : List Char :=
  let d := x.magnitude.shortest
  let body :=
    if -5 ≤ d.order ∧ d.order ≤ 15 then
      if 0 ≤ d.scale then d.positional ++ ['.', '0'] else d.positional
    else d.scientific
  x.signChars ++ body

/-- The text of a number in running prose: always positional, with a fraction only if it has
one. -/
def plainText (x : Double) : List Char := x.signChars ++ x.magnitude.shortest.positional

end Double

end GraphKeeper
