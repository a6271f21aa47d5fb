/-
  Finite double-precision numbers and the few exact operations on them that text needs.

  A magnitude is `mantissa * 2 ^ exponent` in units of `2 ^ -1074`, the least positive one.  Every
  operation computes a fraction of such units exactly in natural numbers and rounds once, to the
  nearest magnitude and at a tie to the one with even mantissa.  A result too large for the format
  is `none`.
-/

namespace GraphKeeper

/-- A finite magnitude: `mantissa * 2 ^ exponent` units of `2 ^ -1074`. -/
structure Magnitude where
  mantissa : Nat
  exponent : Nat
deriving DecidableEq, Repr

/-- A finite double-precision number.  Zero keeps its sign. -/
structure Double where
  negative : Bool
  magnitude : Magnitude
deriving DecidableEq, Repr

namespace Magnitude

/-- The number of units in one. -/
def unitsPerOne : Nat := Nat.pow 2 1074

/-- The greatest exponent of a finite magnitude. -/
def maxExponent : Nat := 2045

/-- The quotient, rounded to the nearest natural number and at a tie to the even one. -/
def roundHalfEven (num den : Nat) : Nat :=
  let q := num / den
  let r := num % den
  if 2 * r < den then q
  else if den < 2 * r then q + 1
  else if q % 2 = 0 then q else q + 1

/-- The magnitude nearest to `num / den` units. -/
def nearest? (num den : Nat) : Option Magnitude :=
  let exponent := Nat.log2 (num / den) - 52
  let mantissa := roundHalfEven num (den * Nat.pow 2 exponent)
  let rounded : Magnitude :=
    if mantissa = Nat.pow 2 53 then ⟨Nat.pow 2 52, exponent + 1⟩ else ⟨mantissa, exponent⟩
  if rounded.exponent ≤ maxExponent then some rounded else none

def zero : Magnitude := ⟨0, 0⟩

/-- The number of units. -/
def units (x : Magnitude) : Nat := x.mantissa * Nat.pow 2 x.exponent

def ofNat? (n : Nat) : Option Magnitude := nearest? (n * unitsPerOne) 1

def mul? (x y : Magnitude) : Option Magnitude := nearest? (x.units * y.units) unitsPerOne

def div? (x y : Magnitude) : Option Magnitude := nearest? (x.units * unitsPerOne) y.units

/-- The magnitude nearest to `10 ^ k`. -/
def tenPow? (k : Nat) : Option Magnitude := ofNat? (Nat.pow 10 k)

/-- The magnitude nearest to `digits * 10 ^ scale`; `none` when it is too large.  A scale beyond
every magnitude is answered without computing its power. -/
def ofDecimal? (digits : Nat) (scale : Int) : Option Magnitude :=
  if digits = 0 then some zero
  else
    let top : Int := (Nat.toDigits 10 digits).length + scale
    if top > 400 then none
    else if top < -400 then some zero
    else if 0 ≤ scale then ofNat? (digits * Nat.pow 10 scale.toNat)
    else nearest? (digits * unitsPerOne) (Nat.pow 10 (-scale).toNat)

end Magnitude

namespace Double

/-- Equality of values: the two zeros are the same number. -/
def same (x y : Double) : Bool :=
  x.magnitude == y.magnitude && (x.negative == y.negative || x.magnitude.mantissa == 0)

end Double

end GraphKeeper
