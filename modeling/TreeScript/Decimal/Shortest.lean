/-!
# The shortest decimal of a binary fraction

A binary64 number stands for an interval of reals: those that are rounded to it. `shortest` finds
the decimal with the fewest digits inside that interval, and of these the one nearest to the
number. All arithmetic is exact, on naturals.
-/

namespace TreeScript.Decimal

/-- A positive number `mantissa * 2 ^ exponent` with the spacing of its neighbours: the neighbour
below is at half the distance of the one above when `mantissa` is the least of its binade. -/
structure Binary where
  mantissa : Nat
  exponent : Int
  narrowBelow : Bool
deriving DecidableEq, Repr

/-- A number `digits * 10 ^ exponent`. -/
structure Scaled where
  digits : Nat
  exponent : Int
deriving DecidableEq, Repr

/-- The finite positive number with these binary64 bits, sign bit left out. -/
def Binary.ofBits (bits : Nat) : Binary :=
  let leadingBit := Nat.pow 2 52
  let fraction := bits % leadingBit
  let biased := bits / leadingBit % Nat.pow 2 11
  if biased = 0 then ⟨fraction, -1074, false⟩
  else ⟨fraction + leadingBit, (biased : Int) - 1075, fraction = 0 ∧ 1 < biased⟩

/-- The power of ten of the leading digit of `num / den`. -/
def leadingExponent (num den : Nat) : Int :=
  if den ≤ num then ((num / den).repr.length : Int) - 1
  else -(((den + num - 1) / num - 1).repr.length : Int)

/-- A decimal of `count` digits in the interval of `x`, the nearer of the two neighbours of `x`
on the grid of that length. -/
def candidate? (x : Binary) (count : Nat) : Option Scaled :=
  let unit := Nat.pow 2 x.exponent.toNat
  let num := x.mantissa * unit
  let den := Nat.pow 2 (-x.exponent).toNat
  let last := leadingExponent num den - ((count : Int) - 1)
  let scale := Nat.pow 10 (-last).toNat
  -- everything is scaled by four, so that a quarter of the spacing is a whole number
  let grid := 4 * (den * Nat.pow 10 last.toNat)
  let value := 4 * (num * scale)
  let below := value / grid
  let distanceBelow := value - below * grid
  let distanceAbove := (below + 1) * grid - value
  let reachBelow := (if x.narrowBelow then 1 else 2) * (unit * scale)
  let reachAbove := 2 * (unit * scale)
  -- ties are rounded to the even mantissa, which so owns the ends of its interval
  let closed := x.mantissa % 2 = 0
  let hitBelow := distanceBelow < reachBelow ∨ closed ∧ distanceBelow = reachBelow
  let hitAbove := distanceAbove < reachAbove ∨ closed ∧ distanceAbove = reachAbove
  if hitBelow ∧ hitAbove then
    -- an exact tie goes to the even digit
    if distanceBelow < distanceAbove ∨ distanceBelow = distanceAbove ∧ below % 2 = 0 then
      some ⟨below, last⟩
    else some ⟨below + 1, last⟩
  else if hitBelow then some ⟨below, last⟩
  else if hitAbove then some ⟨below + 1, last⟩
  else none

/-- Moves trailing zeros of the digits into the exponent. -/
def Scaled.strip (d : Scaled) : Scaled :=
  if 0 < d.digits ∧ d.digits % 10 = 0 then Scaled.strip ⟨d.digits / 10, d.exponent + 1⟩ else d
termination_by d.digits
decreasing_by omega

/-- The decimal with the fewest digits that is rounded to `x`. Seventeen digits always suffice. -/
def shortest (x : Binary) : Scaled :=
  let found := ((List.range 17).map (· + 1)).findSome? (candidate? x)
  (found.getD ⟨x.mantissa, x.exponent⟩).strip

end TreeScript.Decimal
