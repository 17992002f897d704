import PlaneReport.Decimal.Basic

/-!
# Shortest digits

Every real number near a binary number rounds to it.  Of the decimal numbers in that interval,
`shortest` takes one with the fewest significant digits, and of those the nearest to the exact
value.  All comparisons are exact: the interval is measured in quarters of a unit.
-/

namespace PlaneReport

open Binary Power

/-- Which of two equally near neighbours is taken. -/
inductive Tie where
  | toEven
  | up
deriving DecidableEq, Repr

namespace Binary.Magnitude

variable {f : Format}

/-- The exact value in quarters of a unit. -/
def quarters (x : Magnitude f) : Nat :=
  4 * x.units

/-- The distance to the upper end of the interval that rounds to `x`, in quarters. -/
def roomAbove (x : Magnitude f) : Nat :=
  2 * 2 ^ x.shift

/-- The distance to the lower end of the interval: below a power of two the grid is twice as
fine. -/
def roomBelow (x : Magnitude f) : Nat :=
  if x.shift ≠ 0 ∧ x.significand = 2 ^ (f.width - 1) then 2 ^ x.shift else 2 * 2 ^ x.shift

/-- Whether `num / den` quarters round to `x`.  The ends of the interval are ties, so they belong
to it when the significand is even. -/
def admits (x : Magnitude f) (num den : Nat) : Bool :=
  let low := (x.quarters - x.roomBelow) * den
  let high := (x.quarters + x.roomAbove) * den
  if x.significand % 2 = 0 then decide (low ≤ num ∧ num ≤ high)
  else decide (low < num ∧ num < high)

/-- The power of ten just above a nonzero value: `10 ^ (leading - 1) ≤ value < 10 ^ leading`. -/
def leading (x : Magnitude f) : Int :=
  (Decimal.digitCount (x.units * 10 ^ f.scale / 2 ^ f.scale) : Int) - f.scale

/-- The multiple of `10 ^ place` that rounds to `x` and is nearest to it, if there is one, as a
count of `10 ^ place`. -/
def onGrid? (tie : Tie) (x : Magnitude f) (place : Int) : Option Nat :=
  let step : Nat := 10 ^ place.toNat * 2 ^ (f.scale + 2)
  let den : Nat := 10 ^ (-place).toNat
  let below := x.quarters * den / step
  let twice := 2 * (x.quarters * den % step)
  match x.admits (below * step) den, x.admits ((below + 1) * step) den with
  | false, false => none
  | true, false => some below
  | false, true => some (below + 1)
  | true, true =>
    if twice < step then some below
    else if step < twice then some (below + 1)
    else
      match tie with
      | .up => some (below + 1)
      | .toEven => some (below + below % 2)

/-- The first grid, from `place` downwards, that has a point in the interval. -/
def searchGrid (tie : Tie) (x : Magnitude f) : Nat → Int → Nat × Int
  | 0, place => (x.quarters * 10 ^ (-place).toNat / (10 ^ place.toNat * 2 ^ (f.scale + 2)), place)
  | more + 1, place =>
    match onGrid? tie x place with
    | some count => (count, place)
    | none => searchGrid tie x more (place - 1)

end Binary.Magnitude

namespace Decimal

/-- Moves the factors ten of a coefficient into its exponent; at most `steps` of them. -/
def stripZeros : Nat → Nat × Int → Nat × Int
  | 0, d => d
  | steps + 1, (coefficient, place) =>
    if coefficient ≠ 0 ∧ coefficient % 10 = 0 then stripZeros steps (coefficient / 10, place + 1)
    else (coefficient, place)

/-- The shortest decimal that rounds to a nonzero magnitude, without trailing zeros: a
coefficient and a power of ten. -/
def shortest {f : Format} (tie : Tie) (x : Magnitude f) : Nat × Int :=
  let found := x.searchGrid tie f.width (x.leading - 1)
  stripZeros (digitCount found.1) found

end Decimal
end PlaneReport
