import AvroSwagger.Decimal.Binary64

/-!
# AvroSwagger.Decimal.Shortest

**The fewest decimal digits that read back as the same number.**

Every finite value owns an interval of reals that round to it, ends included
exactly when its significand is even.  On the decimal grid with `n` digits only
the two neighbours of the value can be the nearest point inside that interval,
so the search tests those two for `n = 1, 2, …, 17`: the first grid with a hit
wins, and of two hits the nearer one, at equal distance the even one.
-/

namespace AvroSwagger.Decimal

/-- A decimal `coefficient · 10 ^ exponent`. -/
structure Scaled where
  coefficient : Nat
  exponent : Int
  deriving DecidableEq, Repr

namespace Scaled

/-- Moves trailing zeros of the coefficient into the exponent, at most `limit` of them. -/
def dropZeros (limit : Nat) (d : Scaled) : Scaled :=
  match limit with
  | 0 => d
  | n + 1 =>
    if d.coefficient ≠ 0 ∧ d.coefficient % 10 = 0 then
      dropZeros n ⟨d.coefficient / 10, d.exponent + 1⟩
    else d

end Scaled

namespace Binary64

/-- The reals that round to a value, in units of a quarter of its last place:
`low` to `high` around `centre`, with `unit` the exponent of that quarter. -/
structure Interval where
  low : Nat
  centre : Nat
  high : Nat
  unit : Int
  closed : Bool

/-- The interval of a value.  Below a power of two the neighbours lie half as far apart. -/
def interval (x : Binary64) : Interval where
  low := if x.significand = twoPow 52 ∧ x.exponent ≠ -1074 then 4 * x.significand - 1
    else 4 * x.significand - 2
  centre := 4 * x.significand
  high := 4 * x.significand + 2
  unit := x.exponent - 2
  closed := x.significand % 2 = 0

/-- The position of the first digit of `num / den`: the `k` with
`10 ^ (k - 1) ≤ num / den < 10 ^ k`, for a positive fraction. -/
def decimalPoint (num den : Nat) : Int :=
  if den ≤ num then ((Nat.toDigits 10 (num / den)).length : Int)
  else
    let gap := (den - 1) / num
    1 - (if gap = 0 then 0 else ((Nat.toDigits 10 gap).length : Int))

/-- The grid point nearest to the value among those of its two neighbours on the grid of
multiples of `10 ^ power` that lie inside the interval. -/
def nearestOnGrid? (i : Interval) (power : Int) : Option Nat :=
  -- `a / b` is one unit of the interval measured in grid steps
  let a := twoPow i.unit.toNat * tenPow (-power).toNat
  let b := twoPow (-i.unit).toNat * tenPow power.toNat
  let below := i.centre * a / b
  let inside (d : Nat) : Bool :=
    if i.closed then decide (i.low * a ≤ d * b ∧ d * b ≤ i.high * a)
    else decide (i.low * a < d * b ∧ d * b < i.high * a)
  let downDistance := i.centre * a - below * b
  let upDistance := (below + 1) * b - i.centre * a
  let preferUp := upDistance < downDistance ∨ (upDistance = downDistance ∧ below % 2 = 1)
  match inside below, inside (below + 1) with
  | true, true => some (if preferUp then below + 1 else below)
  | true, false => some below
  | false, true => some (below + 1)
  | false, false => none

/-- Tries grids of growing fineness, `steps` of them, the first with leading power `power`. -/
def searchGrids (i : Interval) (steps : Nat) (power : Int) : Option Scaled :=
  match steps with
  | 0 => none
  | n + 1 =>
    match nearestOnGrid? i power with
    | some d => some ⟨d, power⟩
    | none => searchGrids i n (power - 1)

/-- **The shortest decimal of a value** (its magnitude; zero is `0 · 10 ^ 0`), without
trailing zeros. -/
def shortest (x : Binary64) : Scaled :=
  if x.isZero then ⟨0, 0⟩
  else
    -- the coarsest grid has one digit, in the place of the value's first digit
    let point := decimalPoint (x.significand * twoPow x.exponent.toNat) (twoPow (-x.exponent).toNat)
    match searchGrids x.interval 17 (point - 1) with
    | some d => d.dropZeros 20
    | none => ⟨x.significand, x.exponent⟩

end Binary64

end AvroSwagger.Decimal
