import ResourceQuery.Binary64

/-!
# The shortest decimal of a double-precision number

Every finite magnitude owns an interval of reals that round to it.  Of the decimals in that
interval the shortest has the fewest digits, and among those it lies nearest to the number.

## Main Definitions

- `Decimal`: a natural number times a power of ten.
- `Decimal.shortest`: the decimal that stands for a positive finite magnitude.

## Design Notes

Grids of powers of ten are tried from coarse to fine.  If a grid has a point in the interval, one
of the two neighbours of the number on that grid is such a point, so only these two are tested.
All tests are made on natural numbers.
-/

namespace ResourceQuery

/-- The number `digits · 10 ^ exponent`. -/
structure Decimal where
  digits : Nat
  exponent : Int
deriving DecidableEq, Inhabited

/-- Which of two equally near decimals is taken. -/
inductive Tie where
  | toEven
  | upward
deriving DecidableEq, Inhabited

namespace Decimal

/-- The reals that round to a magnitude, in quarters of its last binary place. -/
structure Interval where
  /-- The magnitude itself. -/
  value : Nat
  /-- How far the interval reaches below it. -/
  below : Nat
  /-- How far the interval reaches above it. -/
  above : Nat
  /-- Do the two ends belong to the interval. -/
  closed : Bool
  /-- The power of two that the quarters count. -/
  scale : Int

/-- The interval of a finite magnitude.  Below the first magnitude of a binade the neighbours are
half as far apart. -/
def Interval.of (x : Binary64) : Interval where
  value := 4 * x.significand
  below := if x.significand = Binary64.binadeSize ∧ x.exponent > -1074 then 1 else 2
  above := 2
  closed := x.significand % 2 = 0
  scale := x.exponent - 2

/-- A number of quarters, measured in units of `10 ^ k / unit`. -/
def Interval.measure (i : Interval) (k : Int) (quarters : Nat) : Nat :=
  quarters * Nat.pow 2 i.scale.toNat * Nat.pow 10 (-k).toNat

/-- How many of the units of `Interval.measure` make up `10 ^ k`. -/
def Interval.unit (i : Interval) (k : Int) : Nat :=
  Nat.pow 2 (-i.scale).toNat * Nat.pow 10 k.toNat

/-- Does `candidate · 10 ^ k` lie in the interval. -/
def Interval.holds (i : Interval) (k : Int) (candidate : Nat) : Bool :=
  let point := candidate * i.unit k
  let low := i.measure k (i.value - i.below)
  let high := i.measure k (i.value + i.above)
  candidate > 0 && if i.closed then low ≤ point && point ≤ high else low < point && point < high

/-- The multiple of `10 ^ k` in the interval that is nearest to the magnitude. -/
def Interval.nearest? (i : Interval) (tie : Tie) (k : Int) : Option Nat :=
  let floor := i.measure k i.value / i.unit k
  match i.holds k floor, i.holds k (floor + 1) with
  | false, false => none
  | true, false => some floor
  | false, true => some (floor + 1)
  | true, true =>
    let rest := 2 * (i.measure k i.value % i.unit k)
    if rest < i.unit k then some floor
    else if rest > i.unit k then some (floor + 1)
    else match tie with
      | .upward => some (floor + 1)
      | .toEven => if floor % 2 = 0 then some floor else some (floor + 1)

/-- Try `steps` grids, each ten times finer than the one before. -/
def search (i : Interval) (tie : Tie) : Nat → Int → Decimal
  | 0, k => ⟨i.measure k i.value / i.unit k, k⟩
  | steps + 1, k =>
    match i.nearest? tie k with
    | some digits => ⟨digits, k⟩
    | none => search i tie steps (k - 1)

/-- A power of ten above a positive finite magnitude, by at most a factor of ten thousand. -/
def powerAbove (x : Binary64) : Int :=
  ((Nat.log2 x.significand : Int) + x.exponent + 1) * 30103 / 100000 + 2

/-- The shortest decimal that rounds to a positive finite magnitude.  Seventeen digits always
suffice, so the grids tried include one with a hit. -/
def shortest (tie : Tie) (x : Binary64) : Decimal :=
  search (Interval.of x) tie 24 (powerAbove x)

end Decimal

end ResourceQuery
