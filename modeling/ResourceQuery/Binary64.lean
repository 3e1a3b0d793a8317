/-!
# Double-precision numbers

Binary floating-point numbers of 64 bits as exact data: a sign and a magnitude.  Magnitudes are
numbered consecutively from zero upwards, so that the number of a magnitude is also its encoding
and the next larger number is the successor.  No machine arithmetic is involved: every result is
the rounding of an exact fraction.

## Main Definitions

- `Binary64`: a sign and the index of a magnitude.
- `Binary64.significand`, `Binary64.exponent`: a finite magnitude is `significand · 2 ^ exponent`.
- `Binary64.ofRatio`: the number nearest to a fraction, a tie going to the even significand.
- `Binary64.mul`, `Binary64.div`: correctly rounded product and quotient of magnitudes.
-/

namespace ResourceQuery

/-- A binary floating-point number of 64 bits. -/
structure Binary64 where
  /-- Is the sign bit set. -/
  negative : Bool
  /-- The magnitude's place in the ascending list of all magnitudes; infinity and the values that
  are no number come last, and there are `2 ^ 63` in all. -/
  index : Fin 9223372036854775808
deriving DecidableEq, Inhabited

namespace Binary64

/-! ### Anatomy of a magnitude -/

/-- How many magnitudes share one exponent: `2 ^ 52`. -/
def binadeSize : Nat := 4503599627370496

/-- The index of infinity. -/
def infinityIndex : Nat := 2047 * binadeSize

/-- Is this a number, infinities included. -/
def isNumber (x : Binary64) : Bool :=
  x.index.val ≤ infinityIndex

/-- Is this a number other than the infinities. -/
def isFinite (x : Binary64) : Bool :=
  x.index.val < infinityIndex

/-- Is this positive or negative zero. -/
def isZero (x : Binary64) : Bool :=
  x.index.val = 0

/-- The integer factor of a finite magnitude. -/
def significand (x : Binary64) : Nat :=
  if x.index.val < binadeSize then x.index.val
  else binadeSize + x.index.val % binadeSize

/-- The power of two that a finite magnitude's significand counts. -/
def exponent (x : Binary64) : Int :=
  if x.index.val < binadeSize then -1074
  else (x.index.val / binadeSize : Nat) - 1075

/-- Numeric equality: the two zeros are equal, and what is no number differs from everything. -/
def same (x y : Binary64) : Bool :=
  (x.isZero && y.isZero) || (x = y && x.isNumber)

/-- The same magnitude with the given sign. -/
def withSign (negative : Bool) (x : Binary64) : Binary64 :=
  { x with negative }

/-- The 64-bit encoding as a natural number. -/
def toBits (x : Binary64) : Nat :=
  (if x.negative then 9223372036854775808 else 0) + x.index.val

/-! ### Rounding -/

/-- The magnitude with this index; indices above infinity's stand for infinity. -/
def ofIndex (i : Nat) : Binary64 where
  negative := false
  index := ⟨min i infinityIndex, by
    have : infinityIndex < 9223372036854775808 := by decide
    omega⟩

/-- Positive infinity. -/
def infinity : Binary64 :=
  ofIndex infinityIndex

/-- The value that is no number. -/
def notANumber : Binary64 where
  negative := false
  index := ⟨infinityIndex + 2251799813685248, by decide⟩

/-- The integer nearest to a fraction, a tie going to the even neighbour. -/
def roundDiv (num den : Nat) : Nat :=
  let quotient := num / den
  let rest := 2 * (num % den)
  if rest > den ∨ (rest = den ∧ quotient % 2 = 1) then quotient + 1 else quotient

/-- The largest `l` with `2 ^ l ≤ num / den`, for positive numerator and denominator. -/
def floorLog (num den : Nat) : Int :=
  let guess : Int := (Nat.log2 num : Int) - Nat.log2 den
  if num * Nat.pow 2 (-guess).toNat ≥ den * Nat.pow 2 guess.toNat then guess else guess - 1

/-- The number nearest to `num / den`, a tie going to the even significand; what is too large
becomes infinity. -/
def ofRatio (num den : Nat) : Binary64 :=
  if num = 0 then ofIndex 0
  else
    let scale : Int := max (floorLog num den - 52) (-1074)
    let significand := roundDiv (num * Nat.pow 2 (-scale).toNat) (den * Nat.pow 2 scale.toNat)
    ofIndex ((scale + 1074).toNat * binadeSize + significand)

/-- The number nearest to an integer. -/
def ofInt (n : Int) : Binary64 :=
  (ofRatio n.natAbs 1).withSign (n < 0)

/-- The number nearest to a power of ten. -/
def powTen (n : Nat) : Binary64 :=
  ofRatio (Nat.pow 10 n) 1

/-! ### Arithmetic on finite magnitudes -/

/-- A finite magnitude as a fraction. -/
def toRatio (x : Binary64) : Nat × Nat :=
  (x.significand * Nat.pow 2 x.exponent.toNat, Nat.pow 2 (-x.exponent).toNat)

/-- The rounded product of two finite magnitudes. -/
def mul (x y : Binary64) : Binary64 :=
  ofRatio (x.toRatio.1 * y.toRatio.1) (x.toRatio.2 * y.toRatio.2)

/-- The rounded quotient of two finite magnitudes, the second not zero. -/
def div (x y : Binary64) : Binary64 :=
  ofRatio (x.toRatio.1 * y.toRatio.2) (x.toRatio.2 * y.toRatio.1)

end Binary64

end ResourceQuery
