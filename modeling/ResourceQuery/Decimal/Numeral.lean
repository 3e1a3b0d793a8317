import ResourceQuery.Binary64

/-!
# Reading numerals

The parts of a written number and the values they stand for.

## Main Definitions

- `Numeral`: sign, digits before and after the point, and exponent of a written number.
- `Numeral.read?`: the longest numeral at the start of a text.
- `Numeral.nearest`: the double-precision number nearest to the written one.
- `Numeral.scaled?`: the number obtained by rounding the digits first and scaling them afterwards.
-/

namespace ResourceQuery

/-- The parts of a written number. -/
structure Numeral where
  negative : Bool
  /-- The digits before the point. -/
  whole : List Char
  /-- The digits after the point, if there is a point. -/
  fraction? : Option (List Char)
  /-- The power of ten, if one is written. -/
  exponent? : Option Int
deriving DecidableEq, Inhabited

namespace Numeral

/-! ### Digits -/

/-- The value of a decimal digit. -/
def digitValue (c : Char) : Nat :=
  c.toNat - '0'.toNat

/-- The value of a run of decimal digits. -/
def digitsValue (digits : List Char) : Nat :=
  digits.foldl (fun n c => 10 * n + digitValue c) 0

/-- The digits at the start of a text, and the rest of it. -/
def spanDigits (text : List Char) : List Char × List Char :=
  (text.takeWhile Char.isDigit, text.dropWhile Char.isDigit)

/-! ### Reading -/

/-- A sign at the start of a text, and the rest of it. -/
def spanSign : List Char → Bool × List Char
  | '-' :: rest => (true, rest)
  | '+' :: rest => (false, rest)
  | text => (false, text)

/-- An optional fraction at the start of a text, and the rest of it. -/
def spanFraction : List Char → Option (List Char) × List Char
  | '.' :: rest => (some (spanDigits rest).1, (spanDigits rest).2)
  | text => (none, text)

/-- The signed digits of an exponent, and the rest of the text.  At least one digit is needed. -/
def readPower? (text : List Char) : Option (Int × List Char) :=
  let (negative, rest) := spanSign text
  match spanDigits rest with
  | ([], _) => none
  | (digits, rest) =>
    let power : Int := digitsValue digits
    some (if negative then -power else power, rest)

/-- An optional exponent at the start of a text, and the rest of it. -/
def readExponent? : List Char → Option (Option Int × List Char)
  | 'e' :: rest => (readPower? rest).map (fun r => (some r.1, r.2))
  | 'E' :: rest => (readPower? rest).map (fun r => (some r.1, r.2))
  | text => some (none, text)

/-- The numeral at the start of a text, and the rest of it.  At least one digit is needed, before
or after the point, and an exponent mark needs digits. -/
def read? (text : List Char) : Option (Numeral × List Char) := do
  let (negative, text) := spanSign text
  let (whole, text) := spanDigits text
  let (fraction?, text) := spanFraction text
  if whole.isEmpty && (fraction?.getD []).isEmpty then none
  let (exponent?, text) ← readExponent? text
  return (⟨negative, whole, fraction?, exponent?⟩, text)

/-! ### Values -/

/-- The magnitude nearest to `digits · 10 ^ exponent`.  Powers of ten far outside the range of
double-precision numbers are not computed. -/
def nearestMagnitude (digits : Nat) (exponent : Int) : Binary64 :=
  let leading := (Nat.toDigits 10 digits).length + exponent
  if digits = 0 then Binary64.ofIndex 0
  else if leading > 310 then Binary64.infinity
  else if leading < -330 then Binary64.ofIndex 0
  else Binary64.ofRatio (digits * Nat.pow 10 exponent.toNat) (Nat.pow 10 (-exponent).toNat)

/-- The double-precision number nearest to the written one. -/
def nearest (n : Numeral) : Binary64 :=
  let fraction := n.fraction?.getD []
  let digits := digitsValue (n.whole ++ fraction)
  (nearestMagnitude digits (n.exponent?.getD 0 - fraction.length)).withSign n.negative

/-- Append digits to a number while the result has at most 64 bits.  The first digit that does not
fit ends this; the number of digits left over is returned too. -/
def appendDigits (n : Nat) : List Char → Nat × Nat
  | [] => (n, 0)
  | c :: rest =>
    if 10 * n + digitValue c < 18446744073709551616 then appendDigits (10 * n + digitValue c) rest
    else (n, rest.length + 1)

/-- Multiply a magnitude by a power of ten, rounding once; powers below `10 ^ (-308)` take several
steps.  There is no result above the range of double-precision numbers. -/
def scale? (x : Binary64) (exponent : Int) : Option Binary64 :=
  if exponent.natAbs ≤ 308 then
    if exponent ≥ 0 then
      let product := x.mul (Binary64.powTen exponent.toNat)
      if product.isFinite then some product else none
    else some (x.div (Binary64.powTen exponent.natAbs))
  else if x.isZero then some x
  else if exponent ≥ 0 then none
  else scale? (x.div (Binary64.powTen 308)) (exponent + 308)
termination_by exponent.natAbs
decreasing_by omega

/-- The written number, computed in two rounding steps: the leading digits that fit 64 bits are
rounded to a double-precision number, which is then scaled by a power of ten.  Digits before the
point that do not fit count as factors of ten, those after it are dropped.  The result may
differ from the nearest number in the last place. -/
def scaled? (n : Numeral) : Option Binary64 := do
  let fraction := n.fraction?.getD []
  let (digits, tens) := appendDigits 0 n.whole
  let (digits, dropped) := appendDigits digits fraction
  let exponent := n.exponent?.getD 0 + tens - (fraction.length - dropped : Nat)
  let magnitude ← scale? (Binary64.ofRatio digits 1) exponent
  return magnitude.withSign n.negative

end Numeral

end ResourceQuery
