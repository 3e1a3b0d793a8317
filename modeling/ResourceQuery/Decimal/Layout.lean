import ResourceQuery.Decimal.Shortest

/-!
# Writing numbers

How the digits of a number are laid out: positionally or with an exponent, with or without a
fraction mark on whole numbers.

## Main Definitions

- `Decimal.Layout`: the decisions of one output format.
- `Decimal.Layout.write`: the text of a double-precision number in that format.
-/

namespace ResourceQuery

/-- The decimal numeral of a natural number. -/
def natText (n : Nat) : String :=
  String.ofList (Nat.toDigits 10 n)

theorem natText_injective : Function.Injective natText := by
  intro m n h
  have digits : Nat.toDigits 10 m = Nat.toDigits 10 n := by
    simpa [natText] using congrArg String.toList h
  rw [← @Nat.ofDigitChars_ten_toDigits m, ← @Nat.ofDigitChars_ten_toDigits n, digits]

/-- The decimal numeral of an integer. -/
def intText (n : Int) : String :=
  if n < 0 then "-" ++ natText n.natAbs else natText n.natAbs

namespace Decimal

/-- The decisions of one format for double-precision numbers. -/
structure Layout where
  /-- Is a number whose leading digit counts this power of ten written without exponent. -/
  positional : Int → Bool
  /-- Is `.0` added to whole numbers written without exponent. -/
  marksWhole : Bool
  /-- Is a plus sign written before exponents that are not negative. -/
  signsExponent : Bool
  /-- Which of two equally near shortest decimals is written. -/
  tie : Tie

namespace Layout

/-- A run of zeros. -/
def zeros (n : Nat) : List Char :=
  List.replicate n '0'

/-- The digits written around the decimal point. -/
def positionally (layout : Layout) (digits : List Char) (exponent : Int) : List Char :=
  if exponent ≥ 0 then
    digits ++ zeros exponent.toNat ++ (if layout.marksWhole then ['.', '0'] else [])
  else
    let places := (-exponent).toNat
    if places < digits.length then
      digits.take (digits.length - places) ++ '.' :: digits.drop (digits.length - places)
    else
      '0' :: '.' :: zeros (places - digits.length) ++ digits

/-- The digits written with one of them before the point, and the power of ten after. -/
def scientifically (layout : Layout) (digits : List Char) (leading : Int) : List Char :=
  let fraction := match digits.drop 1 with
    | [] => []
    | rest => '.' :: rest
  let sign := if layout.signsExponent ∧ leading ≥ 0 then ['+'] else []
  digits.take 1 ++ fraction ++ 'e' :: sign ++ (intText leading).toList

/-- The text of a finite magnitude. -/
def magnitude (layout : Layout) (x : Binary64) : List Char :=
  if x.isZero then positionally layout ['0'] 0
  else
    let d := shortest layout.tie x
    let digits := Nat.toDigits 10 d.digits
    let leading := d.exponent + digits.length - 1
    if layout.positional leading then positionally layout digits d.exponent
    else scientifically layout digits leading

/-- The text of a number. -/
def write (layout : Layout) (x : Binary64) : String :=
  if !x.isNumber then "NaN"
  else
    let text := if x.isFinite then magnitude layout x else ['i', 'n', 'f']
    String.ofList (if x.negative then '-' :: text else text)

end Layout

end Decimal

end ResourceQuery
