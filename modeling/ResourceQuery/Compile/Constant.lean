import ResourceQuery.Compile.Error
import ResourceQuery.Decimal.Numeral
import ResourceQuery.Sql.Value

/-!
# Constants

The values of a request become parameters of the type of the column they are compared with or
written to.

## Main Definitions

- `Constant.toValue`: a value for a column of a given type.
- `Constant.integer?`, `Constant.float?`: texts that spell numbers.
-/

namespace ResourceQuery.Constant

open Sql (Value CastType)

/-! ### Texts that spell numbers -/

/-- The integer of 64 bits that a text spells: an optional sign and decimal digits. -/
def integer? (text : String) : Option Int64 :=
  match Numeral.spanSign text.toList with
  | (negative, digits) =>
    if digits.isEmpty || !digits.all Char.isDigit then none
    else
      let magnitude : Int := Numeral.digitsValue digits
      let value := if negative then -magnitude else magnitude
      if -9223372036854775808 ≤ value ∧ value < 9223372036854775808 then some (Int64.ofInt value) else none

/-- The words for the values that no digits can spell, in any case of letters. -/
def specialFloat? (text : List Char) : Option Binary64 :=
  let word := String.ofList (text.map Char.toLower)
  if word = "inf" ∨ word = "infinity" then some Binary64.infinity
  else if word = "nan" then some Binary64.notANumber
  else none

/-- The double-precision number that a text spells: an optional sign, digits with an optional point
and exponent, or one of the words for infinity and not-a-number. -/
def float? (text : String) : Option Binary64 :=
  match Numeral.read? text.toList with
  | some (numeral, []) => some numeral.nearest
  | _ =>
    match Numeral.spanSign text.toList with
    | (negative, rest) => (specialFloat? rest).map (Binary64.withSign negative)

/-! ### Values for columns -/

/-- The integer of a number, if it is one that a column can hold. -/
def int64OfNumber? : Json.Number → Option Int64
  | .int n _ => if n < 9223372036854775808 then some (Int64.ofInt n) else none
  | .float .. => none

/-- The value of a column that stores members of an enumeration: the name of a member, or the
stored integer itself. -/
def enumValue (enumTypes : Dict EnumType) (enumType : String) (type : ScalarType) (value : Json) :
    Except CompileError Value :=
  match value with
  | .string member =>
    match enumTypes.get? enumType with
    | none => .error (.enumTypeNotFound enumType)
    | some members =>
      match members.get? member with
      | some n => .ok (.int n)
      | none => .error (.unknownEnumMember enumType member)
  | .number n =>
    match int64OfNumber? n with
    | some n => .ok (.int n)
    | none => .error (.typeMismatch value type)
  | _ => .error (.typeMismatch value type)

/-- The value that a number stands for in a column of a type. -/
def numberValue? (type : ScalarType) (n : Json.Number) : Option Value :=
  match type with
  | .smallint | .integer | .bigint => (int64OfNumber? n).map .int
  | .real | .doublePrecision | .numeric => some (.float n.toBinary64)
  | _ => none

/-- The value that a text stands for in a column of a type. -/
def stringValue? (type : ScalarType) (text : String) : Option Value :=
  match type with
  | .smallint | .integer | .bigint => (integer? text).map .int
  | .real | .doublePrecision | .numeric => (float? text).map .float
  | .characterVarying | .text => some (.string text)
  | .date => some (.cast text .date)
  | .timestampWithoutTimeZone => some (.cast text .timestamp)
  | .timestampWithTimeZone => some (.cast text .timestampWithTimeZone)
  | .uuid => some (.cast text .uuid)
  | .boolean => none

/-- The value that a JSON value other than null stands for in a column of a type. -/
def plainValue? (type : ScalarType) : Json → Option Value
  | .number n => numberValue? type n
  | .string text => stringValue? type text
  | .bool b => if type = .boolean then some (.bool b) else none
  | _ => none

/-- The value for a column of a type, which may store members of an enumeration. -/
def toValue (enumTypes : Dict EnumType) (type : ScalarType) (enumType? : Option String)
    (value : Json) : Except CompileError Value :=
  if value = .null then .ok .null
  else
    match enumType? with
    | some enumType => enumValue enumTypes enumType type value
    | none =>
      match plainValue? type value with
      | some v => .ok v
      | none => .error (.typeMismatch value type)

end ResourceQuery.Constant
