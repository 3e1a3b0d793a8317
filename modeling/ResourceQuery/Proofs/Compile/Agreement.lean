import ResourceQuery.Compile.Filter
import ResourceQuery.Proofs.Request.Meaning

/-!
# Filters are compiled as they are meant

The compiler has its own functions that look up fields, choose operators and bind constants.  Each
of them agrees with the description on which the meaning of filters rests.

## Main Definitions

- `Compile.OperandType.valueType`: the type of values that the compiler gives to constants.

## Main Statements

- `Schema.stored?_of_field`: the column that is found for a field stores it.
- `Compile.comparisonOp_eq`: the operator of a comparison is the relation that it asks for.
- `Constant.integer?_eq_some_iff`, `Constant.float?_eq_some_iff`: the numbers that are read from
  texts are those spelled.
- `Constant.toValue_eq_ok_iff`: a constant is bound to the value that it stands for.
- `StandsFor.unique`: a constant stands for one value only.
- `Schema.typedConstant_eq`: the value of a constant, as the compiler computes it.

## Design Notes

That a constant is bound to what it stands for is shown in two ways: from left to right along the
functions of the compiler, from right to left along what a constant can stand for.
-/

namespace ResourceQuery

open Sql (Engine Value)

/-! ### Fields and operators -/

theorem ResourceType.columnOf?_id (info : ResourceType) :
    info.columnOf? Schema.idField = some (info.idColumn, none) :=
  if_pos rfl

namespace Schema

theorem columnOf?_of_fieldSource {resourceType field : String} {info : ResourceType}
    {source : String × Option String} (h : fieldSource resourceType info field = .ok source) :
    info.columnOf? field = some source := by
  unfold fieldSource at h
  split at h
  · rename_i identifier
    cases h
    rw [identifier, ResourceType.columnOf?_id]
  · rename_i other
    rw [ResourceType.columnOf?, if_neg (show ¬ field = "id" from other)]
    split at h
    · cases h
    · rename_i found declared
      split at h
      · cases h
      · rename_i column stored
        cases h
        simp [declared, stored]

/-- **The column that is found for a field stores it**, with the type that is found for it. -/
theorem stored?_of_field {schema : Schema} {resourceType field : String} {info : FieldColumn}
    (h : schema.field resourceType field = .ok info) :
    schema.stored? resourceType field = some (info.column, ⟨info.type, info.enumType?⟩) := by
  unfold Schema.field Schema.resourceType at h
  unfold stored?
  cases described : schema.resourceTypes.get? resourceType with
  | none =>
    rw [described] at h
    cases h
  | some table =>
    simp only [described, CompileError.ofLookup, bind, Except.bind] at h
    split at h
    · cases h
    · rename_i source hsource
      split at h
      · rename_i column hcolumn
        cases h
        simp [columnOf?_of_fieldSource hsource, hcolumn]
      · cases h

end Schema

/-- **The operator of a comparison is the relation that it asks for.** -/
theorem Compile.comparisonOp_eq (kind : ComparisonKind) : comparisonOp kind = kind.relation := by
  cases kind <;> rfl

/-! ### Numbers in texts -/

namespace Constant

/-- An integer that fits into 64 bits is kept. -/
theorem ofInt_bounded_iff {m : ℤ} {n : Int64} :
    ((-9223372036854775808 ≤ m ∧ m < 9223372036854775808) ∧ Int64.ofInt m = n) ↔ m = n.toInt := by
  constructor
  · rintro ⟨bounds, rfl⟩
    exact (Int64.toInt_ofInt_of_le bounds.1 bounds.2).symm
  · rintro rfl
    exact ⟨⟨n.le_toInt, n.toInt_lt⟩, Int64.ofInt_toInt n⟩

theorem integer?_of_spanSign {text : String} {negative : Bool} {digits : List Char} {n : Int64}
    (signed : Numeral.spanSign text.toList = (negative, digits)) :
    integer? text = some n ↔ (digits ≠ [] ∧ ∀ c ∈ digits, c.isDigit = true)
      ∧ (if negative then -(Numeral.digitsValue digits : ℤ) else Numeral.digitsValue digits)
        = n.toInt := by
  unfold integer?
  rw [signed]
  simp only [Option.ite_none_left_eq_some, Option.ite_none_right_eq_some, Option.some.injEq]
  rw [ofInt_bounded_iff]
  simp

/-- **The integers that are read from texts are those spelled.** -/
theorem integer?_eq_some_iff {text : String} {n : Int64} :
    integer? text = some n ↔ SpellsInteger text.toList n.toInt := by
  constructor
  · intro h
    obtain ⟨sign, signed, begins⟩ := Numeral.spellsSign_spanSign text.toList
    obtain ⟨⟨some, all⟩, value⟩ := (integer?_of_spanSign rfl).mp h
    rw [begins, ← value]
    exact .mk signed all some
  · generalize value : n.toInt = m
    generalize begins : text.toList = chars
    rintro ⟨signed, all, some⟩
    have free := Numeral.head?_ne_sign all some []
    rw [List.append_nil] at free
    have split := Numeral.spanSign_append signed free
    rw [← begins] at split
    exact (integer?_of_spanSign split).mpr ⟨⟨some, all⟩, value.symm⟩

/-- The values that have a word. -/
theorem specialFloat?_eq_some_iff {word : List Char} {x : Binary64} :
    specialFloat? word = some x ↔
      (word.map Char.toLower = "inf".toList ∨ word.map Char.toLower = "infinity".toList)
          ∧ x = Binary64.infinity
        ∨ word.map Char.toLower = "nan".toList ∧ x = Binary64.notANumber := by
  have named : ∀ name : String, String.ofList (word.map Char.toLower) = name
      ↔ word.map Char.toLower = name.toList := by
    intro name
    rw [← String.toList_inj, String.toList_ofList]
  simp only [specialFloat?, named]
  split
  · rename_i infinite
    constructor
    · rintro ⟨rfl⟩
      exact .inl ⟨infinite, rfl⟩
    · rintro (⟨-, rfl⟩ | ⟨nan, -⟩)
      · rfl
      · rw [nan] at infinite
        exact absurd infinite (by decide)
  · rename_i finite
    rw [Option.ite_none_right_eq_some, Option.some.injEq, or_iff_right (fun both => finite both.1),
      eq_comm (a := x)]

theorem float?_of_read? {text : String} {numeral : Numeral}
    (read : Numeral.read? text.toList = some (numeral, [])) :
    float? text = some numeral.nearest := by
  unfold float?
  rw [read]

theorem float?_of_not_read {text : String} {negative : Bool} {word : List Char}
    (unread : ∀ numeral, Numeral.read? text.toList ≠ some (numeral, []))
    (signed : Numeral.spanSign text.toList = (negative, word)) :
    float? text = (specialFloat? word).map (Binary64.withSign negative) := by
  unfold float?
  split
  · rename_i numeral read
    exact absurd read (unread numeral)
  · rw [signed]

/-- A word is not taken for a numeral. -/
theorem float?_of_word {text : String} {sign word others : List Char} {negative : Bool}
    {first : Char} {x : Binary64} (begins : text.toList = sign ++ word)
    (signed : SpellsSign sign negative) (named : word.map Char.toLower = first :: others)
    (letter : first = 'i' ∨ first = 'n') (special : specialFloat? word = some x) :
    float? text = some (x.withSign negative) := by
  have free := Numeral.head?_of_letter named letter
  have unread := Numeral.read?_eq_none signed free
  have split := Numeral.spanSign_append signed (fun c mem => (free c mem).1)
  rw [← begins] at unread split
  rw [float?_of_not_read (by simp [unread]) split, special]
  rfl

/-- **The double-precision numbers that are read from texts are those spelled.** -/
theorem float?_eq_some_iff {text : String} {x : Binary64} :
    float? text = some x ↔ SpellsFloat text.toList x := by
  constructor
  · intro h
    by_cases read : ∃ numeral, Numeral.read? text.toList = some (numeral, [])
    · obtain ⟨numeral, read⟩ := read
      rw [float?_of_read? read] at h
      cases h
      exact .decimal (Numeral.spellsDecimal_of_read? read) numeral.isNearest_nearest
    · obtain ⟨sign, signed, begins⟩ := Numeral.spellsSign_spanSign text.toList
      rcases split : Numeral.spanSign text.toList with ⟨negative, word⟩
      rw [split] at signed begins
      rw [float?_of_not_read (not_exists.mp read) split] at h
      obtain ⟨y, special, rfl⟩ := Option.map_eq_some_iff.mp h
      rw [begins]
      rcases specialFloat?_eq_some_iff.mp special with ⟨named, rfl⟩ | ⟨named, rfl⟩
      · exact .infinite signed named
      · exact .notANumber signed named
  · generalize begins : text.toList = chars
    intro h
    cases h with
    | decimal spelled nearest =>
      obtain ⟨numeral, read, signed, value⟩ := Numeral.exists_read? spelled
      rw [← begins] at read
      rw [float?_of_read? read]
      rw [← value] at nearest
      exact congrArg some (numeral.isNearest_nearest.unique nearest signed)
    | infinite signed named =>
      have special := specialFloat?_eq_some_iff.mpr (.inl ⟨named, rfl⟩)
      rcases named with named | named
      · exact float?_of_word begins signed named (.inl rfl) special
      · exact float?_of_word begins signed named (.inl rfl) special
    | notANumber signed named =>
      have special := specialFloat?_eq_some_iff.mpr (.inr ⟨named, rfl⟩)
      exact float?_of_word begins signed named (.inr rfl) special

/-! ### Constants -/

variable {enumTypes : Dict EnumType} {type : ScalarType} {v : Value}

/-- The numbers that are integers of 64 bits. -/
theorem int64OfNumber?_eq_some_iff {number : Json.Number} {n : Int64} :
    int64OfNumber? number = some n ↔ Json.number number = .ofInt64 n := by
  cases number with
  | int m bounds =>
    have same : Json.number (.int m bounds) = .ofInt64 n ↔ m = n.toInt := by simp [Json.ofInt64]
    rw [same, ← ofInt_bounded_iff, int64OfNumber?, Option.ite_none_right_eq_some, Option.some.injEq]
    simp [bounds.1]
  | float x finite => simp [int64OfNumber?, Json.ofInt64]

theorem int64OfNumber?_toInt (n : Int64) {bounds} : int64OfNumber? (.int n.toInt bounds) = some n :=
  int64OfNumber?_eq_some_iff.mpr rfl

/-- A number is bound to a value that it stands for. -/
theorem standsFor_of_numberValue? {number : Json.Number} (h : numberValue? type number = some v) :
    StandsFor enumTypes ⟨type, none⟩ (.number number) v := by
  cases type with
  | smallint | integer | bigint =>
    obtain ⟨n, whole, rfl⟩ := Option.map_eq_some_iff.mp h
    rw [int64OfNumber?_eq_some_iff.mp whole]
    exact .integer (by decide)
  | real | doublePrecision | numeric =>
    cases h
    cases number with
    | int n bounds => exact .rounded (by decide) rfl (Binary64.isNearest_ofInt n)
    | float x finite => exact .float (by decide)
  | _ => cases h

/-- A text is bound to a value that it stands for. -/
theorem standsFor_of_stringValue? {text : String} (h : stringValue? type text = some v) :
    StandsFor enumTypes ⟨type, none⟩ (.string text) v := by
  cases type with
  | smallint | integer | bigint =>
    obtain ⟨n, read, rfl⟩ := Option.map_eq_some_iff.mp h
    exact .integerText (by decide) (integer?_eq_some_iff.mp read)
  | real | doublePrecision | numeric =>
    obtain ⟨x, read, rfl⟩ := Option.map_eq_some_iff.mp h
    exact .floatText (by decide) (float?_eq_some_iff.mp read)
  | characterVarying | text =>
    cases h
    exact .text (by decide)
  | date | timestampWithoutTimeZone | timestampWithTimeZone | uuid =>
    cases h
    exact .cast (by decide)
  | boolean => cases h

theorem standsFor_of_plainValue? {value : Json} (h : plainValue? type value = some v) :
    StandsFor enumTypes ⟨type, none⟩ value v := by
  cases value with
  | number n => exact standsFor_of_numberValue? h
  | string text => exact standsFor_of_stringValue? h
  | bool b =>
    obtain ⟨rfl, h⟩ := Option.ite_none_right_eq_some.mp h
    cases h
    exact .bool
  | _ => cases h

theorem standsFor_of_enumValue {enumType : String} {value : Json}
    (h : enumValue enumTypes enumType type value = .ok v) :
    StandsFor enumTypes ⟨type, some enumType⟩ value v := by
  unfold enumValue at h
  split at h
  · split at h
    · cases h
    · rename_i members declared
      split at h
      · rename_i n named
        cases h
        exact .member declared named
      · cases h
  · split at h
    · rename_i n whole
      cases h
      rw [int64OfNumber?_eq_some_iff.mp whole]
      exact .stored
    · cases h
  · cases h

theorem toValue_of_enumValue {enumType : String} {value : Json} (given : value ≠ .null)
    (h : enumValue enumTypes enumType type value = .ok v) :
    toValue enumTypes type (some enumType) value = .ok v := by
  rw [toValue, if_neg given, h]

theorem toValue_of_plainValue? {value : Json} (h : plainValue? type value = some v) :
    toValue enumTypes type none value = .ok v := by
  have given : value ≠ .null := by
    rintro rfl
    cases h
  rw [toValue, if_neg given, h]

/-- In a column of whole numbers, numbers and texts are read as integers. -/
theorem plainValue?_of_whole (whole : type ∈ [ScalarType.smallint, .integer, .bigint]) :
    (∀ n, plainValue? type (.number n) = (int64OfNumber? n).map .int)
      ∧ ∀ text, plainValue? type (.string text) = (integer? text).map .int := by
  simp only [List.mem_cons, List.not_mem_nil, or_false] at whole
  rcases whole with rfl | rfl | rfl <;> exact ⟨fun _ => rfl, fun _ => rfl⟩

/-- In a column of fractions, numbers and texts are read as double-precision numbers. -/
theorem plainValue?_of_fractional
    (fractional : type ∈ [ScalarType.real, .doublePrecision, .numeric]) :
    (∀ n, plainValue? type (.number n) = some (.float n.toBinary64))
      ∧ ∀ text, plainValue? type (.string text) = (float? text).map .float := by
  simp only [List.mem_cons, List.not_mem_nil, or_false] at fractional
  rcases fractional with rfl | rfl | rfl <;> exact ⟨fun _ => rfl, fun _ => rfl⟩

/-- A constant is bound to a value that it stands for. -/
theorem standsFor_of_toValue {enumType? : Option String} {value : Json}
    (h : toValue enumTypes type enumType? value = .ok v) :
    StandsFor enumTypes ⟨type, enumType?⟩ value v := by
  unfold toValue at h
  split at h
  · rename_i isNull
    cases h
    rw [isNull]
    exact .null
  · split at h
    · exact standsFor_of_enumValue h
    · split at h
      · rename_i plain
        cases h
        exact standsFor_of_plainValue? plain
      · cases h

/-- **A constant is bound to the value that it stands for.** -/
theorem toValue_eq_ok_iff {valueType : ValueType} {value : Json} :
    toValue enumTypes valueType.type valueType.enumType? value = .ok v
      ↔ StandsFor enumTypes valueType value v := by
  refine ⟨standsFor_of_toValue, fun h => ?_⟩
  cases h with
  | null => exact if_pos rfl
  | member declared named =>
    refine toValue_of_enumValue Json.noConfusion ?_
    simp only [enumValue, declared, named]
  | stored =>
    refine toValue_of_enumValue Json.noConfusion ?_
    simp only [Json.ofInt64, enumValue, int64OfNumber?_toInt]
  | integer whole =>
    refine toValue_of_plainValue? (((plainValue?_of_whole whole).1 _).trans ?_)
    rw [int64OfNumber?_toInt]
    rfl
  | integerText whole spelled =>
    refine toValue_of_plainValue? (((plainValue?_of_whole whole).2 _).trans ?_)
    rw [integer?_eq_some_iff.mpr spelled]
    rfl
  | @rounded _ n x _ fractional signed nearest =>
    obtain rfl : Binary64.ofInt n = x := (Binary64.isNearest_ofInt n).unique nearest signed.symm
    exact toValue_of_plainValue? ((plainValue?_of_fractional fractional).1 _)
  | float fractional => exact toValue_of_plainValue? ((plainValue?_of_fractional fractional).1 _)
  | floatText fractional spelled =>
    refine toValue_of_plainValue? (((plainValue?_of_fractional fractional).2 _).trans ?_)
    rw [float?_eq_some_iff.mpr spelled]
    rfl
  | text textual =>
    simp only [List.mem_cons, List.not_mem_nil, or_false] at textual
    rcases textual with rfl | rfl <;> rfl
  | cast sent =>
    simp only [List.mem_cons, List.not_mem_nil, or_false, Prod.mk.injEq] at sent
    rcases sent with ⟨rfl, rfl⟩ | ⟨rfl, rfl⟩ | ⟨rfl, rfl⟩ | ⟨rfl, rfl⟩ <;> rfl
  | bool => rfl

end Constant

/-- **A constant stands for one value only.** -/
theorem StandsFor.unique {enumTypes : Dict EnumType} {type : ValueType} {value : Json}
    {v w : Value} (left : StandsFor enumTypes type value v)
    (right : StandsFor enumTypes type value w) : v = w := by
  rw [← Constant.toValue_eq_ok_iff] at left right
  exact Except.ok.inj (left.symm.trans right)

/-- **The value of a constant, as the compiler computes it.** -/
theorem Schema.typedConstant_eq (schema : Schema) (e : Engine) (type : ValueType) (value : Json) :
    schema.typedConstant e type value
      = (Constant.toValue schema.enumTypes type.type type.enumType? value).toOption.bind
        e.parameter := by
  unfold typedConstant
  split
  · rename_i h
    rw [Constant.toValue_eq_ok_iff.mpr h.choose_spec]
    rfl
  · rename_i h
    cases computed : Constant.toValue schema.enumTypes type.type type.enumType? value with
    | error => rfl
    | ok v => exact absurd ⟨v, Constant.toValue_eq_ok_iff.mp computed⟩ h

theorem Schema.typedConstant_null (schema : Schema) (e : Engine) (type : ValueType) :
    schema.typedConstant e type .null = none := by
  rw [typedConstant_eq]
  rfl

namespace Compile

/-- The type of values that the compiler gives to constants. -/
def OperandType.valueType : OperandType → ValueType
  | .field info => ⟨info.type, info.enumType?⟩
  | .count => .ofCount

theorem constantValue_eq (schema : Schema) (type : OperandType) (value : Json) :
    constantValue schema type value = Constant.toValue schema.enumTypes type.valueType.type
      type.valueType.enumType? value := by
  cases type <;> rfl

/-- **A constant is bound to its value** where a side of a comparison gives it a type. -/
theorem typedConstant_of_constantValue {schema : Schema} {type : OperandType} {value : Json}
    {v : Value} (h : constantValue schema type value = .ok v) (e : Engine) :
    schema.typedConstant e type.valueType value = e.parameter v := by
  rw [Schema.typedConstant_eq, ← constantValue_eq, h]
  rfl

end Compile

end ResourceQuery
