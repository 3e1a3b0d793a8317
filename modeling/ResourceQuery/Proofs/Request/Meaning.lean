import ResourceQuery.Proofs.Decimal.Spelled
import ResourceQuery.Proofs.Schema.Tables
import ResourceQuery.Proofs.Sql.Semantics
import ResourceQuery.Request.Basic

/-!
# What filters mean

The meaning of a filter on one stored row, in three-valued logic and without reference to any
statement: paths are followed row by row through the stored keys, and constants are read by what
they spell.

## Main Definitions

- `Schema.relatedRows`: the rows that a relationship leads to from a row.
- `Schema.follow`: the row at the end of a path of to-one relationships.
- `Schema.stored?`: the column behind a field and the type of its values.
- `StandsFor`: the value that a constant stands for where values of a type are expected.
- `ComparisonKind.relation`: the relation that a comparison asks for.
- `Filter.meaning`: the truth of a filter on a row.
- `Schema.KeysNullable`: no foreign key of a to-one relationship is required.
- `Schema.Keyed`: a database in which identifiers, and keys that point back to one row, are unique.

## Design Notes

A path is null from the first step on that leads nowhere.  A constant takes the type of the other
side of its comparison, or of the field whose values are listed.  Nothing here refers to how filters
are compiled: fields, relations and constants have their own descriptions, and that the compiler's
are the same is proved apart.  A constant stands for a value by a relation, because the number
nearest to a decimal is described rather than computed; so the meaning of filters is not executable.
-/

namespace ResourceQuery

open Sql (Engine Row Database Truth)

variable {e : Engine}

/-! ### Rows along paths -/

namespace Schema

/-- **The rows that a relationship leads to from a row**: those whose key column equals that of the
row. -/
def relatedRows (schema : Schema) (db : Database e) (resourceType name : String) (row : Row e) :
    List (Row e) :=
  match schema.foreignKeyOf resourceType name, schema.resourceType resourceType,
      schema.resourceType (schema.targetOf resourceType name) with
  | .ok key, .ok source, .ok target =>
    let columns := key.columnNames source.idColumn target.idColumn
    (db target.tableName).filter (fun other => e.same (row columns.1) (other columns.2))
  | _, _, _ => []

/-- The row at the end of a path of to-one relationships, if every step leads to one. -/
def follow (schema : Schema) (db : Database e) :
    String → Path → Option (Row e) → Option (Row e)
  | _, [], row? => row?
  | resourceType, name :: rest, row? =>
    schema.follow db (schema.targetOf resourceType name) rest
      (row?.bind (fun row => (schema.relatedRows db resourceType name row).head?))

/-- The rows at the end of a path whose last step is a to-many relationship. -/
def rowsAt (schema : Schema) (db : Database e) (resourceType : String) (path : Path)
    (row : Row e) : List (Row e) :=
  match path.getLast?, schema.follow db resourceType path.dropLast (some row) with
  | some name, some owner =>
    schema.relatedRows db (schema.destination resourceType path.dropLast) name owner
  | _, _ => []

end Schema

/-! ### Fields -/

/-- What the values of a column are. -/
structure ValueType where
  type : ScalarType
  /-- The enumeration whose members are stored. -/
  enumType? : Option String
deriving DecidableEq

/-- The type of a number of rows. -/
def ValueType.ofCount : ValueType :=
  ⟨.bigint, none⟩

/-- The column behind a field, and the enumeration whose members it stores.  Calculated attributes
have none. -/
def ResourceType.columnOf? (info : ResourceType) (field : String) :
    Option (String × Option String) :=
  if field = "id" then some (info.idColumn, none)
  else do
    let found ← info.attributes.get? field
    let name ← found.column?
    return (name, found.enumType?)

namespace Schema

/-- The column behind a field and the type of its values. -/
def stored? (schema : Schema) (resourceType field : String) : Option (String × ValueType) := do
  let info ← schema.resourceTypes.get? resourceType
  let (name, enumType?) ← info.columnOf? field
  let column ← info.columns.get? name
  return (name, ⟨column.type, enumType?⟩)

/-- The column of the field at the end of a path and the type of its values. -/
def fieldAt? (schema : Schema) (resourceType : String) (path : Path) :
    Option (String × ValueType) :=
  path.getLast?.bind (schema.stored? (schema.destination resourceType path.dropLast))

/-- The value of the field at the end of a path. -/
def valueAt (schema : Schema) (db : Database e) (resourceType : String) (path : Path)
    (row : Row e) : Option e.Datum :=
  match schema.fieldAt? resourceType path,
      schema.follow db resourceType path.dropLast (some row) with
  | some (column, _), some owner => owner column
  | _, _ => none

end Schema

/-! ### Constants -/

/-- **The value that a constant stands for** where values of a type are expected. -/
inductive StandsFor (enumTypes : Dict EnumType) : ValueType → Json → Sql.Value → Prop
  | null {type : ValueType} : StandsFor enumTypes type .null .null
  /-- The name of a member of an enumeration stands for the integer that is stored for it. -/
  | member {type : ScalarType} {enumType name : String} {members : EnumType} {n : Int64}
      (declared : enumTypes.get? enumType = some members) (named : members.get? name = some n) :
      StandsFor enumTypes ⟨type, some enumType⟩ (.string name) (.int n)
  /-- The integer that is stored for a member stands for itself. -/
  | stored {type : ScalarType} {enumType : String} {n : Int64} :
      StandsFor enumTypes ⟨type, some enumType⟩ (.ofInt64 n) (.int n)
  | integer {type : ScalarType} {n : Int64}
      (whole : type ∈ [ScalarType.smallint, .integer, .bigint]) :
      StandsFor enumTypes ⟨type, none⟩ (.ofInt64 n) (.int n)
  | integerText {type : ScalarType} {text : String} {n : Int64}
      (whole : type ∈ [ScalarType.smallint, .integer, .bigint])
      (spelled : SpellsInteger text.toList n.toInt) :
      StandsFor enumTypes ⟨type, none⟩ (.string text) (.int n)
  /-- An integer among fractions stands for the number nearest to it. -/
  | rounded {type : ScalarType} {n : Int} {x : Binary64}
      {bounds : -9223372036854775808 ≤ n ∧ n < 18446744073709551616}
      (fractional : type ∈ [ScalarType.real, .doublePrecision, .numeric])
      (signed : x.negative = decide (n < 0)) (nearest : x.IsNearest |(n : ℚ)|) :
      StandsFor enumTypes ⟨type, none⟩ (.number (.int n bounds)) (.float x)
  | float {type : ScalarType} {x : Binary64} {finite : x.isFinite = true}
      (fractional : type ∈ [ScalarType.real, .doublePrecision, .numeric]) :
      StandsFor enumTypes ⟨type, none⟩ (.number (.float x finite)) (.float x)
  | floatText {type : ScalarType} {text : String} {x : Binary64}
      (fractional : type ∈ [ScalarType.real, .doublePrecision, .numeric])
      (spelled : SpellsFloat text.toList x) :
      StandsFor enumTypes ⟨type, none⟩ (.string text) (.float x)
  | text {type : ScalarType} {text : String}
      (textual : type ∈ [ScalarType.characterVarying, .text]) :
      StandsFor enumTypes ⟨type, none⟩ (.string text) (.string text)
  /-- The database reads texts of the types whose values are sent as text. -/
  | cast {type : ScalarType} {cast : Sql.CastType} {text : String}
      (sent : (type, cast) ∈ [(ScalarType.date, Sql.CastType.date),
        (.timestampWithoutTimeZone, .timestamp),
        (.timestampWithTimeZone, .timestampWithTimeZone), (.uuid, .uuid)]) :
      StandsFor enumTypes ⟨type, none⟩ (.string text) (.cast text cast)
  | bool {b : Bool} : StandsFor enumTypes ⟨.boolean, none⟩ (.bool b) (.bool b)

open Classical in
/-- The value of a constant of a type, if it stands for one.  Well defined by `StandsFor.unique`. -/
noncomputable def Schema.typedConstant (schema : Schema) (e : Engine) (type : ValueType)
    (value : Json) : Option e.Datum :=
  if h : ∃ v, StandsFor schema.enumTypes type value v then e.parameter h.choose else none

/-! ### Comparisons -/

namespace Expression

/-- Is a side of a comparison the word for null. -/
def isNull : Expression → Bool
  | .constant value => value = .null
  | .null => true
  | _ => false

/-- The type that a side of a comparison gives to a constant on the other. -/
def type? (schema : Schema) (resourceType : String) : Expression → Option ValueType
  | .field path => (schema.fieldAt? resourceType path).map Prod.snd
  | .count _ => some .ofCount
  | .constant _ => none
  | .null => none

/-- The value of a side of a comparison, in which constants have a type. -/
noncomputable def meaning (schema : Schema) (db : Database e) (resourceType : String)
    (type : ValueType) (row : Row e) : Expression → Option e.Datum
  | .field path => schema.valueAt db resourceType path row
  | .count path => some (e.ofNumber (schema.rowsAt db resourceType path row).length)
  | .constant value => schema.typedConstant e type value
  | .null => none

end Expression

/-- The relation between the values of both sides that a comparison asks for. -/
def ComparisonKind.relation : ComparisonKind → Sql.ComparisonOp
  | .equals => .equal
  | .lessThan => .less
  | .lessOrEqual => .lessOrEqual
  | .greaterThan => .greater
  | .greaterOrEqual => .greaterOrEqual

/-- The truth of a comparison on a row.  Equality with null tests for null. -/
noncomputable def ComparisonKind.meaning (schema : Schema) (db : Database e) (resourceType : String)
    (kind : ComparisonKind) (left right : Expression) (row : Row e) : Truth :=
  match left.type? schema resourceType <|> right.type? schema resourceType with
  | none => .unknown
  | some type =>
    let v := left.meaning schema db resourceType type row
    let w := right.meaning schema db resourceType type row
    if kind = .equals ∧ (left.isNull || right.isNull) = true then .ofBool (v.isNone && w.isNone)
    else e.compare kind.relation v w

/-! ### Filters -/

namespace Filter

mutual

/-- **The truth of a filter on a row.** -/
noncomputable def meaning (schema : Schema) (db : Database e) (resourceType : String) :
    Filter → Row e → Truth
  | .comparison kind left right, row => kind.meaning schema db resourceType left right row
  | .and terms, row => Truth.all (meanings schema db resourceType terms row)
  | .or terms, row => Truth.any (meanings schema db resourceType terms row)
  | .not term, row => (meaning schema db resourceType term row).not
  | .textMatch field text kind, row =>
    e.like (schema.valueAt db resourceType field row) text kind
  | .any field values, row =>
    let v := schema.valueAt db resourceType field row
    match schema.fieldAt? resourceType field with
    | none => .unknown
    | some (_, type) => Truth.any (values.map (fun value =>
        if value = .null then .ofBool v.isNone
        else e.compare .equal v (schema.typedConstant e type value)))
  | .has relationship filter?, row =>
    let target := schema.destination resourceType relationship
    .ofBool ((schema.rowsAt db resourceType relationship row).any (fun other =>
      (optionMeaning schema db target filter? other).isTrue))
  | .isType _ _, _ => .unknown

/-- The truth of several filters on a row. -/
noncomputable def meanings (schema : Schema) (db : Database e) (resourceType : String) :
    List Filter → Row e → List Truth
  | [], _ => []
  | term :: rest, row =>
    meaning schema db resourceType term row :: meanings schema db resourceType rest row

/-- The truth of a filter that may be absent on a row. -/
noncomputable def optionMeaning (schema : Schema) (db : Database e) (resourceType : String) :
    Option Filter → Row e → Truth
  | none, _ => .holds
  | some filter, row => meaning schema db resourceType filter row

end

end Filter

/-! ### Keys -/

/-- No foreign key of a to-one relationship is required. -/
def Schema.KeysNullable (schema : Schema) : Prop :=
  ∀ r ∈ schema.allRelationships, r.2.2.isToOne = true →
    ∀ key ∈ (schema.foreignKeyOf r.1 r.2.1).toOption, key.nullable = true

instance (schema : Schema) : Decidable schema.KeysNullable :=
  inferInstanceAs (Decidable (∀ r ∈ schema.allRelationships, r.2.2.isToOne = true →
    ∀ key ∈ (schema.foreignKeyOf r.1 r.2.1).toOption, key.nullable = true))

/-- No value other than null occurs twice in a column. -/
def Sql.Engine.Distinct (e : Engine) (rows : List (Row e)) (column : String) : Prop :=
  rows.Pairwise (fun row other => e.same (row column) (other column) = false)

instance (e : Engine) (rows : List (Row e)) (column : String) :
    Decidable (e.Distinct rows column) :=
  inferInstanceAs (Decidable (rows.Pairwise
    (fun row other => e.same (row column) (other column) = false)))

/-- **A database with keys**: no identifier occurs twice in a table, and no value occurs twice in a
column by which rows point back to the one row that they belong to. -/
structure Schema.Keyed (schema : Schema) (db : Database e) : Prop where
  identifiers : ∀ t ∈ schema.resourceTypes.entries,
    e.Distinct (db t.2.tableName) t.2.idColumn
  pointers : ∀ r ∈ schema.allRelationships, r.2.2.isToOne = true →
    r.2.2.foreignKey.ownedBy = .right →
    ∀ target ∈ (schema.resourceType r.2.2.target).toOption,
      e.Distinct (db target.tableName) r.2.2.foreignKey.column

end ResourceQuery
