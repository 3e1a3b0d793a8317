import ResourceQuery.Compile.Constant
import ResourceQuery.Compile.Follow

/-!
# Filters as conditions

## Main Definitions

- `Filter.compile`: the condition on the rows of a table that a filter stands for.
- `Compile.comparison`: a comparison, in which constants take the type of the other side.
-/

namespace ResourceQuery

open Sql (Table Condition Operand)

namespace Compile

/-! ### Comparisons -/

/-- What gives constants their type. -/
inductive OperandType where
  | field (info : FieldColumn)
  /-- A number of rows. -/
  | count
deriving DecidableEq

/-- A side of a comparison before constants have been typed. -/
inductive PendingOperand where
  | typed (operand : Operand) (type : OperandType)
  | constant (value : Json)
  | null

/-- The type that a side gives to the other. -/
def PendingOperand.type? : PendingOperand → Option OperandType
  | typed _ type => some type
  | _ => none

/-- A constant as a value of a type. -/
def constantValue (schema : Schema) (type : OperandType) (value : Json) :
    Except CompileError Sql.Value :=
  match type with
  | .field info => Constant.toValue schema.enumTypes info.type info.enumType? value
  | .count => Constant.toValue schema.enumTypes .bigint none value

/-- Compile a side of a comparison, except for constants. -/
def pendingOperand (schema : Schema) (table : Table) : Expression → Compile PendingOperand
  | .field path => do
    let (column, info) ← fieldColumn schema table path
    return .typed (.column column) (.field info)
  | .count relationship => do
    let select ← relatedCount schema table relationship .count
    return .typed (.count select) .count
  | .constant value => return if value = .null then .null else .constant value
  | .null => return .null

/-- Give a constant its type. -/
def finishOperand (schema : Schema) (type : OperandType) : PendingOperand → Compile Operand
  | .typed operand _ => return operand
  | .null => return .null
  | .constant value => do
    let value ← lift (constantValue schema type value)
    return .parameter (← newParameter value)

/-- The operator of a comparison. -/
def comparisonOp : ComparisonKind → Sql.ComparisonOp
  | .equals => .equal
  | .lessThan => .less
  | .lessOrEqual => .lessOrEqual
  | .greaterThan => .greater
  | .greaterOrEqual => .greaterOrEqual

/-- A comparison.  One side has to have a type, and null is compared for equality only. -/
def comparison (schema : Schema) (table : Table) (kind : ComparisonKind)
    (left right : Expression) : Compile Condition := do
  let left ← pendingOperand schema table left
  let right ← pendingOperand schema table right
  match left.type? <|> right.type? with
  | none => fail (.unsupported .untypedComparison)
  | some type =>
    let left ← finishOperand schema type left
    let right ← finishOperand schema type right
    if (left.isNull || right.isNull) && kind ≠ .equals then
      fail (.unsupported .orderingWithNull)
    else return .comparison left (comparisonOp kind) right

/-! ### Texts and lists of values -/

/-- A text occurs in a field.  Only columns of text can be matched. -/
def textMatch (schema : Schema) (table : Table) (path : Path) (text : String)
    (kind : Sql.MatchKind) : Compile Condition := do
  let (column, info) ← fieldColumn schema table path
  if info.type.matchesText then return .like column text kind
  else fail (.typeMismatch (.string text) info.type)

/-- Parameters for the values of a list. -/
def parameters (schema : Schema) (type : OperandType) : List Json → Compile (List Sql.Parameter)
  | [] => return []
  | value :: rest => do
    let value ← lift (constantValue schema type value)
    let p ← newParameter value
    return p :: (← parameters schema type rest)

/-- The terms of a list of values: one for those that are not null, one for null. -/
def anyTerms (column : Sql.Column) (values : List Sql.Parameter) (withNull : Bool) :
    List Condition :=
  (if values.isEmpty then [] else [Condition.equalsAny column values])
    ++ (if withNull then [Condition.isNull column] else [])

/-- A field equals one of several values. -/
def anyOf (schema : Schema) (table : Table) (path : Path) (values : List Json) :
    Compile Condition := do
  if values.isEmpty then fail (.unsupported .anyWithoutValues)
  else
    let (column, info) ← fieldColumn schema table path
    let given ← parameters schema (.field info) (values.filter (fun v => v ≠ .null))
    return Condition.any (anyTerms column given (values.any (fun v => v = .null)))

end Compile

/-! ### Filters -/

namespace Filter

open Compile (comparison textMatch anyOf followToMany correlated fail)

mutual

/-- The condition on the rows of a table that a filter stands for. -/
def compile (schema : Schema) (table : Table) : Filter → Compile Condition
  | .comparison kind left right => Compile.comparison schema table kind left right
  | .and terms =>
    if terms.isEmpty then fail (.unsupported .andWithoutTerms)
    else do return Condition.all (← compileAll schema table terms)
  | .or terms =>
    if terms.isEmpty then fail (.unsupported .orWithoutTerms)
    else do return Condition.any (← compileAll schema table terms)
  | .not term => do return .not (← compile schema table term)
  | .textMatch field text kind => Compile.textMatch schema table field text kind
  | .any field values => anyOf schema table field values
  | .has relationship filter? => do
    let (owner, name) ← followToMany schema table relationship .has
    let select ← correlated schema owner name .one
      (fun target => compileOption schema target filter?)
    return .nonempty select
  | .isType _ _ => fail (.unsupported .typeNarrowing)

/-- The conditions that several filters stand for. -/
def compileAll (schema : Schema) (table : Table) : List Filter → Compile (List Condition)
  | [] => return []
  | term :: rest => do
    let condition ← compile schema table term
    return condition :: (← compileAll schema table rest)

/-- The condition that a filter stands for, if there is one. -/
def compileOption (schema : Schema) (table : Table) :
    Option Filter → Compile (Option Condition)
  | none => return none
  | some filter => do return some (← compile schema table filter)

end

end Filter

end ResourceQuery
