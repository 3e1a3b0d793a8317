import ResourceQuery.Proofs.Compile.Lockstep
import ResourceQuery.Proofs.Request.Likeness

/-!
# Filters that are alike

A constant leaves no trace in a condition but the conversion behind its placeholder, and this
depends on the column that the constant is compared with.  So filters that differ only in constants
become conditions that differ only in values.

## Main Definitions

- `Constant.erased`: what is left of a constant for a column of a type.

## Main Statements

- `Constant.erase_toValue`: what is left of a constant depends on the column alone.
- `Filter.Alike.lockstep`: filters that are alike become conditions that differ only in values.
-/

namespace ResourceQuery

open Sql (Table Column Condition Parameter Value Operand)

/-! ### Constants -/

namespace Constant

/-- What is left of a constant for a column of a type: the conversion, for types whose values are
sent as text. -/
def erased (type : ScalarType) (enumType? : Option String) : Value :=
  match enumType?, type with
  | none, .date => .cast "" .date
  | none, .timestampWithoutTimeZone => .cast "" .timestamp
  | none, .timestampWithTimeZone => .cast "" .timestampWithTimeZone
  | none, .uuid => .cast "" .uuid
  | _, _ => .null

theorem erase_numberValue? {type : ScalarType} {n : Json.Number} {value : Value}
    (h : numberValue? type n = some value) : value.erase = erased type none := by
  cases type with
  | smallint | integer | bigint =>
    obtain ⟨_, -, rfl⟩ := Option.map_eq_some_iff.mp h
    rfl
  | real | doublePrecision | numeric =>
    cases h
    rfl
  | _ => cases h

theorem erase_stringValue? {type : ScalarType} {text : String} {value : Value}
    (h : stringValue? type text = some value) : value.erase = erased type none := by
  cases type with
  | smallint | integer | bigint | real | doublePrecision | numeric =>
    obtain ⟨_, -, rfl⟩ := Option.map_eq_some_iff.mp h
    rfl
  | boolean => cases h
  | _ =>
    cases h
    rfl

theorem erase_plainValue? {type : ScalarType} {json : Json} {value : Value}
    (h : plainValue? type json = some value) : value.erase = erased type none := by
  cases json with
  | number n => exact erase_numberValue? h
  | string text => exact erase_stringValue? h
  | bool b =>
    simp only [plainValue?] at h
    split at h
    · rename_i isBoolean
      cases h
      rw [isBoolean]
      rfl
    · cases h
  | _ => cases h

theorem erase_enumValue {enumTypes : Dict EnumType} {enumType : String} {type : ScalarType}
    {json : Json} {value : Value} (h : enumValue enumTypes enumType type json = .ok value) :
    value.erase = .null := by
  unfold enumValue at h
  repeat' split at h
  all_goals cases h
  all_goals rfl

/-- **What is left of a constant depends on the column alone.** -/
theorem erase_toValue {enumTypes : Dict EnumType} {type : ScalarType} {enumType? : Option String}
    {json : Json} {value : Value} (given : json ≠ .null)
    (h : toValue enumTypes type enumType? json = .ok value) :
    value.erase = erased type enumType? := by
  unfold toValue at h
  rw [if_neg given] at h
  cases enumType? with
  | some enumType => exact erase_enumValue h
  | none =>
    dsimp only at h
    split at h
    · rename_i v hv
      cases h
      exact erase_plainValue? hv
    · cases h

end Constant

namespace Compile

/-- Constants of one type differ only in value. -/
theorem lockstep_constantValue {schema : Schema} {type : OperandType} {v w : Json}
    (left : v ≠ .null) (right : w ≠ .null) :
    Lockstep (fun x y => x.erase = y.erase) (lift (constantValue schema type v))
      (lift (constantValue schema type w)) := by
  refine lockstep_lift fun x y hx hy => ?_
  cases type with
  | field info => rw [Constant.erase_toValue left hx, Constant.erase_toValue right hy]
  | count =>
    rw [constantValue] at hx hy
    rw [Constant.erase_toValue left hx, Constant.erase_toValue right hy]

/-! ### Comparisons -/

/-- Two sides before constants have been typed, which differ only in constants and values. -/
inductive PendingOperand.Alike : PendingOperand → PendingOperand → Prop
  | typed {operand operand' : Operand} {type : OperandType}
      (same : operand.erase = operand'.erase) : Alike (.typed operand type) (.typed operand' type)
  | constant {v w : Json} (left : v ≠ .null) (right : w ≠ .null) : Alike (.constant v) (.constant w)
  | null : Alike .null .null

variable {schema : Schema} {table : Table}

theorem PendingOperand.Alike.type?_eq {operand operand' : PendingOperand}
    (alike : operand.Alike operand') : operand.type? = operand'.type? := by
  cases alike <;> rfl

theorem lockstep_pendingOperand {e e' : Expression} (alike : e.Alike e') :
    Lockstep PendingOperand.Alike (pendingOperand schema table e)
      (pendingOperand schema table e') := by
  cases alike with
  | same e =>
    cases e with
    | field path =>
      exact (lockstep_fieldColumn _ _ _).bind_eq fun found => lockstep_pure (.typed rfl)
    | count path =>
      refine (lockstep_relatedCount _ _ _ _).bind fun s s' same => lockstep_pure (.typed ?_)
      rw [Operand.erase, Operand.erase, same]
    | constant value =>
      refine lockstep_pure ?_
      split
      · exact .null
      · exact .constant ‹_› ‹_›
    | null => exact lockstep_pure .null
  | constants left right =>
    refine lockstep_pure ?_
    rw [if_neg left, if_neg right]
    exact .constant left right

theorem lockstep_finishOperand {type : OperandType} {operand operand' : PendingOperand}
    (alike : operand.Alike operand') :
    Lockstep (fun o o' => o.erase = o'.erase) (finishOperand schema type operand)
      (finishOperand schema type operand') := by
  cases alike with
  | typed same => exact lockstep_pure same
  | null => exact lockstep_pure rfl
  | constant left right =>
    refine (lockstep_constantValue left right).bind fun x y same => ?_
    refine (lockstep_newParameter same).bind fun p p' same => lockstep_pure ?_
    rw [Operand.erase, Operand.erase, same]

/-- Comparisons of sides that are alike differ only in values. -/
theorem lockstep_comparison {kind : ComparisonKind} {left left' right right' : Expression}
    (lefts : left.Alike left') (rights : right.Alike right') :
    Lockstep (fun c c' => c.erase = c'.erase) (comparison schema table kind left right)
      (comparison schema table kind left' right') := by
  refine (lockstep_pendingOperand lefts).bind fun l l' lefts => ?_
  refine (lockstep_pendingOperand rights).bind fun r r' rights => ?_
  rw [lefts.type?_eq, rights.type?_eq]
  split
  · exact lockstep_fail
  · refine (lockstep_finishOperand lefts).bind fun l l' lefts => ?_
    refine (lockstep_finishOperand rights).bind fun r r' rights => ?_
    have nulls : (l.isNull || r.isNull) = (l'.isNull || r'.isNull) := by
      rw [← l.isNull_erase, ← r.isNull_erase, lefts, rights, l'.isNull_erase, r'.isNull_erase]
    rw [nulls]
    split
    · exact lockstep_fail
    · refine lockstep_pure ?_
      rw [Condition.erase, Condition.erase, lefts, rights]

/-! ### Lists of values -/

theorem lockstep_parameters {type : OperandType} {values values' : List Json}
    (given : ∀ v ∈ values, v ≠ .null) (given' : ∀ v ∈ values', v ≠ .null)
    (number : values.length = values'.length) :
    Lockstep (fun ps ps' => ps.map Parameter.erase = ps'.map Parameter.erase)
      (parameters schema type values) (parameters schema type values') := by
  induction values generalizing values' with
  | nil =>
    cases values' with
    | nil => exact lockstep_pure rfl
    | cons => cases number
  | cons v rest ih =>
    cases values' with
    | nil => cases number
    | cons v' rest' =>
      obtain ⟨first, others⟩ := List.forall_mem_cons.mp given
      obtain ⟨first', others'⟩ := List.forall_mem_cons.mp given'
      refine (lockstep_constantValue first first').bind fun x y same => ?_
      refine (lockstep_newParameter same).bind fun p p' same => ?_
      refine (ih others others' (Nat.succ.inj number)).bind fun ps ps' rest => lockstep_pure ?_
      rw [List.map_cons, List.map_cons, same, rest]

theorem eraseAll_anyTerms (column : Column) (values : List Parameter) (withNull : Bool) :
    Condition.eraseAll (anyTerms column values withNull)
      = anyTerms column (values.map Parameter.erase) withNull := by
  have null : (Condition.isNull column).erase = Condition.isNull column := rfl
  simp only [Condition.eraseAll_eq_map, anyTerms, List.map_append, List.isEmpty_map, null,
    Condition.equalsAny_map_erase, apply_ite (List.map Condition.erase), List.map_cons,
    List.map_nil]

/-- Lists with equally many values differ only in values, if both or neither have a null. -/
theorem lockstep_anyOf {path : Path} {values values' : List Json}
    (number : (values.filter (fun v => v ≠ .null)).length
      = (values'.filter (fun v => v ≠ .null)).length)
    (null : .null ∈ values ↔ .null ∈ values') :
    Lockstep (fun c c' => c.erase = c'.erase) (anyOf schema table path values)
      (anyOf schema table path values') := by
  have given : ∀ values : List Json, ∀ v ∈ values.filter (fun v => v ≠ .null), v ≠ .null := by
    intro values v mem
    exact of_decide_eq_true (List.mem_filter.mp mem).2
  have nulls : values.any (fun v => v = .null) = values'.any (fun v => v = .null) := by
    rw [Bool.eq_iff_iff]
    simp only [List.any_eq_true, decide_eq_true_eq, exists_eq_right, null]
  refine Lockstep.ite_fail ?_
  refine (lockstep_fieldColumn _ _ _).bind_eq fun found => ?_
  refine (lockstep_parameters (given values) (given values') number).bind
    fun ps ps' same => lockstep_pure ?_
  rw [Condition.any, Condition.any, ← Condition.combine_eraseAll, ← Condition.combine_eraseAll,
    eraseAll_anyTerms, eraseAll_anyTerms, same, nulls]

end Compile

/-! ### Filters -/

namespace Filter

open Compile (Lockstep lockstep_pure lockstep_fail)

variable {schema : Schema}

mutual

/-- **Filters that are alike become conditions that differ only in values.** -/
theorem Alike.lockstep {table : Table} : {filter filter' : Filter} → filter.Alike filter' →
    Lockstep (fun c c' => c.erase = c'.erase) (filter.compile schema table)
      (filter'.compile schema table)
  | _, _, .comparison lefts rights => by
    rw [compile, compile]
    exact Compile.lockstep_comparison lefts rights
  | _, _, .and all => by
    rw [compile, compile]
    refine Lockstep.ite_fail ?_
    refine (AllAlike.lockstep all).bind fun cs cs' same => lockstep_pure ?_
    rw [Condition.all, Condition.all, ← Condition.combine_eraseAll,
      ← Condition.combine_eraseAll, same]
  | _, _, .or all => by
    rw [compile, compile]
    refine Lockstep.ite_fail ?_
    refine (AllAlike.lockstep all).bind fun cs cs' same => lockstep_pure ?_
    rw [Condition.any, Condition.any, ← Condition.combine_eraseAll,
      ← Condition.combine_eraseAll, same]
  | _, _, .not inner => by
    rw [compile, compile]
    refine (Alike.lockstep inner).bind fun c c' same => lockstep_pure ?_
    rw [Condition.erase, Condition.erase, same]
  | _, _, .textMatch => by
    rw [compile]
    refine (Compile.lockstep_fieldColumn _ _ _).bind_eq fun found => ?_
    dsimp only
    split
    · exact lockstep_pure rfl
    · exact lockstep_fail
  | _, _, .any number null => by
    rw [compile, compile]
    exact Compile.lockstep_anyOf number null
  | _, _, .has inner => by
    rw [compile, compile]
    refine (Compile.lockstep_followToMany _ _ _ _).bind_eq fun found => ?_
    refine (Lockstep.correlated fun target => OptionAlike.lockstep inner).bind
      fun s s' same => lockstep_pure ?_
    rw [Condition.erase, Condition.erase, same]
  | _, _, .isType => by
    rw [compile]
    exact lockstep_fail

theorem AllAlike.lockstep {table : Table} : {terms terms' : List Filter} → AllAlike terms terms' →
    Lockstep (fun cs cs' => Condition.eraseAll cs = Condition.eraseAll cs')
      (compileAll schema table terms) (compileAll schema table terms')
  | _, _, .nil => by
    rw [compileAll]
    exact lockstep_pure rfl
  | _, _, .cons first others => by
    rw [compileAll, compileAll]
    refine (Alike.lockstep first).bind fun c c' same => ?_
    refine (AllAlike.lockstep others).bind fun cs cs' rest => lockstep_pure ?_
    rw [Condition.eraseAll, Condition.eraseAll, same, rest]

theorem OptionAlike.lockstep {table : Table} : {filter? filter?' : Option Filter} →
    OptionAlike filter? filter?' →
    Lockstep (fun c c' => Condition.eraseOption c = Condition.eraseOption c')
      (compileOption schema table filter?) (compileOption schema table filter?')
  | _, _, .none => by
    rw [compileOption]
    exact lockstep_pure rfl
  | _, _, .some inner => by
    rw [compileOption, compileOption]
    refine (Alike.lockstep inner).bind fun c c' same => lockstep_pure ?_
    rw [Condition.eraseOption, Condition.eraseOption, same]

end

end Filter

end ResourceQuery
