import ResourceQuery.Proofs.Sql.Occurrences

/-!
# Conditions in normal form

A condition is in normal form if its text says something everywhere: at least two terms are
combined, and none of them by the same operator again, a list has at least two values, and null is
only compared with what is not null, and only for equality.

## Main Definitions

- `Condition.isNormal`: a condition is in normal form, apart from the queries inside it.
- `Select.AllNormal`: the conditions of some queries are in normal form.
- `Statement.IsNormal`: all conditions of a statement are in normal form, at every depth.

## Main Statements

- `Condition.isNormal_combine`: terms in normal form are combined into a condition in normal form.
- `Select.AllNormal.restrict`, `Select.AllNormal.repair`: adding a condition to a query and
  redirecting its references keep the normal form.
-/

namespace ResourceQuery.Sql

/-- Are terms combined by an operator. -/
def Condition.isCombinedBy (op : LogicalOp) : Condition → Bool
  | .logical inner _ => inner = op
  | _ => false

mutual

/-- **A condition is in normal form**, apart from the queries inside it: at least two terms are
combined, and none of them by the same operator again, a list has at least two values, and at most
one side of a comparison is null, which is then compared for equality. -/
def Condition.isNormal : Condition → Bool
  | .comparison left op right =>
    !(left.isNull && right.isNull) && (!(left.isNull || right.isNull) || op = .equal)
  | .logical op terms => decide (2 ≤ terms.length) && Condition.areTerms op terms
  | .not term => Condition.isNormal term
  | .like _ _ _ => true
  | .isIn _ values => decide (2 ≤ values.length)
  | .nonempty _ => true

/-- Conditions in normal form that are not combined by an operator themselves. -/
def Condition.areTerms (op : LogicalOp) : List Condition → Bool
  | [] => true
  | term :: rest =>
    !term.isCombinedBy op && Condition.isNormal term && Condition.areTerms op rest

end

/-- The condition of a query is in normal form, if it has one. -/
def Select.HasNormalFilter (s : Select) : Prop :=
  ∀ condition ∈ s.filter?, condition.isNormal = true

/-- **The conditions of some queries are in normal form.** -/
def Select.AllNormal (nodes : List Select) : Prop :=
  ∀ node ∈ nodes, node.HasNormalFilter

namespace Statement

/-- The queries inside a statement. -/
def nodes : Statement → List Select
  | select query => query.nodes
  | insert _ assignments _ => assignments.flatMap (fun a => a.value.nodes)
  | update _ assignments filter => assignments.flatMap (fun a => a.value.nodes) ++ filter.nodes
  | delete _ filter => filter.nodes

/-- The condition that selects the rows a statement changes. -/
def filter? : Statement → Option Condition
  | select _ | insert _ _ _ => none
  | update _ _ filter | delete _ filter => some filter

/-- **All conditions of a statement are in normal form**, at every depth. -/
def IsNormal (s : Statement) : Prop :=
  (∀ condition ∈ s.filter?, condition.isNormal = true) ∧ Select.AllNormal s.nodes

end Statement

/-! ### Building conditions -/

namespace Condition

theorem isNormal_comparison {left right : Operand} {op : ComparisonOp} :
    (comparison left op right).isNormal = true ↔ (left.isNull && right.isNull) = false
      ∧ ((left.isNull || right.isNull) = true → op = .equal) := by
  rw [isNormal]
  cases left.isNull <;> cases right.isNull <;> simp

theorem areTerms_iff {op : LogicalOp} {terms : List Condition} :
    areTerms op terms = true
      ↔ ∀ term ∈ terms, term.isCombinedBy op = false ∧ term.isNormal = true := by
  induction terms with
  | nil => simp [areTerms]
  | cons term rest ih => simp [areTerms, ih, and_assoc]

theorem isNormal_logical {op : LogicalOp} {terms : List Condition} :
    (logical op terms).isNormal = true ↔ 2 ≤ terms.length
      ∧ ∀ term ∈ terms, term.isCombinedBy op = false ∧ term.isNormal = true := by
  rw [isNormal, Bool.and_eq_true, decide_eq_true_eq, areTerms_iff]

/-- What a condition in normal form contributes to a combination: one or more terms. -/
theorem termsFor_spec {op : LogicalOp} {c : Condition} (normal : c.isNormal = true) :
    termsFor op c ≠ []
      ∧ ∀ term ∈ termsFor op c, term.isCombinedBy op = false ∧ term.isNormal = true := by
  unfold termsFor
  split
  · rename_i inner terms
    split
    · rename_i same
      obtain ⟨two, each⟩ := isNormal_logical.mp normal
      subst same
      exact ⟨List.ne_nil_of_length_pos (by omega), each⟩
    · rename_i other
      exact ⟨List.cons_ne_nil _ _, by simpa [isCombinedBy, other] using normal⟩
  · rename_i plain
    refine ⟨List.cons_ne_nil _ _, ?_⟩
    have apart : c.isCombinedBy op = false := by
      cases c with
      | logical inner terms => exact absurd rfl (plain inner terms)
      | _ => rfl
    simpa using ⟨apart, normal⟩

/-- **Terms in normal form are combined into a condition in normal form**, if there are any. -/
theorem isNormal_combine (op : LogicalOp) {terms : List Condition} (some : terms ≠ [])
    (normal : ∀ term ∈ terms, term.isNormal = true) : (combine op terms).isNormal = true := by
  have parts : ∀ part ∈ terms.flatMap (termsFor op),
      part.isCombinedBy op = false ∧ part.isNormal = true := by
    intro part mem
    obtain ⟨term, listed, mem⟩ := List.mem_flatMap.mp mem
    exact (termsFor_spec (normal term listed)).2 part mem
  have nonempty : terms.flatMap (termsFor op) ≠ [] := by
    obtain ⟨term, rest, rfl⟩ := List.exists_cons_of_ne_nil some
    rw [List.flatMap_cons]
    exact List.append_ne_nil_of_left_ne_nil (termsFor_spec (normal term (.head _))).1 _
  unfold combine
  split
  · rename_i term single
    rw [single] at parts
    exact (parts term (.head _)).2
  · rename_i several
    refine isNormal_logical.mpr ⟨?_, parts⟩
    match h : terms.flatMap (termsFor op) with
    | [] => exact absurd h nonempty
    | [term] => exact absurd h (several term)
    | first :: second :: rest => simp

theorem isNormal_columnsEqual (left right : Column) : (columnsEqual left right).isNormal = true :=
  rfl

theorem isNormal_isNull (column : Column) : (isNull column).isNormal = true :=
  rfl

theorem isNormal_equalsAny (column : Column) {values : List Parameter} (some : values ≠ []) :
    (equalsAny column values).isNormal = true := by
  unfold equalsAny
  split
  · rfl
  · rename_i several
    match values, some with
    | [value], _ => exact absurd rfl (several value)
    | first :: second :: rest, _ => simp [isNormal]

end Condition

/-! ### Queries -/

namespace Select

@[simp] theorem allNormal_nil : AllNormal [] := by
  simp [AllNormal]

@[simp] theorem allNormal_append {nodes more : List Select} :
    AllNormal (nodes ++ more) ↔ AllNormal nodes ∧ AllNormal more :=
  List.forall_mem_append

@[simp] theorem allNormal_cons {node : Select} {rest : List Select} :
    AllNormal (node :: rest) ↔ node.HasNormalFilter ∧ AllNormal rest :=
  List.forall_mem_cons

theorem allNormal_flatMap {α : Type} {items : List α} {nodes : α → List Select} :
    AllNormal (items.flatMap nodes) ↔ ∀ item ∈ items, AllNormal (nodes item) := by
  simp only [AllNormal, List.mem_flatMap]
  constructor
  · exact fun all item mem node inside => all node ⟨item, mem, inside⟩
  · rintro all node ⟨item, mem, inside⟩
    exact all item mem node inside

/-- The conditions of a query and of the queries inside it. -/
theorem allNormal_nodes (s : Select) :
    AllNormal s.nodes ↔ s.HasNormalFilter
      ∧ AllNormal (Entry.allNodes s.entries) ∧ AllNormal (Condition.optionNodes s.filter?)
      ∧ AllNormal (OrderTerm.optionNodes s.order?) := by
  obtain ⟨entries, filter?, order?, limit?, alias?⟩ := s
  rw [nodes, allNormal_cons, allNormal_append, allNormal_append, and_assoc]

/-- **One more condition in normal form keeps a query in normal form.** -/
theorem AllNormal.restrict {s : Select} (normal : AllNormal s.nodes) {condition : Condition}
    (isNormal : condition.isNormal = true) (inside : AllNormal condition.nodes) :
    AllNormal (s.restrict condition).nodes := by
  obtain ⟨entries, filter?, order?, limit?, alias?⟩ := s
  rw [allNormal_nodes] at normal ⊢
  obtain ⟨own, sources, below, ordered⟩ := normal
  cases filter? with
  | none =>
    refine ⟨?_, sources, inside, ordered⟩
    simpa [HasNormalFilter, Select.restrict] using isNormal
  | some existing =>
    refine ⟨?_, sources, ?_, ordered⟩
    · rintro _ ⟨⟩
      refine Condition.isNormal_combine .and (List.cons_ne_nil _ _) ?_
      simpa using ⟨isNormal, own existing rfl⟩
    · show AllNormal (Condition.nodes (Condition.combine .and [condition, existing]))
      rw [Condition.nodes_combine, allNormal_flatMap]
      simpa using ⟨inside, below⟩

end Select

/-! ### Redirected references -/

theorem Operand.isNull_skeleton (a : Operand) : a.skeleton.isNull = a.isNull := by
  cases a <;> rfl

theorem Condition.isCombinedBy_skeleton (op : LogicalOp) (c : Condition) :
    c.skeleton.isCombinedBy op = c.isCombinedBy op := by
  cases c <;> rfl

theorem Condition.length_skeletons (terms : List Condition) :
    (Condition.skeletons terms).length = terms.length := by
  induction terms with
  | nil => rfl
  | cons term rest ih => rw [Condition.skeletons, List.length_cons, ih, List.length_cons]

mutual

/-- **The normal form is one of the skeleton.** -/
theorem Condition.isNormal_skeleton : (c : Condition) → c.skeleton.isNormal = c.isNormal
  | .comparison left op right => by
    simp only [Condition.skeleton, Condition.isNormal, Operand.isNull_skeleton]
  | .logical op terms => by
    simp only [Condition.skeleton, Condition.isNormal, Condition.length_skeletons,
      Condition.areTerms_skeletons op terms]
  | .not term => by
    simp only [Condition.skeleton, Condition.isNormal, Condition.isNormal_skeleton term]
  | .like _ _ _ => rfl
  | .isIn _ _ => rfl
  | .nonempty _ => rfl

theorem Condition.areTerms_skeletons (op : LogicalOp) : (terms : List Condition) →
    Condition.areTerms op (Condition.skeletons terms) = Condition.areTerms op terms
  | [] => rfl
  | term :: rest => by
    simp only [Condition.skeletons, Condition.areTerms, Condition.isCombinedBy_skeleton,
      Condition.isNormal_skeleton term, Condition.areTerms_skeletons op rest]

end

/-- **Redirecting references keeps a query in normal form.** -/
theorem Select.AllNormal.repair {s s' : Select} {m : Remap} (normal : AllNormal s.nodes)
    (h : s.repair m = .ok s') : AllNormal s'.nodes := by
  have same : ∀ s : Select, s.skeleton.HasNormalFilter = s.HasNormalFilter := by
    rintro ⟨entries, filter?, order?, limit?, alias?⟩
    cases filter? with
    | none => rfl
    | some condition =>
      simp only [HasNormalFilter, Select.skeleton, Condition.optionSkeleton, Option.mem_some_iff,
        forall_eq', condition.isNormal_skeleton]
  have all : ∀ nodes, AllNormal nodes ↔ ∀ holds ∈ nodes.map HasNormalFilter, holds := by
    intro nodes
    constructor
    · intro all holds mem
      obtain ⟨node, listed, rfl⟩ := List.mem_map.mp mem
      exact all node listed
    · exact fun all node mem => all _ (List.mem_map_of_mem mem)
  rw [all] at normal ⊢
  rwa [← map_nodes_skeleton same, repair_skeleton h, map_nodes_skeleton same]

end ResourceQuery.Sql
