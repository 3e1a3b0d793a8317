import ResourceQuery.Proofs.Sql.Nodes
import ResourceQuery.Proofs.Sql.Repairing
import ResourceQuery.Sql.Render

/-!
# What occurs in a query

The aliases of the sources of a query, over all queries inside it, and the parameters that its text
refers to, in the order of the text.  Both are read off the tree part by part, and neither changes
when references are redirected.

## Main Definitions

- `Select.aliasesOf`: the aliases of the sources of a list of queries.
- `Source.aliases`, `Source.parameters`: the aliases and parameters of a source and everything
  inside it.
- `Select.AliasesDistinct`: no alias is used for two sources, at any depth.

## Main Statements

- `Select.map_nodes_skeleton`: the queries inside a query are those of its skeleton.
- `Select.repair_occurrences`: repair keeps aliases and parameters.
- `Condition.nodes_combine`, `Condition.parameters_combine`: a combination has the aliases and
  parameters of its terms.
-/

namespace ResourceQuery.Sql

/-! ### Aliases -/

/-- The aliases of the sources that some queries start from and join. -/
def Select.aliasesOf (nodes : List Select) : List (Option TableAlias) :=
  nodes.flatMap (fun node => node.entries.map (fun entry => entry.source.alias?))

/-- **No alias is used for two sources**, in the query or in any query inside it, and every source
has one. -/
def Select.AliasesDistinct (s : Select) : Prop :=
  none ∉ Select.aliasesOf s.nodes ∧ (Select.aliasesOf s.nodes).Nodup

@[simp] theorem Select.aliasesOf_nil : Select.aliasesOf [] = [] := rfl

@[simp] theorem Select.aliasesOf_append (nodes more : List Select) :
    Select.aliasesOf (nodes ++ more) = Select.aliasesOf nodes ++ Select.aliasesOf more :=
  List.flatMap_append

@[simp] theorem Select.aliasesOf_cons (node : Select) (rest : List Select) :
    Select.aliasesOf (node :: rest)
      = node.entries.map (fun entry => entry.source.alias?) ++ Select.aliasesOf rest :=
  List.flatMap_cons

/-- The alias of a source, and those of the sources inside it. -/
def Source.aliases (source : Source) : List (Option TableAlias) :=
  source.alias? :: Select.aliasesOf source.nodes

/-! ### Parameters -/

namespace Piece

@[simp] theorem references_nil : references [] = [] := rfl

@[simp] theorem references_append (xs ys : List Piece) :
    references (xs ++ ys) = references xs ++ references ys :=
  List.filterMap_append

@[simp] theorem references_cons (piece : Piece) (rest : List Piece) :
    references (piece :: rest) = piece.parameter?.toList ++ references rest := by
  cases piece <;> rfl

@[simp] theorem references_joinPieces (separator : String) : (parts : List (List Piece)) →
    references (joinPieces separator parts) = parts.flatMap references
  | [] => rfl
  | [part] => by simp [joinPieces]
  | part :: next :: rest => by
    have others := references_joinPieces separator (next :: rest)
    simp [joinPieces, others, parameter?]

@[simp] theorem references_nested (pieces : List Piece) :
    references (nested pieces) = references pieces := by
  simp [nested, parameter?]

end Piece

@[simp] theorem Column.references_pieces (c : Column) : Piece.references c.pieces = [] := by
  unfold Column.pieces
  split <;> simp [TableAlias.pieces, Piece.parameter?]

@[simp] theorem Entry.references_closing (join? : Option JoinOn) :
    Piece.references (Entry.closing join?) = [] := by
  cases join? <;> simp [Entry.closing, Piece.parameter?]

/-- The parameters of a limit, in the order of the text. -/
def Limit.parameters (l : Limit) : List Parameter :=
  l.count :: l.offset?.toList

@[simp] theorem Limit.references_pieces (l : Limit) : Piece.references l.pieces = l.parameters := by
  obtain ⟨count, offset?⟩ := l
  cases offset? <;> simp [Limit.pieces, Limit.parameters, Piece.parameter?]

/-- The parameters of a source, in the order of the text. -/
def Source.parameters (source : Source) : List Parameter :=
  Piece.references source.pieces

/-- The parameters of a condition, in the order of the text. -/
def Condition.parameters (condition : Condition) : List Parameter :=
  Piece.references condition.pieces

/-- The parameters of a side of a comparison. -/
def Operand.parameters (operand : Operand) : List Parameter :=
  Piece.references operand.pieces

/-- The parameters of what rows are ordered by. -/
def OrderTarget.parameters (target : OrderTarget) : List Parameter :=
  Piece.references target.pieces

/-- The parameters of the criteria of an order, in the order of the text. -/
def OrderTerm.allParameters (terms : List OrderTerm) : List Parameter :=
  terms.flatMap (fun term => term.target.parameters)

@[simp] theorem OrderTerm.allParameters_nil : OrderTerm.allParameters [] = [] := rfl

@[simp] theorem OrderTerm.allParameters_cons (term : OrderTerm) (rest : List OrderTerm) :
    OrderTerm.allParameters (term :: rest)
      = term.target.parameters ++ OrderTerm.allParameters rest :=
  List.flatMap_cons

@[simp] theorem OrderTerm.allParameters_append (terms more : List OrderTerm) :
    OrderTerm.allParameters (terms ++ more)
      = OrderTerm.allParameters terms ++ OrderTerm.allParameters more :=
  List.flatMap_append

@[simp] theorem Source.parameters_table (t : Table) : (Source.table t).parameters = [] := by
  simp [Source.parameters, Source.pieces, TableAlias.pieces, Piece.parameter?]

/-- A comparison has the parameters of its sides, although a null is written last. -/
@[simp] theorem Condition.parameters_comparison (left right : Operand) (op : ComparisonOp) :
    (Condition.comparison left op right).parameters = left.parameters ++ right.parameters := by
  simp only [Condition.parameters, Condition.pieces]
  split
  · rename_i swapped
    cases left with
    | null => simp [Operand.parameters, Operand.pieces, Piece.parameter?]
    | column c => simp [Operand.isNull] at swapped
    | parameter p => simp [Operand.isNull] at swapped
    | count s => simp [Operand.isNull] at swapped
  · simp [Operand.parameters, Piece.parameter?]

theorem Condition.flatMap_termPieces (terms : List Condition) :
    (Condition.termPieces terms).flatMap Piece.references = terms.flatMap Condition.parameters := by
  induction terms with
  | nil => simp [Condition.termPieces]
  | cons term rest ih => simp [Condition.termPieces, Condition.parameters, Piece.parameter?, ih]

@[simp] theorem Condition.parameters_logical (op : LogicalOp) (terms : List Condition) :
    (Condition.logical op terms).parameters = terms.flatMap Condition.parameters := by
  rw [Condition.parameters, Condition.pieces, Piece.references_joinPieces,
    Condition.flatMap_termPieces]

theorem OrderTerm.flatMap_listPieces (terms : List OrderTerm) :
    (OrderTerm.listPieces terms).flatMap Piece.references = OrderTerm.allParameters terms := by
  induction terms with
  | nil => simp [OrderTerm.listPieces]
  | cons term rest ih =>
    obtain ⟨target, descending⟩ := term
    cases descending <;>
      simp [OrderTerm.listPieces, OrderTarget.parameters, Piece.parameter?, ih]

theorem Entry.references_sourcePieces (entries : List Entry) :
    Piece.references (Entry.sourcePieces entries)
      = entries.flatMap (fun entry => entry.source.parameters) := by
  induction entries with
  | nil => simp [Entry.sourcePieces]
  | cons entry rest ih =>
    obtain ⟨source, join?, selectors⟩ := entry
    simp [Entry.sourcePieces, Source.parameters, Piece.parameter?, ih]

/-! ### Combinations -/

namespace Condition

theorem allNodes_eq_flatMap (terms : List Condition) :
    Condition.allNodes terms = terms.flatMap Condition.nodes := by
  induction terms with
  | nil => rfl
  | cons term rest ih => rw [Condition.allNodes, ih, List.flatMap_cons]

/-- What a list of terms contributes to a combination is what the terms have by themselves, whatever
is collected from them in order. -/
theorem flatMap_termsFor {β : Type} (collect : Condition → List β)
    (logical : ∀ op terms, collect (.logical op terms) = terms.flatMap collect)
    (op : LogicalOp) (terms : List Condition) :
    (terms.flatMap (termsFor op)).flatMap collect = terms.flatMap collect := by
  rw [List.flatMap_assoc]
  congr 1
  funext term
  unfold termsFor
  split
  · split
    · rw [logical]
    · simp
  · simp

/-- What is collected from a combination is what is collected from its terms. -/
theorem collect_combine {β : Type} (collect : Condition → List β)
    (logical : ∀ op terms, collect (.logical op terms) = terms.flatMap collect)
    (op : LogicalOp) (terms : List Condition) :
    collect (combine op terms) = terms.flatMap collect := by
  rw [← flatMap_termsFor collect logical op terms]
  unfold combine
  split
  · rename_i term single
    simp [single]
  · rw [logical]

/-- **A combination contains the queries of its terms**, in order. -/
theorem nodes_combine (op : LogicalOp) (terms : List Condition) :
    (combine op terms).nodes = terms.flatMap Condition.nodes :=
  collect_combine Condition.nodes
    (fun op terms => by rw [Condition.nodes, allNodes_eq_flatMap]) op terms

/-- **A combination has the parameters of its terms**, in order. -/
theorem parameters_combine (op : LogicalOp) (terms : List Condition) :
    (combine op terms).parameters = terms.flatMap Condition.parameters :=
  collect_combine Condition.parameters parameters_logical op terms

/-- The values that a column may equal are the parameters of the condition. -/
theorem occurrences_equalsAny (column : Column) (values : List Parameter) :
    (equalsAny column values).nodes = [] ∧ (equalsAny column values).parameters = values := by
  unfold equalsAny
  split
  · simp [equals, nodes, Operand.nodes, Operand.parameters, Operand.pieces, Piece.parameter?]
  · simp [nodes, parameters, pieces, Piece.parameter?, List.flatMap_map]

end Condition

theorem OrderTerm.allNodes_append (terms more : List OrderTerm) :
    OrderTerm.allNodes (terms ++ more) = OrderTerm.allNodes terms ++ OrderTerm.allNodes more := by
  induction terms with
  | nil => rfl
  | cons term rest ih =>
    obtain ⟨target, descending⟩ := term
    simp only [List.cons_append, OrderTerm.allNodes, ih, List.append_assoc]

/-! ### Queries -/

/-- **The parameters of a query**, in the order of the text: those of the select list, of the
sources, of the condition, of the order and of the limit. -/
theorem Select.references_pieces (s : Select) :
    Piece.references s.pieces
      = (Entry.selectorPieces s.entries).flatMap Piece.references
        ++ s.entries.flatMap (fun entry => entry.source.parameters)
        ++ s.filter?.toList.flatMap Condition.parameters
        ++ s.order?.toList.flatMap OrderTerm.allParameters
        ++ s.limit?.toList.flatMap Limit.parameters := by
  obtain ⟨entries, filter?, order?, limit?, alias?⟩ := s
  cases filter? <;> cases order? <;> cases limit? <;>
    simp [Select.pieces, Condition.wherePieces, OrderTerm.orderPieces, Condition.parameters,
      Entry.references_sourcePieces, OrderTerm.flatMap_listPieces, Piece.parameter?]

/-- A derived table has the parameters of its query. -/
@[simp] theorem Source.parameters_derived (s : Select) :
    (Source.derived s).parameters = Piece.references s.pieces := by
  obtain ⟨entries, filter?, order?, limit?, alias?⟩ := s
  cases alias? <;> simp [Source.parameters, Source.pieces, TableAlias.pieces, Piece.parameter?]

/-- A query as a derived table has one alias more, and the parameters of the query. -/
theorem Source.ofSelect_occurrences {s : Select} {a : TableAlias} {source : Source}
    (h : Source.ofSelect s a = .ok source) :
    source.aliases = some a :: Select.aliasesOf s.nodes
      ∧ source.parameters = Piece.references s.pieces := by
  unfold Source.ofSelect at h
  split at h
  · cases h
  · cases h
    obtain ⟨entries, filter?, order?, limit?, alias?⟩ := s
    rw [Source.parameters_derived, Select.references_pieces, Select.references_pieces]
    exact ⟨by simp [Source.aliases, Source.alias?, Source.nodes, Select.nodes], rfl⟩

/-! ### Redirected references -/

theorem Entry.map_alias?_skeletons (entries : List Entry) :
    (Entry.skeletons entries).map (fun entry => entry.source.alias?)
      = entries.map (fun entry => entry.source.alias?) := by
  induction entries with
  | nil => rfl
  | cons entry rest ih =>
    obtain ⟨source, join?, selectors⟩ := entry
    simp only [Entry.skeletons, List.map_cons, source.alias?_skeleton, ih]

theorem Entry.selectorPieces_skeletons (entries : List Entry) :
    Entry.selectorPieces (Entry.skeletons entries) = Entry.selectorPieces entries := by
  induction entries with
  | nil => rfl
  | cons entry rest ih =>
    obtain ⟨source, join?, selectors⟩ := entry
    simp only [Entry.skeletons, Entry.selectorPieces, ih]

section Nodes

variable {β : Type} {f : Select → β}

mutual

/-- **The queries inside a query are those of its skeleton**, as far as they can be seen without
references. -/
theorem Select.map_nodes_skeleton (same : ∀ s : Select, f s.skeleton = f s) : (s : Select) →
    s.skeleton.nodes.map f = s.nodes.map f
  | ⟨entries, filter?, order?, limit?, alias?⟩ => by
    have here := same ⟨entries, filter?, order?, limit?, alias?⟩
    simp only [Select.skeleton] at here
    simp only [Select.skeleton, Select.nodes, List.map_cons, List.map_append, here,
      Entry.map_nodes_skeletons same entries, Condition.map_nodes_optionSkeleton same filter?,
      OrderTerm.map_nodes_optionSkeleton same order?]

theorem Entry.map_nodes_skeletons (same : ∀ s : Select, f s.skeleton = f s) :
    (entries : List Entry) →
    (Entry.allNodes (Entry.skeletons entries)).map f = (Entry.allNodes entries).map f
  | [] => rfl
  | ⟨source, join?, selectors⟩ :: rest => by
    simp only [Entry.skeletons, Entry.allNodes, List.map_append,
      Source.map_nodes_skeleton same source, Entry.map_nodes_skeletons same rest]

theorem Source.map_nodes_skeleton (same : ∀ s : Select, f s.skeleton = f s) :
    (source : Source) →
    source.skeleton.nodes.map f = source.nodes.map f
  | .table _ => rfl
  | .derived select => by
    simp only [Source.skeleton, Source.nodes, Select.map_nodes_skeleton same select]

theorem Condition.map_nodes_optionSkeleton (same : ∀ s : Select, f s.skeleton = f s) :
    (filter? : Option Condition) →
    (Condition.optionNodes (Condition.optionSkeleton filter?)).map f
      = (Condition.optionNodes filter?).map f
  | none => rfl
  | some condition => by
    simp only [Condition.optionSkeleton, Condition.optionNodes,
      Condition.map_nodes_skeleton same condition]

theorem Condition.map_nodes_skeleton (same : ∀ s : Select, f s.skeleton = f s) :
    (condition : Condition) →
    condition.skeleton.nodes.map f = condition.nodes.map f
  | .comparison left _ right => by
    simp only [Condition.skeleton, Condition.nodes, List.map_append,
      Operand.map_nodes_skeleton same left, Operand.map_nodes_skeleton same right]
  | .logical _ terms => by
    simp only [Condition.skeleton, Condition.nodes, Condition.map_nodes_skeletons same terms]
  | .not term => by
    simp only [Condition.skeleton, Condition.nodes, Condition.map_nodes_skeleton same term]
  | .like _ _ _ => rfl
  | .isIn _ _ => rfl
  | .nonempty select => by
    simp only [Condition.skeleton, Condition.nodes, Select.map_nodes_skeleton same select]

theorem Condition.map_nodes_skeletons (same : ∀ s : Select, f s.skeleton = f s) :
    (terms : List Condition) →
    (Condition.allNodes (Condition.skeletons terms)).map f = (Condition.allNodes terms).map f
  | [] => rfl
  | term :: rest => by
    simp only [Condition.skeletons, Condition.allNodes, List.map_append,
      Condition.map_nodes_skeleton same term, Condition.map_nodes_skeletons same rest]

theorem Operand.map_nodes_skeleton (same : ∀ s : Select, f s.skeleton = f s) :
    (operand : Operand) →
    operand.skeleton.nodes.map f = operand.nodes.map f
  | .column _ => rfl
  | .parameter _ => rfl
  | .null => rfl
  | .count select => by
    simp only [Operand.skeleton, Operand.nodes, Select.map_nodes_skeleton same select]

theorem OrderTerm.map_nodes_optionSkeleton (same : ∀ s : Select, f s.skeleton = f s) :
    (order? : Option (List OrderTerm)) →
    (OrderTerm.optionNodes (OrderTerm.optionSkeleton order?)).map f
      = (OrderTerm.optionNodes order?).map f
  | none => rfl
  | some terms => by
    simp only [OrderTerm.optionSkeleton, OrderTerm.optionNodes,
      OrderTerm.map_nodes_skeletons same terms]

theorem OrderTerm.map_nodes_skeletons (same : ∀ s : Select, f s.skeleton = f s) :
    (terms : List OrderTerm) →
    (OrderTerm.allNodes (OrderTerm.skeletons terms)).map f = (OrderTerm.allNodes terms).map f
  | [] => rfl
  | ⟨target, _⟩ :: rest => by
    simp only [OrderTerm.skeletons, OrderTerm.allNodes, List.map_append,
      OrderTarget.map_nodes_skeleton same target, OrderTerm.map_nodes_skeletons same rest]

theorem OrderTarget.map_nodes_skeleton (same : ∀ s : Select, f s.skeleton = f s) :
    (target : OrderTarget) →
    target.skeleton.nodes.map f = target.nodes.map f
  | .column _ => rfl
  | .count select => by
    simp only [OrderTarget.skeleton, OrderTarget.nodes, Select.map_nodes_skeleton same select]

end

end Nodes

/-- **A query has the aliases of its skeleton.** -/
theorem Select.aliasesOf_skeleton (s : Select) :
    Select.aliasesOf s.skeleton.nodes = Select.aliasesOf s.nodes := by
  have same : ∀ s : Select, s.skeleton.entries.map (fun entry => entry.source.alias?)
      = s.entries.map (fun entry => entry.source.alias?) :=
    fun ⟨entries, _, _, _, _⟩ => Entry.map_alias?_skeletons entries
  rw [Select.aliasesOf, List.flatMap_def, Select.map_nodes_skeleton same, ← List.flatMap_def]
  rfl

mutual

/-- **A query has the parameters of its skeleton**, in the same order. -/
theorem Select.references_skeleton : (s : Select) →
    Piece.references s.skeleton.pieces = Piece.references s.pieces
  | ⟨entries, filter?, order?, limit?, alias?⟩ => by
    rw [Select.references_pieces, Select.references_pieces]
    simp only [Select.skeleton, Entry.selectorPieces_skeletons, Entry.parameters_skeletons entries,
      Condition.parameters_optionSkeleton filter?, OrderTerm.parameters_optionSkeleton order?]

theorem Entry.parameters_skeletons : (entries : List Entry) →
    (Entry.skeletons entries).flatMap (fun entry => entry.source.parameters)
      = entries.flatMap (fun entry => entry.source.parameters)
  | [] => rfl
  | ⟨source, join?, selectors⟩ :: rest => by
    simp only [Entry.skeletons, List.flatMap_cons, Source.parameters_skeleton source,
      Entry.parameters_skeletons rest]

theorem Source.parameters_skeleton : (source : Source) →
    source.skeleton.parameters = source.parameters
  | .table _ => rfl
  | .derived select => by
    simp only [Source.skeleton, Source.parameters_derived, Select.references_skeleton select]

theorem Condition.parameters_optionSkeleton : (filter? : Option Condition) →
    (Condition.optionSkeleton filter?).toList.flatMap Condition.parameters
      = filter?.toList.flatMap Condition.parameters
  | none => rfl
  | some condition => by
    simp only [Condition.optionSkeleton, Option.toList_some, List.flatMap_cons,
      Condition.parameters_skeleton condition]

theorem Condition.parameters_skeleton : (condition : Condition) →
    condition.skeleton.parameters = condition.parameters
  | .comparison left op right => by
    simp only [Condition.skeleton, Condition.parameters_comparison,
      Operand.parameters_skeleton left, Operand.parameters_skeleton right]
  | .logical op terms => by
    simp only [Condition.skeleton, Condition.parameters_logical,
      Condition.parameters_skeletons terms]
  | .not term => by
    have inside := Condition.parameters_skeleton term
    simp only [Condition.parameters] at inside
    simp [Condition.skeleton, Condition.parameters, Condition.pieces, inside]
  | .like _ _ _ => by
    simp [Condition.skeleton, Condition.parameters, Condition.pieces]
  | .isIn _ values => by
    simp [Condition.skeleton, Condition.parameters, Condition.pieces]
  | .nonempty select => by
    simp [Condition.skeleton, Condition.parameters, Condition.pieces,
      Select.references_skeleton select]

theorem Condition.parameters_skeletons : (terms : List Condition) →
    (Condition.skeletons terms).flatMap Condition.parameters
      = terms.flatMap Condition.parameters
  | [] => rfl
  | term :: rest => by
    simp only [Condition.skeletons, List.flatMap_cons, Condition.parameters_skeleton term,
      Condition.parameters_skeletons rest]

theorem Operand.parameters_skeleton : (operand : Operand) →
    operand.skeleton.parameters = operand.parameters
  | .column _ => by simp [Operand.skeleton, Operand.parameters, Operand.pieces]
  | .parameter _ => rfl
  | .null => rfl
  | .count select => by
    simp [Operand.skeleton, Operand.parameters, Operand.pieces, Select.references_skeleton select]

theorem OrderTerm.parameters_optionSkeleton : (order? : Option (List OrderTerm)) →
    (OrderTerm.optionSkeleton order?).toList.flatMap OrderTerm.allParameters
      = order?.toList.flatMap OrderTerm.allParameters
  | none => rfl
  | some terms => by
    simp only [OrderTerm.optionSkeleton, Option.toList_some, List.flatMap_cons,
      OrderTerm.parameters_skeletons terms]

theorem OrderTerm.parameters_skeletons : (terms : List OrderTerm) →
    OrderTerm.allParameters (OrderTerm.skeletons terms) = OrderTerm.allParameters terms
  | [] => rfl
  | ⟨target, _⟩ :: rest => by
    simp only [OrderTerm.skeletons, OrderTerm.allParameters_cons,
      OrderTarget.parameters_skeleton target, OrderTerm.parameters_skeletons rest]

theorem OrderTarget.parameters_skeleton : (target : OrderTarget) →
    target.skeleton.parameters = target.parameters
  | .column _ => by simp [OrderTarget.skeleton, OrderTarget.parameters, OrderTarget.pieces]
  | .count select => by
    simp [OrderTarget.skeleton, OrderTarget.parameters, OrderTarget.pieces,
      Select.references_skeleton select]

end

/-- **Repair keeps the skeleton of a query**, because it changes references only. -/
theorem Select.repair_skeleton {s s' : Select} {m : Remap} (h : s.repair m = .ok s') :
    s'.skeleton = s.skeleton := by
  unfold Select.repair at h
  split at h
  · cases h
    rfl
  · exact (Select.repairs Scope.names_empty Scope.filed_empty s h).skeleton_eq

/-- **Repair keeps aliases and parameters.** -/
theorem Select.repair_occurrences {s s' : Select} {m : Remap} (h : s.repair m = .ok s') :
    Select.aliasesOf s'.nodes = Select.aliasesOf s.nodes
      ∧ Piece.references s'.pieces = Piece.references s.pieces := by
  have same := Select.repair_skeleton h
  refine ⟨?_, ?_⟩
  · rw [← s'.aliasesOf_skeleton, same, s.aliasesOf_skeleton]
  · rw [← s'.references_skeleton, same, s.references_skeleton]

end ResourceQuery.Sql
