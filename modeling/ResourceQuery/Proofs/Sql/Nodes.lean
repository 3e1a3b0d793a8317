import ResourceQuery.Sql.Condition
import ResourceQuery.Sql.Source

/-!
# Queries inside queries

A query contains further queries: derived tables, the queries of existence tests and those that
count rows.  An inner join drops rows for which it finds no counterpart, so it may only be made from
a source that is there for every row: the one that the query starts from, or one that was
inner-joined itself.

## Main Definitions

- `Select.nodes`: a query and all queries inside it.
- `Select.Rooted`: inner joins are made from sources that are there for every row.

## Main Statements

- `Condition.mem_nodes_combine`: a combination of terms contains the queries of its terms.
-/

namespace ResourceQuery.Sql

mutual

/-- **A query and all queries inside it.** -/
def Select.nodes : Select → List Select
  | ⟨entries, filter?, order?, limit?, alias?⟩ =>
    ⟨entries, filter?, order?, limit?, alias?⟩ :: (Entry.allNodes entries
      ++ Condition.optionNodes filter? ++ OrderTerm.optionNodes order?)

/-- The queries inside the sources of a query and inside its select list. -/
def Entry.allNodes : List Entry → List Select
  | [] => []
  | ⟨source, _, selectors⟩ :: rest =>
    Source.nodes source ++ Selector.allNodes selectors ++ Entry.allNodes rest

/-- The queries inside a source. -/
def Source.nodes : Source → List Select
  | .table _ => []
  | .derived select => Select.nodes select

/-- The queries inside a select list. -/
def Selector.allNodes : List Selector → List Select
  | [] => []
  | selector :: rest => Selector.nodes selector ++ Selector.allNodes rest

/-- The queries inside an item of a select list. -/
def Selector.nodes : Selector → List Select
  | .column _ _ => []
  | .one => []
  | .countRows => []
  | .rowNumber order _ => OrderTerm.allNodes order

/-- The queries inside a condition that may be absent. -/
def Condition.optionNodes : Option Condition → List Select
  | none => []
  | some condition => Condition.nodes condition

/-- The queries inside a condition. -/
def Condition.nodes : Condition → List Select
  | .comparison left _ right => Operand.nodes left ++ Operand.nodes right
  | .logical _ terms => Condition.allNodes terms
  | .not term => Condition.nodes term
  | .like _ _ _ => []
  | .isIn _ _ => []
  | .nonempty select => Select.nodes select

/-- The queries inside several conditions. -/
def Condition.allNodes : List Condition → List Select
  | [] => []
  | term :: rest => Condition.nodes term ++ Condition.allNodes rest

/-- The queries inside a side of a comparison. -/
def Operand.nodes : Operand → List Select
  | .column _ => []
  | .parameter _ => []
  | .null => []
  | .count select => Select.nodes select

/-- The queries inside an order that may be absent. -/
def OrderTerm.optionNodes : Option (List OrderTerm) → List Select
  | none => []
  | some terms => OrderTerm.allNodes terms

/-- The queries inside the criteria of an order. -/
def OrderTerm.allNodes : List OrderTerm → List Select
  | [] => []
  | ⟨target, _⟩ :: rest => OrderTarget.nodes target ++ OrderTerm.allNodes rest

/-- The queries inside what rows are ordered by. -/
def OrderTarget.nodes : OrderTarget → List Select
  | .column _ => []
  | .count select => Select.nodes select

end

/-- **Inner joins discard no rows that an outer join kept**: the outer column of every inner join
belongs to the source that the query starts from, or to one that is itself inner-joined. -/
def Select.Rooted (s : Select) : Prop :=
  ∀ entry ∈ s.entries, ∀ on, entry.join? = some on → on.kind = .inner →
    ∃ root ∈ s.entries, ∃ a, root.source.alias? = some a ∧ on.outer.alias? = some a
      ∧ ∀ joined, root.join? = some joined → joined.kind = .inner

/-! ### Conditions -/

theorem Condition.mem_allNodes {terms : List Condition} {node : Select} :
    node ∈ Condition.allNodes terms ↔ ∃ term ∈ terms, node ∈ term.nodes := by
  induction terms with
  | nil => simp [Condition.allNodes]
  | cons term rest ih => simp [Condition.allNodes, ih]

/-- **A combination of terms contains the queries of its terms.** -/
theorem Condition.mem_nodes_combine {op : LogicalOp} {terms : List Condition} {node : Select} :
    node ∈ (Condition.combine op terms).nodes ↔ ∃ term ∈ terms, node ∈ term.nodes := by
  have flat : ∀ term : Condition, node ∈ term.nodes ↔
      ∃ part ∈ Condition.termsFor op term, node ∈ part.nodes := by
    intro term
    unfold Condition.termsFor
    split
    · split
      · rw [Condition.nodes, Condition.mem_allNodes]
      · simp
    · simp
  have parts : (∃ term ∈ terms, node ∈ term.nodes) ↔
      ∃ part ∈ terms.flatMap (Condition.termsFor op), node ∈ part.nodes := by
    constructor
    · rintro ⟨term, hterm, mem⟩
      obtain ⟨part, hpart, mem⟩ := (flat term).mp mem
      exact ⟨part, List.mem_flatMap.mpr ⟨term, hterm, hpart⟩, mem⟩
    · rintro ⟨part, hpart, mem⟩
      obtain ⟨term, hterm, hpart⟩ := List.mem_flatMap.mp hpart
      exact ⟨term, hterm, (flat term).mpr ⟨part, hpart, mem⟩⟩
  rw [parts]
  unfold Condition.combine
  split
  · rename_i term hterms
    simp [hterms]
  · rw [Condition.nodes, Condition.mem_allNodes]

end ResourceQuery.Sql
