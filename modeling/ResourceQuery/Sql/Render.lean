import ResourceQuery.Sql.Condition
import ResourceQuery.Sql.Piece
import ResourceQuery.Sql.Source

/-!
# The text of statements

## Main Definitions

- `Sql.Statement.pieces`, `Sql.Select.pieces`: a tree as pieces of text.
- `Sql.Statement.render`, `Sql.Select.render`: the text of a statement with its parameters.
- `Sql.MatchKind.pattern`: the pattern that finds a text literally.
-/

namespace ResourceQuery.Sql

/-! ### Parts without queries -/

/-- Put a separator between lists of pieces. -/
def joinPieces (separator : String) : List (List Piece) → List Piece
  | [] => []
  | [part] => part
  | part :: rest => part ++ Piece.verbatim separator :: joinPieces separator rest

/-- What holds of all parts, and of two texts with the separator between them if it holds of both,
holds of the separated parts. -/
theorem joinPieces_closed {P : List Piece → Prop} {separator : String} {parts : List (List Piece)}
    (link : ∀ {xs ys : List Piece}, P xs → P ys → P (xs ++ Piece.verbatim separator :: ys))
    (empty : parts = [] → P []) (h : ∀ part ∈ parts, P part) : P (joinPieces separator parts) := by
  induction parts with
  | nil => exact empty rfl
  | cons part rest ih =>
    cases rest with
    | nil => exact h part (.head _)
    | cons next rest =>
      exact link (h part (.head _)) (ih nofun fun other mem => h other (.tail _ mem))

/-- The name of a table within a statement. -/
def TableAlias.pieces (a : TableAlias) : List Piece :=
  [.verbatim a.text]

/-- A column, qualified by the table it belongs to. -/
def Column.pieces (c : Column) : List Piece :=
  (match c.alias? with
    | some a => a.pieces ++ [.verbatim "."]
    | none => []) ++ [.identifier c.name]

namespace ComparisonOp

/-- The sign of a comparison. -/
def sign : ComparisonOp → String
  | equal => "="
  | notEqual => "<>"
  | less => "<"
  | lessOrEqual => "<="
  | greater => ">"
  | greaterOrEqual => ">="

/-- What stands between the sides of a comparison; a comparison with null has words of its own. -/
def text (op : ComparisonOp) (withNull : Bool) : String :=
  match withNull, op with
  | true, equal => " IS "
  | true, notEqual => " IS NOT "
  | _, _ => " " ++ op.sign ++ " "

end ComparisonOp

/-- The word between combined terms. -/
def LogicalOp.word : LogicalOp → String
  | .and => "AND"
  | .or => "OR"

namespace MatchKind

/-- How a character is written in a pattern: the wildcards and the backslash lose their meaning
behind a backslash. -/
def escape (c : Char) : List Char :=
  if c = '\\' ∨ c = '%' ∨ c = '_' then ['\\', c] else [c]

/-- The pattern that finds a text literally at a place. -/
def pattern (kind : MatchKind) (text : String) : String :=
  let escaped := text.toList.flatMap escape
  String.ofList (match kind with
    | startsWith => escaped ++ ['%']
    | endsWith => '%' :: escaped
    | contains => '%' :: escaped ++ ['%'])

end MatchKind

/-- The number of rows and the rows skipped. -/
def Limit.pieces (l : Limit) : List Piece :=
  [.verbatim "LIMIT ", .param l.count] ++
    (match l.offset? with
      | some offset => [.verbatim " OFFSET ", .param offset]
      | none => [])

/-- The words that begin a source. -/
def Entry.opening : Option JoinOn → String
  | none => "FROM "
  | some on => match on.kind with
    | .inner => "INNER JOIN "
    | .left => "LEFT JOIN "

/-- The condition of a join. -/
def Entry.closing : Option JoinOn → List Piece
  | none => []
  | some on => .verbatim " ON " :: on.outer.pieces ++ .verbatim " = " :: on.inner.pieces

/-- A query inside another statement, on indented lines of its own. -/
def nested (pieces : List Piece) : List Piece :=
  [.verbatim "(", .indent, .newLine] ++ pieces ++ [.unindent, .newLine, .verbatim ")"]

/-! ### Queries -/

mutual

/-- A query. -/
def Select.pieces : Select → List Piece
  | ⟨entries, filter?, order?, limit?, _⟩ =>
    .verbatim "SELECT " :: joinPieces ", " (Entry.selectorPieces entries)
      ++ Entry.sourcePieces entries
      ++ Condition.wherePieces filter?
      ++ OrderTerm.orderPieces order?
      ++ (match limit? with
        | none => []
        | some limit => .newLine :: limit.pieces)

/-- The items of the select list, over all sources. -/
def Entry.selectorPieces : List Entry → List (List Piece)
  | [] => []
  | ⟨_, _, selectors⟩ :: rest => Selector.listPieces selectors ++ Entry.selectorPieces rest

/-- The sources, each on a line of its own. -/
def Entry.sourcePieces : List Entry → List Piece
  | [] => []
  | ⟨source, join?, _⟩ :: rest =>
    .newLine :: .verbatim (Entry.opening join?) :: source.pieces ++ Entry.closing join?
      ++ Entry.sourcePieces rest

/-- A source with its name. -/
def Source.pieces : Source → List Piece
  | .table t => .identifier t.name :: .verbatim " AS " :: t.tableAlias.pieces
  | .derived ⟨entries, filter?, order?, limit?, alias?⟩ =>
    nested (Select.pieces ⟨entries, filter?, order?, limit?, alias?⟩) ++
      (match alias? with
        | some a => .verbatim " AS " :: a.pieces
        | none => [])

/-- The items of a list of selectors. -/
def Selector.listPieces : List Selector → List (List Piece)
  | [] => []
  | selector :: rest => selector.pieces :: Selector.listPieces rest

/-- An item of the select list. -/
def Selector.pieces : Selector → List Piece
  | .column column rename? =>
    column.pieces ++ (match rename? with
      | some name => [.verbatim " AS ", .identifier name]
      | none => [])
  | .one => [.verbatim "1"]
  | .countRows => [.verbatim "COUNT(*)"]
  | .rowNumber order name =>
    [.verbatim "ROW_NUMBER() OVER (", .verbatim "ORDER BY "]
      ++ joinPieces ", " (OrderTerm.listPieces order)
      ++ [.verbatim ") AS ", .identifier name]

/-- The condition of a query, on a line of its own. -/
def Condition.wherePieces : Option Condition → List Piece
  | none => []
  | some condition => .newLine :: .verbatim "WHERE " :: condition.pieces

/-- The order of a query, on a line of its own. -/
def OrderTerm.orderPieces : Option (List OrderTerm) → List Piece
  | none => []
  | some terms => .newLine :: .verbatim "ORDER BY " :: joinPieces ", " (OrderTerm.listPieces terms)

/-- A condition.  Combined terms stand in parentheses, and a null stands on the right. -/
def Condition.pieces : Condition → List Piece
  | .comparison left op right =>
    if left.isNull && !right.isNull then
      right.pieces ++ .verbatim (op.text true) :: left.pieces
    else
      left.pieces ++ .verbatim (op.text right.isNull) :: right.pieces
  | .logical op terms => joinPieces (" " ++ op.word ++ " ") (Condition.termPieces terms)
  | .not term => .verbatim "NOT (" :: term.pieces ++ [.verbatim ")"]
  | .like column text kind =>
    column.pieces ++ [.verbatim " LIKE ", .literal (kind.pattern text)]
  | .isIn column values =>
    column.pieces ++ .verbatim " IN (" ::
      joinPieces ", " (values.map (fun p => [.param p])) ++ [.verbatim ")"]
  | .nonempty select => .verbatim "EXISTS " :: nested select.pieces

/-- Terms in parentheses. -/
def Condition.termPieces : List Condition → List (List Piece)
  | [] => []
  | term :: rest =>
    (.verbatim "(" :: term.pieces ++ [.verbatim ")"]) :: Condition.termPieces rest

/-- A side of a comparison. -/
def Operand.pieces : Operand → List Piece
  | .column column => column.pieces
  | .parameter p => [.param p]
  | .null => [.verbatim "NULL"]
  | .count select => nested select.pieces

/-- The criteria of an order. -/
def OrderTerm.listPieces : List OrderTerm → List (List Piece)
  | [] => []
  | ⟨target, descending⟩ :: rest =>
    (target.pieces ++ (if descending then [.verbatim " DESC"] else []))
      :: OrderTerm.listPieces rest

/-- What rows are ordered by. -/
def OrderTarget.pieces : OrderTarget → List Piece
  | .column column => column.pieces
  | .count select => nested select.pieces

end

/-! ### Statements -/

/-- The columns and values of an added row. -/
def Assignment.rowPieces : List Assignment → List Piece
  | [] => [.newLine, .verbatim "DEFAULT VALUES"]
  | assignments =>
    .verbatim " (" :: joinPieces ", " (assignments.map (fun a => [.identifier a.column]))
      ++ [.verbatim ")", .newLine, .verbatim "VALUES ("]
      ++ joinPieces ", " (assignments.map (fun a => a.value.pieces))
      ++ [.verbatim ")"]

/-- A value written to a column. -/
def Assignment.pieces (a : Assignment) : List Piece :=
  .identifier a.column :: .verbatim " = " :: a.value.pieces

/-- A statement. -/
def Statement.pieces : Statement → List Piece
  | .select query => query.pieces
  | .insert table assignments returning =>
    .verbatim "INSERT INTO " :: .identifier table :: Assignment.rowPieces assignments
      ++ [.newLine, .verbatim "RETURNING ", .identifier returning]
  | .update table assignments filter =>
    [.verbatim "UPDATE ", .identifier table, .newLine, .verbatim "SET "]
      ++ joinPieces ", " (assignments.map Assignment.pieces)
      ++ Condition.wherePieces (some filter)
  | .delete table filter =>
    [.verbatim "DELETE FROM ", .identifier table] ++ Condition.wherePieces (some filter)

/-- The text of a query with its parameters. -/
def Select.render (s : Select) : Rendered :=
  Piece.render s.pieces

/-- The text of a statement with its parameters. -/
def Statement.render (s : Statement) : Rendered :=
  Piece.render s.pieces

end ResourceQuery.Sql
