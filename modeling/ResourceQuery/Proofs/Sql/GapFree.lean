import Mathlib.Data.List.Chain
import ResourceQuery.Proofs.Sql.NormalForm

/-!
# Texts without gaps

Some words of a statement make sense only if something follows them: a condition behind `WHERE`, a
term behind a parenthesis, a value in a list, and a value other than null behind a sign that orders
values.  The text of a statement whose conditions are in normal form has what its words demand.

## Main Definitions

- `Piece.demand`: what has to follow a piece.
- `Piece.GapFree`: every piece is followed by what it demands.

## Main Statements

- `Piece.GapFree.append`: pieces without gaps may follow each other.
- `Select.gapFree_pieces`, `Statement.IsNormal.gapFree_pieces`: the text of a query or a statement
  in normal form has no gaps.
-/

namespace ResourceQuery.Sql

namespace Piece

/-- What may have to follow a piece. -/
inductive Demand where
  | nothing
  /-- A condition, a term or a value. -/
  | part
  /-- A value that is not null. -/
  | value
deriving DecidableEq

/-- The words before a condition, a term or the values of a list. -/
def openingWords : List String :=
  ["WHERE ", "NOT (", "(", " AND ", " OR ", " IN ("]

/-- The signs that order values. -/
def orderingSigns : List String :=
  [" < ", " <= ", " > ", " >= "]

/-- **What has to follow a piece.** -/
def demand : Piece → Demand
  | verbatim text =>
    if text ∈ openingWords then .part else if text ∈ orderingSigns then .value else .nothing
  | identifier _ | literal _ | param _ | newLine | indent | unindent => .nothing

/-- Does a piece meet the demand of the one before it.  A part is missing where a parenthesis is
closed or a line ends. -/
def meets (piece : Piece) : Demand → Bool
  | .nothing => true
  | .part => piece ∉ [verbatim ")", newLine, unindent]
  | .value => piece ∉ [verbatim ")", newLine, unindent, verbatim "NULL"]

/-- **Every piece is followed by what it demands.** -/
structure GapFree (pieces : List Piece) : Prop where
  follows : pieces.IsChain (fun piece next => next.meets piece.demand = true)
  ends : ∀ last ∈ pieces.getLast?, last.demand = .nothing

/-- The first piece meets a demand. -/
def Begins (d : Demand) (pieces : List Piece) : Prop :=
  ∃ first ∈ pieces.head?, first.meets d = true

theorem Begins.append {d : Demand} {xs : List Piece} (begins : Begins d xs) (ys : List Piece) :
    Begins d (xs ++ ys) := by
  obtain ⟨first, mem, meets⟩ := begins
  exact ⟨first, by simp [List.head?_append, Option.mem_def.mp mem], meets⟩

namespace GapFree

theorem nil : GapFree [] :=
  ⟨List.isChain_nil, nofun⟩

/-- **Pieces without gaps may follow each other.** -/
theorem append {xs ys : List Piece} (first : GapFree xs) (second : GapFree ys) :
    GapFree (xs ++ ys) := by
  refine ⟨List.isChain_append.mpr ⟨first.follows, second.follows, ?_⟩, ?_⟩
  · intro last mem next _
    rw [first.ends last mem]
    rfl
  · intro last mem
    rw [List.getLast?_append] at mem
    rcases Option.or_eq_some_iff.mp mem with mem | ⟨-, mem⟩
    · exact second.ends last mem
    · exact first.ends last mem

/-- A piece that demands nothing may stand anywhere. -/
theorem plain {piece : Piece} {rest : List Piece} (h : GapFree rest)
    (nothing : piece.demand = .nothing) : GapFree (piece :: rest) := by
  have alone : GapFree [piece] := ⟨List.isChain_singleton _, by simpa using nothing⟩
  exact alone.append h

/-- A piece that demands something may stand before it. -/
theorem demanding {piece : Piece} {rest : List Piece} (h : GapFree rest)
    (begins : Begins piece.demand rest) : GapFree (piece :: rest) := by
  obtain ⟨first, mem, meets⟩ := begins
  refine ⟨List.isChain_cons.mpr ⟨?_, h.follows⟩, ?_⟩
  · intro next listed
    rwa [Option.mem_unique listed mem]
  · intro last listed
    refine h.ends last ?_
    cases rest with
    | nil => cases mem
    | cons next rest => simpa using listed

/-- A word before a part may stand before one. -/
theorem opening {word : String} {rest : List Piece} (h : GapFree rest) (begins : Begins .part rest)
    (opens : word ∈ openingWords) : GapFree (verbatim word :: rest) := by
  refine h.demanding ?_
  rwa [demand, if_pos opens]

/-- Parts may be put together by words that demand nothing. -/
theorem join {separator : String} {parts : List (List Piece)}
    (nothing : (verbatim separator).demand = .nothing) (h : ∀ part ∈ parts, GapFree part) :
    GapFree (joinPieces separator parts) :=
  joinPieces_closed (fun first second => first.append (second.plain nothing)) (fun _ => nil) h

/-- A query on lines of its own. -/
theorem nested {pieces : List Piece} (h : GapFree pieces) : GapFree (nested pieces) := by
  have last : GapFree [.unindent, .newLine, .verbatim ")"] :=
    ((nil.plain (by decide)).plain rfl).plain rfl
  have inside : GapFree ([.indent, .newLine] ++ pieces ++ [.unindent, .newLine, .verbatim ")"]) :=
    (((h.plain rfl).plain rfl).append last)
  exact inside.demanding ⟨.indent, rfl, by decide⟩

end GapFree

end Piece

open Piece

/-! ### Parts without queries -/

/-- What meets the strictest demand meets every one. -/
theorem Piece.Begins.of_value {d : Demand} {pieces : List Piece} (begins : Begins .value pieces) :
    Begins d pieces := by
  obtain ⟨first, mem, meets⟩ := begins
  refine ⟨first, mem, ?_⟩
  cases d with
  | nothing => rfl
  | part => simp_all [Piece.meets]
  | value => exact meets

/-- An alias is none of the words. -/
theorem TableAlias.text_ne (a : TableAlias) {word : String} (other : word.toList.head? ≠ some 't') :
    a.text ≠ word := by
  rintro rfl
  exact other (by rw [a.toList_text]; rfl)

theorem TableAlias.demand_text (a : TableAlias) : (verbatim a.text).demand = .nothing := by
  have none_ : ∀ word ∈ openingWords ++ orderingSigns, a.text ≠ word := by
    intro word mem
    refine a.text_ne ?_
    revert word
    decide
  rw [demand, if_neg, if_neg]
  · exact fun mem => none_ _ (List.mem_append_right _ mem) rfl
  · exact fun mem => none_ _ (List.mem_append_left _ mem) rfl

theorem TableAlias.gapFree_pieces (a : TableAlias) : GapFree a.pieces :=
  GapFree.nil.plain a.demand_text

theorem Column.gapFree_pieces (c : Column) : GapFree c.pieces := by
  have name : GapFree [.identifier c.name] := GapFree.nil.plain rfl
  rw [Column.pieces]
  split
  · rename_i a _
    exact (a.gapFree_pieces.append (GapFree.nil.plain (by decide))).append name
  · exact name

theorem Column.begins_pieces (c : Column) : Begins .value c.pieces := by
  rw [Column.pieces]
  split
  · rename_i a _
    have bracket : a.text ≠ ")" := a.text_ne (by decide)
    have null : a.text ≠ "NULL" := a.text_ne (by decide)
    exact ⟨verbatim a.text, rfl, by simp [Piece.meets, bracket, null]⟩
  · exact ⟨identifier c.name, rfl, by simp [Piece.meets]⟩

theorem Operand.begins_pieces {a : Operand} (given : a.isNull = false) :
    Begins .value a.pieces := by
  cases a with
  | column c => exact c.begins_pieces
  | parameter p => exact ⟨param p, rfl, by simp [Piece.meets]⟩
  | null => cases given
  | count select => exact ⟨verbatim "(", rfl, by decide⟩

theorem Limit.gapFree_pieces (l : Limit) : GapFree l.pieces := by
  obtain ⟨count, offset?⟩ := l
  have first : GapFree [verbatim "LIMIT ", param count] :=
    (GapFree.nil.plain rfl).plain (by decide)
  cases offset? with
  | none => exact first
  | some offset => exact first.append ((GapFree.nil.plain rfl).plain (by decide))

theorem Entry.demand_opening (join? : Option JoinOn) :
    (verbatim (Entry.opening join?)).demand = .nothing := by
  cases join? with
  | none => decide
  | some on =>
    rw [Entry.opening]
    cases on.kind with
    | inner => decide
    | left => decide

theorem Entry.gapFree_closing (join? : Option JoinOn) : GapFree (Entry.closing join?) := by
  cases join? with
  | none => exact GapFree.nil
  | some on =>
    exact (on.outer.gapFree_pieces.append
      (on.inner.gapFree_pieces.plain (by decide))).plain (by decide)

/-! ### Conditions -/

/-- Only ordering demands something: a value that is not null. -/
theorem ComparisonOp.demand_equal (withNull : Bool) :
    (verbatim (ComparisonOp.equal.text withNull)).demand = .nothing := by
  cases withNull <;> decide

/-- The second side of a comparison in normal form may follow the sign. -/
theorem GapFree.comparison {xs ys : List Piece} {op : ComparisonOp} {withNull isNull : Bool}
    (first : GapFree xs) (second : GapFree ys) (equal : isNull = true → op = .equal)
    (begins : isNull = false → Begins .value ys) :
    GapFree (xs ++ verbatim (op.text withNull) :: ys) := by
  cases isNull with
  | true =>
    rw [equal rfl]
    exact first.append (second.plain (ComparisonOp.demand_equal withNull))
  | false => exact first.append (second.demanding (begins rfl).of_value)

/-- A condition in normal form begins with something. -/
theorem Condition.begins_pieces {c : Condition} (normal : c.isNormal = true) :
    Begins .part c.pieces := by
  cases c with
  | comparison left op right =>
    obtain ⟨notBoth, -⟩ := Condition.isNormal_comparison.mp normal
    rw [Condition.pieces]
    split
    · rename_i swapped
      rw [Bool.and_eq_true, Bool.not_eq_true'] at swapped
      exact (Operand.begins_pieces swapped.2).of_value.append _
    · rename_i kept
      have given : left.isNull = false := by
        cases nullLeft : left.isNull with
        | false => rfl
        | true => simp_all
      exact (Operand.begins_pieces given).of_value.append _
  | logical op terms =>
    obtain ⟨two, -⟩ := Condition.isNormal_logical.mp normal
    rcases terms with _ | ⟨first, _ | ⟨second, rest⟩⟩
    · simp at two
    · simp at two
    · rw [Condition.pieces, Condition.termPieces, Condition.termPieces, joinPieces]
      · exact ⟨verbatim "(", rfl, by decide⟩
      · exact List.cons_ne_nil _ _
  | not term =>
    rw [Condition.pieces]
    exact ⟨verbatim "NOT (", rfl, by decide⟩
  | like column text kind =>
    rw [Condition.pieces]
    exact column.begins_pieces.of_value.append _
  | isIn column values =>
    rw [Condition.pieces, List.append_assoc]
    exact column.begins_pieces.of_value.append _
  | nonempty select =>
    rw [Condition.pieces]
    exact ⟨verbatim "EXISTS ", rfl, by decide⟩

/-- Separated parts begin as the first of them does. -/
theorem Piece.Begins.join {d : Demand} (separator : String) {parts : List (List Piece)}
    (some : parts ≠ []) (h : ∀ part ∈ parts, Begins d part) :
    Begins d (joinPieces separator parts) :=
  joinPieces_closed (fun first _ => first.append _) (fun none => absurd none some) h

/-- A list of values in parentheses has no gaps, if there are any values. -/
theorem Parameter.gapFree_list {values : List Parameter} (some : values ≠ []) :
    GapFree (.verbatim " IN (" :: joinPieces ", " (values.map (fun p => [.param p]))
      ++ [.verbatim ")"]) := by
  have each : ∀ part ∈ values.map (fun p => [Piece.param p]), GapFree part ∧ Begins .part part := by
    intro part mem
    obtain ⟨p, -, rfl⟩ := List.mem_map.mp mem
    exact ⟨GapFree.nil.plain rfl, param p, rfl, by simp [Piece.meets]⟩
  have listed := GapFree.join (by decide : (verbatim ", ").demand = .nothing)
    fun part mem => (each part mem).1
  have begins := Begins.join ", " (by simpa using some) fun part mem => (each part mem).2
  exact (listed.opening begins (by decide)).append (GapFree.nil.plain (by decide))

/-- Terms in parentheses have no gaps, with the word between them. -/
theorem GapFree.terms {op : LogicalOp} {parts : List (List Piece)}
    (h : ∀ part ∈ parts, GapFree part ∧ Begins .part part) :
    GapFree (joinPieces (" " ++ op.word ++ " ") parts) := by
  have opens : " " ++ op.word ++ " " ∈ openingWords := by
    cases op <;> decide
  rcases eq_or_ne parts [] with rfl | some
  · exact GapFree.nil
  -- Each word between two terms needs the beginning of what follows as well.
  · refine (joinPieces_closed (P := fun pieces => GapFree pieces ∧ Begins .part pieces)
      (fun first second => ?_) (fun none => absurd none some) h).1
    exact ⟨first.1.append (second.1.opening second.2 opens), first.2.append _⟩

/-! ### Queries -/

open Select (AllNormal allNormal_append allNormal_nodes)

mutual

/-- **The text of a query in normal form has no gaps.** -/
theorem Select.gapFree_pieces : (s : Select) → AllNormal s.nodes → GapFree s.pieces
  | ⟨entries, filter?, order?, limit?, alias?⟩, normal => by
    obtain ⟨own, sources, below, ordered⟩ := (allNormal_nodes _).mp normal
    have list : GapFree (.verbatim "SELECT " :: joinPieces ", " (Entry.selectorPieces entries)) :=
      (GapFree.join (by decide) (Entry.gapFree_selectorPieces entries sources)).plain (by decide)
    have whole := ((list.append (Entry.gapFree_sourcePieces entries sources)).append
      (Condition.gapFree_wherePieces filter? own below)).append
      (OrderTerm.gapFree_orderPieces order? ordered)
    cases limit? with
    | none =>
      rw [Select.pieces, List.append_nil]
      exact whole
    | some limit =>
      rw [Select.pieces]
      exact whole.append (limit.gapFree_pieces.plain rfl)
termination_by structural s => s

theorem Entry.gapFree_selectorPieces : (entries : List Entry) → AllNormal (Entry.allNodes entries) →
    ∀ part ∈ Entry.selectorPieces entries, GapFree part
  | [], _, _, mem => absurd mem (by rw [Entry.selectorPieces]; exact List.not_mem_nil)
  | ⟨_, _, selectors⟩ :: rest, normal, part, mem => by
    rw [Entry.allNodes, allNormal_append, allNormal_append] at normal
    rw [Entry.selectorPieces] at mem
    rcases List.mem_append.mp mem with here | later
    · exact Selector.gapFree_listPieces selectors normal.1.2 part here
    · exact Entry.gapFree_selectorPieces rest normal.2 part later
termination_by structural entries => entries

theorem Entry.gapFree_sourcePieces : (entries : List Entry) → AllNormal (Entry.allNodes entries) →
    GapFree (Entry.sourcePieces entries)
  | [], _ => by rw [Entry.sourcePieces]; exact GapFree.nil
  | ⟨source, join?, _⟩ :: rest, normal => by
    rw [Entry.allNodes, allNormal_append, allNormal_append] at normal
    rw [Entry.sourcePieces]
    have opened := (Source.gapFree_pieces source normal.1.1).plain (Entry.demand_opening join?)
    exact ((opened.plain rfl).append (Entry.gapFree_closing join?)).append
      (Entry.gapFree_sourcePieces rest normal.2)
termination_by structural entries => entries

theorem Source.gapFree_pieces : (source : Source) → AllNormal source.nodes → GapFree source.pieces
  | .table t, _ => by
    rw [Source.pieces]
    exact (t.tableAlias.gapFree_pieces.plain (by decide)).plain rfl
  | .derived ⟨entries, filter?, order?, limit?, alias?⟩, normal => by
    have inside := (Select.gapFree_pieces ⟨entries, filter?, order?, limit?, alias?⟩ normal).nested
    cases alias? with
    | none =>
      rw [Source.pieces, List.append_nil]
      exact inside
    | some a =>
      rw [Source.pieces]
      exact inside.append (a.gapFree_pieces.plain (by decide))
termination_by structural source => source

theorem Selector.gapFree_listPieces : (selectors : List Selector) →
    AllNormal (Selector.allNodes selectors) → ∀ part ∈ Selector.listPieces selectors, GapFree part
  | [], _, _, mem => absurd mem (by rw [Selector.listPieces]; exact List.not_mem_nil)
  | selector :: rest, normal, part, mem => by
    rw [Selector.allNodes, allNormal_append] at normal
    rw [Selector.listPieces] at mem
    rcases List.mem_cons.mp mem with rfl | later
    · exact Selector.gapFree_pieces selector normal.1
    · exact Selector.gapFree_listPieces rest normal.2 part later
termination_by structural selectors => selectors

theorem Selector.gapFree_pieces :
    (selector : Selector) → AllNormal selector.nodes → GapFree selector.pieces
  | .column column none, _ => by
    rw [Selector.pieces, List.append_nil]
    exact column.gapFree_pieces
  | .column column (some name), _ => by
    rw [Selector.pieces]
    exact column.gapFree_pieces.append ((GapFree.nil.plain rfl).plain (by decide))
  | .one, _ => by
    rw [Selector.pieces]
    exact GapFree.nil.plain (by decide)
  | .countRows, _ => by
    rw [Selector.pieces]
    exact GapFree.nil.plain (by decide)
  | .rowNumber order name, normal => by
    have terms := GapFree.join (by decide : (verbatim ", ").demand = .nothing)
      (OrderTerm.gapFree_listPieces order normal)
    rw [Selector.pieces]
    exact ((terms.plain (by decide)).plain (by decide)).append
      ((GapFree.nil.plain rfl).plain (by decide))
termination_by structural selector => selector

theorem Condition.gapFree_wherePieces : (filter? : Option Condition) →
    (∀ condition ∈ filter?, condition.isNormal = true) →
    AllNormal (Condition.optionNodes filter?) → GapFree (Condition.wherePieces filter?)
  | none, _, _ => by rw [Condition.wherePieces]; exact GapFree.nil
  | some condition, own, below => by
    rw [Condition.wherePieces]
    exact ((Condition.gapFree_pieces condition (own condition rfl) below).opening
      (Condition.begins_pieces (own condition rfl)) (by decide)).plain rfl
termination_by structural filter? => filter?

theorem OrderTerm.gapFree_orderPieces : (order? : Option (List OrderTerm)) →
    AllNormal (OrderTerm.optionNodes order?) → GapFree (OrderTerm.orderPieces order?)
  | none, _ => by rw [OrderTerm.orderPieces]; exact GapFree.nil
  | some terms, normal => by
    rw [OrderTerm.orderPieces]
    exact ((GapFree.join (by decide) (OrderTerm.gapFree_listPieces terms normal)).plain
      (by decide)).plain rfl
termination_by structural order? => order?

theorem Condition.gapFree_pieces : (condition : Condition) → condition.isNormal = true →
    AllNormal condition.nodes → GapFree condition.pieces
  | .comparison left op right, normal, below => by
    obtain ⟨notBoth, equal⟩ := Condition.isNormal_comparison.mp normal
    rw [Condition.nodes, allNormal_append] at below
    have hleft := Operand.gapFree_pieces left below.1
    have hright := Operand.gapFree_pieces right below.2
    rw [Condition.pieces]
    split
    · exact GapFree.comparison hright hleft (fun null => equal (by simp [null]))
        Operand.begins_pieces
    · exact GapFree.comparison hleft hright (fun null => equal (by simp [null]))
        Operand.begins_pieces
  | .logical op terms, normal, below => by
    rw [Condition.pieces]
    exact GapFree.terms (Condition.gapFree_termPieces terms
      (fun term mem => ((Condition.isNormal_logical.mp normal).2 term mem).2) below)
  | .not term, normal, below => by
    rw [Condition.pieces]
    exact ((Condition.gapFree_pieces term normal below).opening
      (Condition.begins_pieces normal) (by decide)).append (GapFree.nil.plain (by decide))
  | .like column text kind, _, _ => by
    rw [Condition.pieces]
    exact column.gapFree_pieces.append ((GapFree.nil.plain rfl).plain (by decide))
  | .isIn column values, normal, _ => by
    rw [Condition.isNormal, decide_eq_true_eq] at normal
    rw [Condition.pieces, List.append_assoc]
    exact column.gapFree_pieces.append
      (Parameter.gapFree_list (List.ne_nil_of_length_pos (by omega)))
  | .nonempty select, _, below => by
    rw [Condition.pieces]
    exact (Select.gapFree_pieces select below).nested.plain (by decide)
termination_by structural condition => condition

theorem Condition.gapFree_termPieces : (terms : List Condition) →
    (∀ term ∈ terms, term.isNormal = true) → AllNormal (Condition.allNodes terms) →
    ∀ part ∈ Condition.termPieces terms, GapFree part ∧ Begins .part part
  | [], _, _, _, mem => absurd mem (by rw [Condition.termPieces]; exact List.not_mem_nil)
  | term :: rest, normal, below, part, mem => by
    rw [Condition.allNodes, allNormal_append] at below
    rw [Condition.termPieces] at mem
    rcases List.mem_cons.mp mem with rfl | later
    · have first := normal term (.head _)
      have inside := (Condition.gapFree_pieces term first below.1).opening
        (Condition.begins_pieces first) (by decide : "(" ∈ openingWords)
      exact ⟨inside.append (GapFree.nil.plain (by decide)), verbatim "(", rfl, by decide⟩
    · exact Condition.gapFree_termPieces rest (fun other listed => normal other (.tail _ listed))
        below.2 part later
termination_by structural terms => terms

theorem Operand.gapFree_pieces : (operand : Operand) → AllNormal operand.nodes →
    GapFree operand.pieces
  | .column column, _ => by
    rw [Operand.pieces]
    exact column.gapFree_pieces
  | .parameter p, _ => by
    rw [Operand.pieces]
    exact GapFree.nil.plain rfl
  | .null, _ => by
    rw [Operand.pieces]
    exact GapFree.nil.plain (by decide)
  | .count select, normal => by
    rw [Operand.pieces]
    exact (Select.gapFree_pieces select normal).nested
termination_by structural operand => operand

theorem OrderTerm.gapFree_listPieces : (terms : List OrderTerm) →
    AllNormal (OrderTerm.allNodes terms) → ∀ part ∈ OrderTerm.listPieces terms, GapFree part
  | [], _, _, mem => absurd mem (by rw [OrderTerm.listPieces]; exact List.not_mem_nil)
  | ⟨target, descending⟩ :: rest, normal, part, mem => by
    rw [OrderTerm.allNodes, allNormal_append] at normal
    rw [OrderTerm.listPieces] at mem
    rcases List.mem_cons.mp mem with rfl | later
    · refine (OrderTarget.gapFree_pieces target normal.1).append ?_
      cases descending with
      | true => exact GapFree.nil.plain (by decide)
      | false => exact GapFree.nil
    · exact OrderTerm.gapFree_listPieces rest normal.2 part later
termination_by structural terms => terms

theorem OrderTarget.gapFree_pieces : (target : OrderTarget) → AllNormal target.nodes →
    GapFree target.pieces
  | .column column, _ => by
    rw [OrderTarget.pieces]
    exact column.gapFree_pieces
  | .count select, normal => by
    rw [OrderTarget.pieces]
    exact (Select.gapFree_pieces select normal).nested
termination_by structural target => target

end

/-! ### Statements -/

/-- A list of assignments, as far as the values are concerned. -/
theorem Assignment.gapFree_values {assignments : List Assignment}
    (normal : AllNormal (assignments.flatMap (fun a => a.value.nodes))) :
    GapFree (joinPieces ", " (assignments.map (fun a => a.value.pieces))) := by
  refine GapFree.join (by decide) fun part mem => ?_
  obtain ⟨a, listed, rfl⟩ := List.mem_map.mp mem
  exact a.value.gapFree_pieces (Select.allNormal_flatMap.mp normal a listed)

theorem Assignment.gapFree_rowPieces {assignments : List Assignment}
    (normal : AllNormal (assignments.flatMap (fun a => a.value.nodes))) :
    GapFree (Assignment.rowPieces assignments) := by
  cases assignments with
  | nil => exact (GapFree.nil.plain (by decide)).plain rfl
  | cons first rest =>
    have columns : GapFree (joinPieces ", "
        ((first :: rest).map (fun a => [.identifier a.column]))) := by
      refine GapFree.join (by decide) fun part mem => ?_
      obtain ⟨a, -, rfl⟩ := List.mem_map.mp mem
      exact GapFree.nil.plain rfl
    have middle : GapFree [.verbatim ")", .newLine, .verbatim "VALUES ("] :=
      ((GapFree.nil.plain (by decide)).plain rfl).plain (by decide)
    exact (((columns.plain (by decide)).append middle).append
      (Assignment.gapFree_values normal)).append (GapFree.nil.plain (by decide))

/-- **The text of a statement in normal form has no gaps**: no condition is empty, no list is
without values, and no sign that orders values stands before null. -/
theorem Statement.IsNormal.gapFree_pieces {s : Statement} (normal : s.IsNormal) :
    GapFree s.pieces := by
  obtain ⟨own, below⟩ := normal
  cases s with
  | select query => exact query.gapFree_pieces below
  | insert table assignments returning =>
    have returned : GapFree [.newLine, .verbatim "RETURNING ", .identifier returning] :=
      ((GapFree.nil.plain rfl).plain (by decide)).plain rfl
    exact (((Assignment.gapFree_rowPieces below).plain rfl).plain (by decide)).append returned
  | update table assignments filter =>
    obtain ⟨written, inside⟩ := allNormal_append.mp below
    have changed : GapFree (joinPieces ", " (assignments.map Assignment.pieces)) := by
      refine GapFree.join (by decide) fun part mem => ?_
      obtain ⟨a, listed, rfl⟩ := List.mem_map.mp mem
      exact ((a.value.gapFree_pieces
        (Select.allNormal_flatMap.mp written a listed)).plain (by decide)).plain rfl
    have opened : GapFree ([.verbatim "UPDATE ", .identifier table, .newLine, .verbatim "SET "]
        ++ joinPieces ", " (assignments.map Assignment.pieces)) :=
      (((changed.plain (by decide)).plain rfl).plain rfl).plain (by decide)
    exact opened.append (Condition.gapFree_wherePieces (some filter) own inside)
  | delete table filter =>
    have opened : GapFree [.verbatim "DELETE FROM ", .identifier table] :=
      (GapFree.nil.plain rfl).plain (by decide)
    exact opened.append (Condition.gapFree_wherePieces (some filter) own below)

end ResourceQuery.Sql
