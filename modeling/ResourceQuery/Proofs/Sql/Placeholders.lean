import ResourceQuery.Proofs.Sql.Scanning
import ResourceQuery.Sql.Render

/-!
# Placeholders of statements

The text of every statement can be read for its parameters: what the user may choose (names of
tables and columns, the text of a pattern) stands between quotes, and between two parameters there
are always words of the language.  So the text with placeholders is the statement written with
placeholders from the start.

## Main Definitions

- `Piece.isWord`: words that may follow a parameter.

## Main Statements

- `Select.readable_pieces`: the pieces of every query are readable.
- `Statement.positional_writes_placeholders`: the text with placeholders is the statement written
  with placeholders.
-/

namespace ResourceQuery.Sql

/-! ### Words between parameters -/

namespace Piece

/-- Words of the language that may follow a parameter: they consist of plain characters and do not
begin with a digit. -/
def isWord (text : String) : Bool :=
  match text.toList with
  | [] => false
  | c :: rest => !c.isDigit && (c :: rest).all isPlain

theorem startsClear_word {text : String} (word : isWord text = true) (rest : List Piece) :
    StartsClear (verbatim text :: rest) := by
  cases htext : text.toList with
  | nil =>
    rw [isWord, htext] at word
    cases word
  | cons c chars =>
    rw [isWord, htext, Bool.and_eq_true, Bool.not_eq_true'] at word
    rw [StartsClear, htext]
    exact word.1

/-- Readable pieces may follow words. -/
theorem Readable.word {text : String} {rest : List Piece} (word : isWord text = true)
    (h : Readable rest) : Readable (verbatim text :: rest) := by
  refine ⟨?_, h⟩
  rw [isWord] at word
  split at word
  · cases word
  · rename_i c chars htext
    rw [htext]
    exact (Bool.and_eq_true_iff.mp word).2

/-- Words may stand between readable pieces. -/
theorem Readable.append_word {xs rest : List Piece} {text : String} (first : Readable xs)
    (word : isWord text = true) (second : Readable rest) :
    Readable (xs ++ verbatim text :: rest) :=
  first.append (second.word word) (startsClear_word word rest)

/-- A line may follow readable pieces. -/
theorem Readable.append_newLine {xs rest : List Piece} (first : Readable xs)
    (second : Readable rest) : Readable (xs ++ newLine :: rest) :=
  first.append second trivial

end Piece

open Piece

/-- Readable parts are readable with words between them. -/
theorem readable_joinPieces {separator : String} (word : isWord separator = true)
    {parts : List (List Piece)} (h : ∀ part ∈ parts, Readable part) :
    Readable (joinPieces separator parts) :=
  joinPieces_closed (fun first second => first.append_word word second) (fun _ => trivial) h

/-- A query on lines of its own is readable. -/
theorem readable_nested {pieces : List Piece} (h : Readable pieces) :
    Readable (nested pieces) := by
  have last : Readable [.unindent, .newLine, .verbatim ")"] := Readable.word (by decide) trivial
  exact (h.append last trivial).word (by decide)

theorem isWord_tableAlias (a : TableAlias) : isWord a.text = true := by
  have plain : ∀ c ∈ Nat.toDigits 10 a.index, isPlain c = true := by
    intro c mem
    have digit : c.isDigit = true := Nat.isDigit_of_mem_toDigits (by decide) (by decide) mem
    rw [isPlain]
    simp only [Bool.and_eq_true, decide_eq_true_eq]
    refine ⟨⟨?_, ?_⟩, ?_⟩
    all_goals
      rintro rfl
      cases digit
  rw [isWord, a.toList_text]
  simpa [isPlain] using plain

theorem Column.readable_pieces (c : Column) : Readable c.pieces := by
  rw [Column.pieces]
  split
  · rename_i a _
    exact Readable.word (isWord_tableAlias a) (Readable.word (by decide) trivial)
  · trivial

theorem ComparisonOp.isWord_text (op : ComparisonOp) (withNull : Bool) :
    isWord (op.text withNull) = true := by
  cases withNull <;> cases op <;> decide

theorem LogicalOp.isWord_word (op : LogicalOp) : isWord (" " ++ op.word ++ " ") = true := by
  cases op <;> decide

theorem Limit.readable_pieces (l : Limit) : Readable l.pieces := by
  obtain ⟨count, offset?⟩ := l
  cases offset? with
  | none => exact Readable.word (by decide) ⟨trivial, trivial⟩
  | some offset =>
    exact Readable.word (by decide)
      ⟨startsClear_word (by decide) _, Readable.word (by decide) ⟨trivial, trivial⟩⟩

theorem Entry.isWord_opening (join? : Option JoinOn) : isWord (Entry.opening join?) = true := by
  cases join? with
  | none => decide
  | some on =>
    rw [Entry.opening]
    cases on.kind with
    | inner => decide
    | left => decide

theorem Entry.readable_closing (join? : Option JoinOn) : Readable (Entry.closing join?) := by
  cases join? with
  | none => trivial
  | some on =>
    exact Readable.word (by decide)
      (on.outer.readable_pieces.append_word (by decide) on.inner.readable_pieces)

theorem Entry.startsClear_closing (join? : Option JoinOn) :
    StartsClear (Entry.closing join?) := by
  cases join? with
  | none => trivial
  | some on => exact startsClear_word (by decide) _

/-! ### Queries -/

theorem Entry.startsClear_sourcePieces (entries : List Entry) :
    StartsClear (Entry.sourcePieces entries) := by
  cases entries with
  | nil => trivial
  | cons entry rest =>
    obtain ⟨source, join?, selectors⟩ := entry
    rw [Entry.sourcePieces]
    trivial

theorem Condition.startsClear_wherePieces (filter? : Option Condition) :
    StartsClear (Condition.wherePieces filter?) := by
  cases filter? with
  | none => rw [Condition.wherePieces]; trivial
  | some filter => rw [Condition.wherePieces]; trivial

theorem OrderTerm.startsClear_orderPieces (order? : Option (List OrderTerm)) :
    StartsClear (OrderTerm.orderPieces order?) := by
  cases order? with
  | none => rw [OrderTerm.orderPieces]; trivial
  | some order => rw [OrderTerm.orderPieces]; trivial

mutual

/-- **The pieces of every query are readable.** -/
theorem Select.readable_pieces : (s : Select) → Readable s.pieces
  | ⟨entries, filter?, order?, limit?, _⟩ => by
    have list : Readable (.verbatim "SELECT " :: joinPieces ", " (Entry.selectorPieces entries)) :=
      (readable_joinPieces (by decide) (Entry.readable_selectorPieces entries)).word (by decide)
    have sources := list.append (Entry.readable_sourcePieces entries)
      (Entry.startsClear_sourcePieces entries)
    have filtered := sources.append (Condition.readable_wherePieces filter?)
      (Condition.startsClear_wherePieces filter?)
    have ordered := filtered.append (OrderTerm.readable_orderPieces order?)
      (OrderTerm.startsClear_orderPieces order?)
    cases limit? with
    | none =>
      rw [Select.pieces, List.append_nil]
      exact ordered
    | some limit =>
      rw [Select.pieces]
      exact ordered.append_newLine limit.readable_pieces
termination_by structural s => s

theorem Entry.readable_selectorPieces :
    (entries : List Entry) → ∀ part ∈ Entry.selectorPieces entries, Readable part
  | [], _, mem => absurd mem (by rw [Entry.selectorPieces]; exact List.not_mem_nil)
  | ⟨_, _, selectors⟩ :: rest, part, mem => by
    rw [Entry.selectorPieces] at mem
    rcases List.mem_append.mp mem with here | later
    · exact Selector.readable_listPieces selectors part here
    · exact Entry.readable_selectorPieces rest part later
termination_by structural entries => entries

theorem Entry.readable_sourcePieces :
    (entries : List Entry) → Readable (Entry.sourcePieces entries)
  | [] => by rw [Entry.sourcePieces]; trivial
  | ⟨source, join?, _⟩ :: rest => by
    rw [Entry.sourcePieces]
    have opened : Readable (.newLine :: .verbatim (Entry.opening join?) :: source.pieces) :=
      (Source.readable_pieces source).word (Entry.isWord_opening join?)
    exact (opened.append (Entry.readable_closing join?) (Entry.startsClear_closing join?)).append
      (Entry.readable_sourcePieces rest) (Entry.startsClear_sourcePieces rest)
termination_by structural entries => entries

theorem Source.readable_pieces : (source : Source) → Readable source.pieces
  | .table t => by
    rw [Source.pieces]
    exact Readable.word (by decide) (Readable.word (isWord_tableAlias _) trivial)
  | .derived ⟨entries, filter?, order?, limit?, none⟩ => by
    rw [Source.pieces, List.append_nil]
    exact readable_nested (Select.readable_pieces ⟨entries, filter?, order?, limit?, none⟩)
  | .derived ⟨entries, filter?, order?, limit?, some a⟩ => by
    rw [Source.pieces]
    have inner := readable_nested
      (Select.readable_pieces ⟨entries, filter?, order?, limit?, some a⟩)
    exact inner.append_word (by decide) (Readable.word (isWord_tableAlias a) trivial)
termination_by structural source => source

theorem Selector.readable_listPieces :
    (selectors : List Selector) → ∀ part ∈ Selector.listPieces selectors, Readable part
  | [], _, mem => absurd mem (by rw [Selector.listPieces]; exact List.not_mem_nil)
  | selector :: rest, part, mem => by
    rw [Selector.listPieces] at mem
    rcases List.mem_cons.mp mem with rfl | later
    · exact Selector.readable_pieces selector
    · exact Selector.readable_listPieces rest part later
termination_by structural selectors => selectors

theorem Selector.readable_pieces : (selector : Selector) → Readable selector.pieces
  | .column column none => by
    rw [Selector.pieces, List.append_nil]
    exact column.readable_pieces
  | .column column (some name) => by
    rw [Selector.pieces]
    exact column.readable_pieces.append_word (by decide) trivial
  | .one => by
    rw [Selector.pieces]
    exact ⟨by decide, trivial⟩
  | .countRows => by
    rw [Selector.pieces]
    exact Readable.word (by decide) trivial
  | .rowNumber order name => by
    rw [Selector.pieces]
    have terms : Readable (joinPieces ", " (OrderTerm.listPieces order)) :=
      readable_joinPieces (by decide) (OrderTerm.readable_listPieces order)
    have opened : Readable ([.verbatim "ROW_NUMBER() OVER (", .verbatim "ORDER BY "]
        ++ joinPieces ", " (OrderTerm.listPieces order)) :=
      (terms.word (by decide)).word (by decide)
    exact opened.append_word (by decide) trivial
termination_by structural selector => selector

theorem Condition.readable_wherePieces :
    (filter? : Option Condition) → Readable (Condition.wherePieces filter?)
  | none => by rw [Condition.wherePieces]; trivial
  | some condition => by
    rw [Condition.wherePieces]
    exact (Condition.readable_pieces condition).word (by decide)
termination_by structural filter? => filter?

theorem OrderTerm.readable_orderPieces :
    (order? : Option (List OrderTerm)) → Readable (OrderTerm.orderPieces order?)
  | none => by rw [OrderTerm.orderPieces]; trivial
  | some terms => by
    rw [OrderTerm.orderPieces]
    exact Readable.word (by decide)
      (readable_joinPieces (by decide) (OrderTerm.readable_listPieces terms))
termination_by structural order? => order?

theorem Condition.readable_pieces : (condition : Condition) → Readable condition.pieces
  | .comparison left op right => by
    rw [Condition.pieces]
    have hleft := Operand.readable_pieces left
    have hright := Operand.readable_pieces right
    split
    · exact hright.append_word (op.isWord_text true) hleft
    · exact hleft.append_word (op.isWord_text right.isNull) hright
  | .logical op terms => by
    rw [Condition.pieces]
    exact readable_joinPieces op.isWord_word (Condition.readable_termPieces terms)
  | .not term => by
    rw [Condition.pieces]
    exact ((Condition.readable_pieces term).word (by decide)).append_word (by decide) trivial
  | .like column text kind => by
    rw [Condition.pieces]
    exact column.readable_pieces.append_word (by decide) trivial
  | .isIn column values => by
    rw [Condition.pieces]
    have listed : Readable (joinPieces ", " (values.map (fun p => [.param p]))) := by
      refine readable_joinPieces (by decide) (fun part mem => ?_)
      obtain ⟨p, -, rfl⟩ := List.mem_map.mp mem
      exact ⟨trivial, trivial⟩
    have opened : Readable (column.pieces ++ .verbatim " IN ("
        :: joinPieces ", " (values.map (fun p => [.param p]))) :=
      column.readable_pieces.append_word (by decide) listed
    exact opened.append_word (by decide) trivial
  | .nonempty select => by
    rw [Condition.pieces]
    exact (readable_nested (Select.readable_pieces select)).word (by decide)
termination_by structural condition => condition

theorem Condition.readable_termPieces :
    (terms : List Condition) → ∀ part ∈ Condition.termPieces terms, Readable part
  | [], _, mem => absurd mem (by rw [Condition.termPieces]; exact List.not_mem_nil)
  | term :: rest, part, mem => by
    rw [Condition.termPieces] at mem
    rcases List.mem_cons.mp mem with rfl | later
    · exact ((Condition.readable_pieces term).word (by decide)).append_word (by decide) trivial
    · exact Condition.readable_termPieces rest part later
termination_by structural terms => terms

theorem Operand.readable_pieces : (operand : Operand) → Readable operand.pieces
  | .column column => by
    rw [Operand.pieces]
    exact column.readable_pieces
  | .parameter p => by
    rw [Operand.pieces]
    exact ⟨trivial, trivial⟩
  | .null => by
    rw [Operand.pieces]
    exact Readable.word (by decide) trivial
  | .count select => by
    rw [Operand.pieces]
    exact readable_nested (Select.readable_pieces select)
termination_by structural operand => operand

theorem OrderTerm.readable_listPieces :
    (terms : List OrderTerm) → ∀ part ∈ OrderTerm.listPieces terms, Readable part
  | [], _, mem => absurd mem (by rw [OrderTerm.listPieces]; exact List.not_mem_nil)
  | ⟨target, descending⟩ :: rest, part, mem => by
    rw [OrderTerm.listPieces] at mem
    rcases List.mem_cons.mp mem with rfl | later
    · have written := OrderTarget.readable_pieces target
      cases descending with
      | true => exact written.append_word (by decide) trivial
      | false =>
        rw [if_neg Bool.false_ne_true, List.append_nil]
        exact written
    · exact OrderTerm.readable_listPieces rest part later
termination_by structural terms => terms

theorem OrderTarget.readable_pieces : (target : OrderTarget) → Readable target.pieces
  | .column column => by
    rw [OrderTarget.pieces]
    exact column.readable_pieces
  | .count select => by
    rw [OrderTarget.pieces]
    exact readable_nested (Select.readable_pieces select)
termination_by structural target => target

end

/-! ### Statements -/

theorem Assignment.readable_pieces (a : Assignment) : Readable a.pieces :=
  Readable.word (by decide) a.value.readable_pieces

theorem Assignment.readable_rowPieces (assignments : List Assignment) :
    Readable (Assignment.rowPieces assignments) := by
  cases assignments with
  | nil => exact Readable.word (by decide) trivial
  | cons first rest =>
    have columns : Readable (.verbatim " (" :: joinPieces ", "
        ((first :: rest).map (fun a => [.identifier a.column]))) := by
      refine (readable_joinPieces (by decide) (fun part mem => ?_)).word (by decide)
      obtain ⟨a, -, rfl⟩ := List.mem_map.mp mem
      trivial
    have values : Readable (joinPieces ", " ((first :: rest).map (fun a => a.value.pieces))) := by
      refine readable_joinPieces (by decide) (fun part mem => ?_)
      obtain ⟨a, -, rfl⟩ := List.mem_map.mp mem
      exact a.value.readable_pieces
    have closed : Readable (joinPieces ", " ((first :: rest).map (fun a => a.value.pieces))
        ++ [.verbatim ")"]) := values.append_word (by decide) trivial
    have rowValues : Readable (.newLine :: .verbatim "VALUES ("
        :: (joinPieces ", " ((first :: rest).map (fun a => a.value.pieces)) ++ [.verbatim ")"])) :=
      closed.word (by decide)
    have closing : isWord ")" = true := by decide
    have row := columns.append_word closing rowValues
    simpa only [Assignment.rowPieces, List.append_assoc, List.cons_append, List.nil_append]
      using row

/-- The pieces of every statement are readable. -/
theorem Statement.readable_pieces (s : Statement) : Readable s.pieces := by
  cases s with
  | select query => exact query.readable_pieces
  | insert table assignments returning =>
    have row : Readable (.verbatim "INSERT INTO " :: .identifier table
        :: Assignment.rowPieces assignments) :=
      Readable.word (by decide) (Assignment.readable_rowPieces assignments)
    have returned : Readable [.verbatim "RETURNING ", .identifier returning] :=
      Readable.word (by decide) trivial
    exact row.append_newLine returned
  | update table assignments filter =>
    have assigned : Readable (joinPieces ", " (assignments.map Assignment.pieces)) := by
      refine readable_joinPieces (by decide) (fun part mem => ?_)
      obtain ⟨a, -, rfl⟩ := List.mem_map.mp mem
      exact a.readable_pieces
    have changed : Readable ([.verbatim "UPDATE ", .identifier table, .newLine, .verbatim "SET "]
        ++ joinPieces ", " (assignments.map Assignment.pieces)) := by
      have set : Readable (.verbatim "SET "
          :: joinPieces ", " (assignments.map Assignment.pieces)) := assigned.word (by decide)
      exact Readable.word (by decide) set
    exact changed.append (Condition.readable_wherePieces (some filter))
      (Condition.startsClear_wherePieces (some filter))
  | delete table filter =>
    have removed : Readable [.verbatim "DELETE FROM ", .identifier table] :=
      Readable.word (by decide) trivial
    exact removed.append (Condition.readable_wherePieces (some filter))
      (Condition.startsClear_wherePieces (some filter))

/-- **Placeholders agree with the text.**  Let the parameters of a statement have numbered names;
tables, columns and patterns may be any text.  The text with placeholders exists, and differs from
the text of the statement only in how parameters are written: each as the position of its name
among the registered ones, with a conversion exactly behind values that are sent as text.  The
numbers in use are those from one to the number of parameters, and they first occur in ascending
order. -/
theorem Statement.positional_writes_placeholders (s : Statement)
    (numbered : ∀ p ∈ references s.pieces, p.IsNumbered) :
    s.render.text = String.ofList (chars (fun p => p.name.toList) s.pieces)
      ∧ s.render.positional = .ok (String.ofList (chars s.render.placeholderOf s.pieces))
      ∧ (s.render.params.map Prod.fst).Nodup
      ∧ (∀ p ∈ references s.pieces,
          (s.render.params.map Prod.fst)[s.render.place p.name - 1]? = some p.name)
      ∧ ((references s.pieces).map (fun p => s.render.place p.name)).eraseDups
          = List.range' 1 s.render.params.length := by
  refine ⟨rfl, ?_, ?_, ?_, ?_⟩
  · exact Piece.positional_eq s.readable_pieces numbered
  · exact (map_fst_params s.pieces).2
  · intro p mem
    exact Rendered.getElem?_place (name_mem_params mem)
  · exact eraseDups_places s.pieces

/-- A statement whose table, column and pattern contain quotation marks and the name of a
parameter; the first reference decides that the second parameter is a date. -/
def Statement.dueOfQuoted : Statement :=
  .update "it's \"@p1\"" [⟨"due", .parameter ⟨"@p2", .cast "2024-01-31" .date⟩⟩]
    (.logical .or [
      .like (.inTable "@p2" .scalar none) "don't \\ @p1\n" .contains,
      .isIn (.inTable "id" .scalar (some ⟨1⟩)) [⟨"@p10", .int 7⟩, ⟨"@p2", .null⟩]])

theorem Statement.positional_writes_placeholders_dueOfQuoted :
    (∀ p ∈ references dueOfQuoted.pieces, p.IsNumbered)
      ∧ dueOfQuoted.render.positional = .ok ("UPDATE \"it's \"\"@p1\"\"\"\nSET \"due\" = $1::date\n"
        ++ "WHERE (\"@p2\" LIKE '%don''t \\\\ @p1\n%') OR (t1.\"id\" IN ($2, $1::date))")
      ∧ (dueOfQuoted.render.params.map Prod.fst)[dueOfQuoted.render.place "@p10" - 1]? = some "@p10"
      ∧ ((references dueOfQuoted.pieces).map
          (fun p => dueOfQuoted.render.place p.name)).eraseDups = [1, 2] := by
  have numbered : ∀ p ∈ references dueOfQuoted.pieces, p.IsNumbered := by
    have refs : references dueOfQuoted.pieces
        = [⟨"@p2", .cast "2024-01-31" .date⟩, ⟨"@p10", .int 7⟩, ⟨"@p2", .null⟩] := by
      decide +kernel
    rw [refs]
    intro p mem
    simp only [List.mem_cons, List.not_mem_nil, or_false] at mem
    rcases mem with rfl | rfl | rfl
    · exact ⟨['2'], by decide, List.all_eq_true.mp (by decide), by decide⟩
    · exact ⟨['1', '0'], by decide, List.all_eq_true.mp (by decide), by decide⟩
    · exact ⟨['2'], by decide, List.all_eq_true.mp (by decide), by decide⟩
  obtain ⟨-, text, -, place, order⟩ := dueOfQuoted.positional_writes_placeholders numbered
  have registered : dueOfQuoted.render.params.length = 2 := by decide +kernel
  rw [registered] at order
  exact ⟨numbered, text.trans (by decide +kernel), place ⟨"@p10", .int 7⟩ (by decide +kernel),
    order⟩

end ResourceQuery.Sql
