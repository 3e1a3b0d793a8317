import Mathlib.Data.List.Forall2
import ResourceQuery.Proofs.Sql.Scoping
import ResourceQuery.Proofs.Sql.Semantics

/-!
# Orders of a result

The order of a query leaves open how rows that tie are arranged.  This file says which orders of
the rows are possible, what follows for a row that lies between two others, and where the rows of a
query and of a derived table come from.

## Main Definitions

- `Engine.ties`: neither of two values comes before the other.
- `Select.found`: the bindings that a query returns a row for.
- `Select.Arranged`: an order in which a query may return its rows.
- `Select.KeepsTogether`: rows of one resource are next to each other in all these orders.
- `Select.divides`: a row that may come between two rows of another resource.

## Main Statements

- `Engine.ties_of_between`: a row between two rows of equal keys ties with them.
- `Entry.eq_elsewhere`: a source changes a binding only under its own alias.
- `Entry.start_mem`: the first source shows one of its rows.
- `Source.exists_of_mem_rows`: a row of a derived table holds the columns of a binding.
- `Source.rows_eq_rowsAsFound`: rows that are found in order are returned so.
-/

namespace ResourceQuery.Sql

variable {e : Engine} {db : Database e} {around : Binding e}

/-! ### Rows between rows -/

/-- Does neither of two values, or nulls, come before the other. -/
def Engine.ties (e : Engine) (v w : Option e.Datum) : Bool :=
  e.sorts v w && e.sorts w v

/-- The bindings that a query returns a row for. -/
def Select.found (db : Database e) (s : Select) (around : Binding e) : List (Binding e) :=
  (Entry.bindings db s.entries around [around]).filter
    (fun b => (Condition.optionTruth db s.filter? b).isTrue)

/-- **An order in which a query without limit may return its rows**: all of them, and none behind
one that it has to precede. -/
structure Select.Arranged (db : Database e) (s : Select) (rows : List (Binding e)) : Prop where
  complete : rows.Perm (s.found db Binding.empty)
  sorted : rows.Pairwise (fun b c => e.arranges (OrderTerm.optionKeys db s.order? b)
    (OrderTerm.optionKeys db s.order? c) = true)

/-- **Rows of one resource stay together**: in every order in which a query may return its rows,
only rows with the same identifier are between two rows with that identifier. -/
def Select.KeepsTogether (db : Database e) (s : Select) (root : TableAlias) (id : String) : Prop :=
  ∀ rows, s.Arranged db rows → ∀ b c d, [b, c, d].Sublist rows →
    e.same (b root id) (d root id) = true → e.same (b root id) (c root id) = true

/-- **A row between two rows of equal keys ties with them**, key by key.  What follows the keys
does not matter. -/
theorem Engine.ties_of_between {ks cs xs ys zs : List (Option e.Datum × Bool)}
    (flags : ks.map Prod.snd = cs.map Prod.snd)
    (after : e.arranges (ks ++ xs) (cs ++ ys) = true)
    (before : e.arranges (cs ++ ys) (ks ++ zs) = true) :
    List.Forall₂ (fun k c => e.ties k.1 c.1 = true) ks cs := by
  induction ks generalizing cs with
  | nil =>
    cases cs with
    | nil => exact .nil
    | cons c cs => cases flags
  | cons k ks ih =>
    cases cs with
    | nil => cases flags
    | cons c cs =>
      obtain ⟨v, descending⟩ := k
      obtain ⟨w, descending'⟩ := c
      obtain ⟨rfl, others⟩ := List.cons.inj flags
      rw [List.cons_append, List.cons_append, arranges] at after before
      rw [Bool.and_comm] at before
      by_cases tied : (e.sorts v w && e.sorts w v) = true
      · rw [if_pos tied] at after before
        exact .cons tied (ih others after before)
      · -- Otherwise the key decides, and it cannot decide in both directions.
        rw [if_neg tied] at after before
        rw [Bool.and_eq_true] at tied
        cases descending with
        | true => exact absurd ⟨before, after⟩ tied
        | false => exact absurd ⟨after, before⟩ tied

theorem OrderTerm.keys_append (terms more : List OrderTerm) (b : Binding e) :
    OrderTerm.keys db (terms ++ more) b
      = OrderTerm.keys db terms b ++ OrderTerm.keys db more b := by
  induction terms with
  | nil => rfl
  | cons term rest ih =>
    obtain ⟨target, descending⟩ := term
    rw [List.cons_append, OrderTerm.keys, OrderTerm.keys, ih, List.cons_append]

/-! ### Where bindings come from -/

namespace Entry

theorem bindings_append (entries more : List Entry) (found : List (Binding e)) :
    bindings db (entries ++ more) around found
      = bindings db more around (bindings db entries around found) := by
  induction entries generalizing found with
  | nil => rfl
  | cons entry rest ih =>
    obtain ⟨source, join?, selectors⟩ := entry
    rw [List.cons_append, bindings, bindings, ih]

/-- What a binding is extended to is the binding with one more row, which belongs to the source or
stands for a missing one. -/
theorem exists_of_mem_extend {join? : Option JoinOn} {alias? : Option TableAlias}
    {rows : List (Row e)} {b c : Binding e} (mem : c ∈ JoinOn.extend join? alias? rows b) :
    ∃ row, c = b.set alias? row := by
  unfold JoinOn.extend at mem
  split at mem
  · obtain ⟨row, -, rfl⟩ := List.mem_map.mp mem
    exact ⟨row, rfl⟩
  · dsimp only at mem
    split at mem
    · rw [List.mem_singleton] at mem
      exact ⟨Row.null, mem⟩
    · obtain ⟨row, -, rfl⟩ := List.mem_map.mp (List.mem_filter.mp mem).1
      exact ⟨row, rfl⟩

/-- **Sources change a binding only under their own aliases.** -/
theorem eq_elsewhere {entries : List Entry} {found : List (Binding e)} {b : Binding e}
    (mem : b ∈ bindings db entries around found) :
    ∃ c ∈ found, ∀ a, (∀ entry ∈ entries, entry.source.alias? ≠ some a) → b a = c a := by
  induction entries generalizing found with
  | nil => exact ⟨b, mem, fun _ _ => rfl⟩
  | cons entry rest ih =>
    obtain ⟨source, join?, selectors⟩ := entry
    rw [bindings] at mem
    obtain ⟨c, hc, same⟩ := ih mem
    obtain ⟨start, hstart, extended⟩ := List.mem_flatMap.mp hc
    obtain ⟨row, rfl⟩ := exists_of_mem_extend extended
    refine ⟨start, hstart, fun a unlisted => ?_⟩
    rw [same a fun entry hentry => unlisted entry (.tail _ hentry), Binding.set,
      if_neg (unlisted _ (.head _))]

/-- **The first source shows one of its rows.** -/
theorem start_mem {source : Source} {selectors : List Selector} {rest : List Entry}
    {a : TableAlias} {b : Binding e} (named : source.alias? = some a)
    (apart : ∀ entry ∈ rest, entry.source.alias? ≠ some a)
    (mem : b ∈ bindings db (⟨source, none, selectors⟩ :: rest) around [around]) :
    b a ∈ source.rows db around := by
  rw [bindings, List.flatMap_singleton] at mem
  obtain ⟨c, hc, same⟩ := eq_elsewhere mem
  obtain ⟨row, hrow, rfl⟩ := List.mem_map.mp hc
  rw [same a apart, named, Binding.set_self]
  exact hrow

end Entry

/-! ### Rows of derived tables -/

theorem Limit.mem_of_mem_window {α : Type} {limit? : Option Limit} {rows : List α} {row : α}
    (mem : row ∈ Limit.window limit? rows) : row ∈ rows := by
  unfold Limit.window at mem
  split at mem
  · exact mem
  · dsimp only at mem
    split at mem
    · have skipped := List.mem_of_mem_take mem
      split at skipped
      · exact List.mem_of_mem_drop skipped
      · exact skipped
    · split at mem
      · exact List.mem_of_mem_drop mem
      · exact mem

/-- The answers of a query that counts nothing are cells of the bindings found. -/
theorem Select.exists_of_mem_answers {s : Select}
    (plain : s.entries.any (fun entry => entry.selectors.any Selector.countsRows) = false)
    {answer : Answer e} (mem : answer ∈ s.answers db around) :
    ∃ b ∈ s.found db around, ∃ numbered i, answer = Entry.cells db s.entries numbered (b, i) := by
  obtain ⟨entries, filter?, order?, limit?, alias?⟩ := s
  rw [Select.answers, if_neg (by simpa using plain)] at mem
  obtain ⟨⟨b, i⟩, listed, rfl⟩ := List.mem_map.mp mem
  have numbered : (b, i) ∈ (Select.found db ⟨entries, filter?, order?, limit?, alias?⟩
      around).zipIdx := by
    have arranged := Limit.mem_of_mem_window listed
    split at arranged
    · exact arranged
    · exact (List.mergeSort_perm _ _).mem_iff.mp arranged
  exact ⟨b, List.fst_mem_of_mem_zipIdx numbered, _, i, rfl⟩

/-- The rows of a derived table in the order in which they are found. -/
def Select.rowsAsFound (db : Database e) (s : Select) (around : Binding e) : List (Row e) :=
  (Limit.window s.limit? (s.found db around).zipIdx).map
    (fun b => Answer.row (Entry.cells db s.entries (s.found db around).zipIdx b))

/-- **Rows that are found in order are returned so.** -/
theorem Source.rows_eq_rowsAsFound {s : Select}
    (plain : s.entries.any (fun entry => entry.selectors.any Selector.countsRows) = false)
    (inOrder : (s.found db around).Pairwise (fun b c => e.arranges
      (OrderTerm.optionKeys db s.order? b) (OrderTerm.optionKeys db s.order? c) = true)) :
    (Source.derived s).rows db around = s.rowsAsFound db around := by
  rw [← List.zipIdx_map_fst 0 (s.found db around), List.pairwise_map] at inOrder
  obtain ⟨entries, filter?, order?, limit?, alias?⟩ := s
  rw [Source.rows, Select.answers, if_neg (by simpa using plain), Select.rowsAsFound,
    List.map_map]
  cases order? with
  | none => rfl
  | some order =>
    have unchanged := List.mergeSort_of_pairwise inOrder
    rw [Select.found] at unchanged
    dsimp only
    rw [unchanged]
    rfl

/-- The bindings that a query over a page returns a row for, if the page returns its rows as they
are found. -/
def Select.foundOverPage (db : Database e) (s : Select) : List (Binding e) :=
  match s.entries with
  | ⟨.derived page, none, _⟩ :: joined =>
    let paged := (page.rowsAsFound db Binding.empty).map (Binding.empty.set page.alias?)
    (Entry.bindings db joined Binding.empty paged).filter
      (fun b => (Condition.optionTruth db s.filter? b).isTrue)
  | _ => []

/-- Does a query start from a page that returns its rows as they are found. -/
def Select.pagesAsFound (db : Database e) (s : Select) : Bool :=
  match s.entries with
  | ⟨.derived page, none, _⟩ :: _ =>
    !page.entries.any (fun entry => entry.selectors.any Selector.countsRows)
      && decide ((page.found db Binding.empty).Pairwise (fun b c => e.arranges
        (OrderTerm.optionKeys db page.order? b) (OrderTerm.optionKeys db page.order? c) = true))
  | _ => false

theorem Select.exists_page {s : Select} (h : s.pagesAsFound db = true) :
    ∃ page, s.start? = some (.derived page) := by
  unfold Select.pagesAsFound at h
  split at h
  · rename_i page selectors joined starts
    exact ⟨page, by rw [Select.start?, starts]; rfl⟩
  · cases h

theorem Select.found_eq_foundOverPage {s : Select} (h : s.pagesAsFound db = true) :
    s.found db Binding.empty = s.foundOverPage db := by
  obtain ⟨entries, filter?, order?, limit?, alias?⟩ := s
  unfold Select.pagesAsFound at h
  split at h
  · rename_i page selectors joined starts
    obtain rfl : entries = ⟨.derived page, none, selectors⟩ :: joined := starts
    rw [Bool.and_eq_true, Bool.not_eq_true', decide_eq_true_iff] at h
    have rows := Source.rows_eq_rowsAsFound h.1 h.2
    rw [Select.found, Entry.bindings, List.flatMap_singleton]
    show (Entry.bindings db joined Binding.empty (((Source.derived page).rows db
      Binding.empty).map _)).filter _ = _
    rw [rows]
    rfl
  · cases h

/-- May the third of three rows come between the other two, which belong to one resource, while the
third belongs to another one. -/
def Select.divides (db : Database e) (s : Select) (root : TableAlias) (id : String) :
    List (Binding e) → Bool
  | [b, d, c] =>
    let precedes := fun x y => e.arranges (OrderTerm.optionKeys db s.order? x)
      (OrderTerm.optionKeys db s.order? y)
    precedes b c && precedes c d && precedes b d
      && e.same (b root id) (d root id) && !e.same (b root id) (c root id)
  | _ => false

/-- A row that comes between two rows of another resource divides them. -/
theorem Select.not_keepsTogether_of_divides {s : Select} {root : TableAlias} {id : String}
    (h : s.divides db root id (s.found db Binding.empty) = true) :
    ¬s.KeepsTogether db root id := by
  unfold Select.divides at h
  split at h
  · rename_i b d c found
    simp only [Bool.and_eq_true, Bool.not_eq_true'] at h
    obtain ⟨⟨⟨⟨after, before⟩, outside⟩, same⟩, other⟩ := h
    have arranged : s.Arranged db [b, c, d] :=
      { complete := by
          rw [found]
          exact .cons b (.swap d c [])
        sorted := by simp [after, before, outside] }
    intro together
    have between := together _ arranged b c d (List.Sublist.refl _) same
    rw [other] at between
    cases between
  · cases h

/-- A select list of columns. -/
def Select.SelectsColumns (s : Select) : Prop :=
  ∀ selector ∈ s.selectors, ∃ c rename?, selector = .column c rename?

/-- The cells of columns are their values. -/
theorem Selector.cells_columns {selectors : List Selector}
    (columns : ∀ selector ∈ selectors, ∃ c rename?, selector = .column c rename?)
    (numbered : List (Binding e × Nat)) (b : Binding e × Nat) :
    Selector.cells db selectors numbered b
      = (selectors.filterMap Select.columnOf?).map
        (fun s => (s.2.getD s.1.name, s.1.value b.1)) := by
  induction selectors with
  | nil => rfl
  | cons selector rest ih =>
    obtain ⟨c, rename?, rfl⟩ := columns selector (.head _)
    rw [Selector.cells, ih fun other mem => columns other (.tail _ mem)]
    rfl

theorem Entry.cells_columns {entries : List Entry}
    (columns : ∀ selector ∈ entries.flatMap Entry.selectors,
      ∃ c rename?, selector = .column c rename?)
    (numbered : List (Binding e × Nat)) (b : Binding e × Nat) :
    Entry.cells db entries numbered b
      = ((entries.flatMap Entry.selectors).filterMap Select.columnOf?).map
        (fun s => (s.2.getD s.1.name, s.1.value b.1)) := by
  induction entries with
  | nil => rfl
  | cons entry rest ih =>
    obtain ⟨source, join?, selectors⟩ := entry
    rw [List.flatMap_cons] at columns
    rw [Entry.cells, ih fun s mem => columns s (List.mem_append_right _ mem),
      Selector.cells_columns fun s mem => columns s (List.mem_append_left _ mem),
      List.flatMap_cons, List.filterMap_append, List.map_append]

/-- A cell is found by its name, if no name occurs twice. -/
theorem Answer.row_of_mem {answer : Answer e} {name : String} {v : Option e.Datum}
    (distinct : (answer.map Prod.fst).Nodup) (mem : (name, v) ∈ answer) :
    answer.row name = v := by
  induction answer with
  | nil => cases mem
  | cons cell rest ih =>
    rw [List.map_cons, List.nodup_cons] at distinct
    rw [Answer.row]
    rcases List.mem_cons.mp mem with rfl | mem
    · rw [List.find?_cons_of_pos (by simp)]
      rfl
    · have other : cell.1 ≠ name := fun same =>
        distinct.1 (same ▸ List.mem_map_of_mem (f := Prod.fst) mem)
      rw [List.find?_cons_of_neg (by simpa using other)]
      exact ih distinct.2 mem

/-- **A row of a derived table holds the columns of a binding**, each under the name given to it. -/
theorem Source.exists_of_mem_rows {s : Select} (columns : s.SelectsColumns)
    (distinct : s.outputNames.Nodup) {row : Row e}
    (mem : row ∈ (Source.derived s).rows db around) :
    ∃ b ∈ s.found db around,
      ∀ selected ∈ s.columnSelectors, row (selected.2.getD selected.1.name)
        = selected.1.value b := by
  have plain : s.entries.any (fun entry => entry.selectors.any Selector.countsRows) = false := by
    rw [List.any_eq_false]
    intro entry hentry
    rw [Bool.not_eq_true, List.any_eq_false]
    intro selector hselector
    obtain ⟨c, rename?, rfl⟩ := columns selector (List.mem_flatMap.mpr ⟨entry, hentry, hselector⟩)
    exact Bool.false_ne_true
  have names : s.outputNames = s.columnSelectors.map (fun s => s.2.getD s.1.name) := by
    rw [Select.outputNames, Select.columnSelectors, List.map_filterMap]
    refine List.filterMap_congr fun selector hselector => ?_
    obtain ⟨c, rename?, rfl⟩ := columns selector hselector
    rfl
  rw [Source.rows] at mem
  obtain ⟨answer, hanswer, rfl⟩ := List.mem_map.mp mem
  obtain ⟨b, found, numbered, i, rfl⟩ := Select.exists_of_mem_answers plain hanswer
  refine ⟨b, found, fun selected listed => ?_⟩
  rw [Entry.cells_columns columns]
  refine Answer.row_of_mem ?_ (List.mem_map.mpr ⟨selected, listed, rfl⟩)
  rw [List.map_map]
  rw [names] at distinct
  exact distinct

end ResourceQuery.Sql
