import Mathlib.Data.List.Nodup
import Mathlib.Data.List.Perm.Subperm
import Mathlib.Logic.Relation
import ResourceQuery.Sql.Repair

/-!
# Chains of moves

A table that was moved into a derived table may have been moved on together with it, so a reference
follows a chain of moves.  A remap is any finite map: its chains may end, run into a cycle, or pass
sources that do not provide the column.  The number of moves that a reference follows is bounded,
but a chain that gets as far as the bound only repeats itself.

## Main Definitions

- `Sql.Remap.after?`: where a number of moves leads.
- `Sql.Remap.FirstAt`: after how many moves the first source is reached that provides a column.

## Main Statements

- `Sql.Remap.follow?_eq_some_iff`: following moves finds what the first such source provides.
- `Sql.Remap.FirstAt.lt_length`: the first such source is reached before any table is met twice.
- `Sql.Remap.redirect_exhaustive`: a reference to a hidden table is redirected if and only if a
  source along its chain provides the column.
-/

namespace ResourceQuery.Sql.Remap

/-! ### Where moves lead -/

/-- **The table that a number of moves leads to**, if there are so many. -/
def after? (m : Remap) : Nat → TableAlias → Option TableAlias
  | 0, a => some a
  | n + 1, a => (m.get? a).bind (m.after? n)

variable {m : Remap}

theorem after?_add (i j : Nat) (a : TableAlias) :
    m.after? (i + j) a = (m.after? i a).bind (m.after? j) := by
  induction i generalizing a with
  | zero => rw [Nat.zero_add, after?, Option.bind_some]
  | succ i ih =>
    rw [Nat.add_right_comm, after?, after?, Option.bind_assoc]
    exact Option.bind_congr fun b _ => ih b

/-- What can be reached by moves is reached by a number of moves. -/
theorem transGen_iff_after? {a b : TableAlias} :
    Relation.TransGen (fun a b => m.get? a = some b) a b ↔ ∃ n, m.after? (n + 1) a = some b := by
  constructor
  · intro reached
    induction reached with
    | single moved => exact ⟨0, by rw [after?, moved, Option.bind_some, after?]⟩
    | tail _ moved ih =>
      obtain ⟨n, led⟩ := ih
      refine ⟨n + 1, ?_⟩
      rw [after?_add, led, Option.bind_some, after?, moved, Option.bind_some, after?]
  · rintro ⟨n, led⟩
    induction n generalizing a with
    | zero =>
      obtain ⟨c, moved, led⟩ := Option.bind_eq_some_iff.mp led
      cases led
      exact .single moved
    | succ n ih =>
      obtain ⟨c, moved, led⟩ := Option.bind_eq_some_iff.mp led
      exact .head moved (ih led)

/-- A table that was moved has an entry. -/
theorem mem_moves_of_get? {a b : TableAlias} (moved : m.get? a = some b) :
    a ∈ m.moves.map Prod.fst := by
  obtain ⟨front, back, listed, -⟩ := List.lookup_eq_some_iff.mp moved
  rw [listed]
  simp

/-! ### The first source that provides a column -/

variable {scope : Scope} {name : String} {stale former : TableAlias}

/-- **A column is what the first source along a chain provides.**  The chain starts at a table and
reaches the source by one move and a number of further ones; what it reaches before is not visible
or does not provide the column. -/
structure FirstAt (m : Remap) (scope : Scope) (name : String) (stale former : TableAlias)
    (further : Nat) (found : Column) : Prop where
  provides : ∃ a source, m.after? (further + 1) former = some a ∧ scope.lookup a = some source
    ∧ source.findColumn? name (some stale) = some found
  before : ∀ k < further, ∀ a source, m.after? (k + 1) former = some a →
    scope.lookup a = some source → source.findColumn? name (some stale) = none

/-- From a table that was not moved nothing is reached. -/
theorem not_firstAt (ended : m.get? former = none) (further : Nat) (found : Column) :
    ¬ m.FirstAt scope name stale former further found := by
  rintro ⟨⟨a, source, led, -⟩, -⟩
  rw [after?, ended] at led
  cases led

section

variable {next : TableAlias} (moved : m.get? former = some next)

include moved

theorem after?_of_get? (n : Nat) : m.after? (n + 1) former = m.after? n next := by
  rw [after?, moved, Option.bind_some]

/-- The table that the first move leads to may already provide the column. -/
theorem firstAt_zero_iff {found : Column} :
    m.FirstAt scope name stale former 0 found ↔ provided? scope name stale next = some found := by
  constructor
  · rintro ⟨⟨a, source, led, shown, provides⟩, -⟩
    cases (after?_of_get? moved 0).symm.trans led
    exact Option.bind_eq_some_iff.mpr ⟨source, shown, provides⟩
  · intro provides
    obtain ⟨source, shown, provides⟩ := Option.bind_eq_some_iff.mp provides
    exact ⟨⟨next, source, after?_of_get? moved 0, shown, provides⟩, nofun⟩

/-- Otherwise the first source that provides it is the first from there. -/
theorem firstAt_succ_iff {further : Nat} {found : Column} :
    m.FirstAt scope name stale former (further + 1) found
      ↔ provided? scope name stale next = none
        ∧ m.FirstAt scope name stale next further found := by
  have onward := after?_of_get? moved
  constructor
  · rintro ⟨⟨a, source, led, provides⟩, before⟩
    rw [onward] at led
    refine ⟨?_, ⟨a, source, led, provides⟩, fun k lt b other led' => ?_⟩
    · exact Option.bind_eq_none_iff.mpr fun other => before 0 (Nat.succ_pos _) next other (onward 0)
    · exact before (k + 1) (Nat.succ_lt_succ lt) b other ((onward _).trans led')
  · rintro ⟨passed, ⟨a, source, led, provides⟩, before⟩
    refine ⟨⟨a, source, (onward _).trans led, provides⟩, fun k lt b other led' => ?_⟩
    rw [onward] at led'
    cases k with
    | zero =>
      cases led'
      exact Option.bind_eq_none_iff.mp passed other
    | succ k => exact before k (Nat.lt_of_succ_lt_succ lt) b other led'

end

/-- **Following moves finds what the first source provides** that is reached within the steps. -/
theorem follow?_eq_some_iff {steps : Nat} {found : Column} :
    m.follow? scope name stale steps former = some found
      ↔ ∃ further < steps, m.FirstAt scope name stale former further found := by
  induction steps generalizing former with
  | zero => simp [follow?]
  | succ steps ih =>
    cases moved : m.get? former with
    | none => simp [follow?, moved, not_firstAt moved]
    | some next =>
      rw [follow?, moved, Nat.exists_lt_succ_left, firstAt_zero_iff moved]
      simp only [firstAt_succ_iff moved]
      -- The next table either is the first that provides the column, or the search goes on there.
      cases provided? scope name stale next with
      | none => simp [ih]
      | some column => simp

/-- A chain that reaches a source that provides the column reaches a first one. -/
theorem exists_firstAt {n : Nat} {a : TableAlias} {source : Source}
    (led : m.after? (n + 1) former = some a) (shown : scope.lookup a = some source)
    (provides : (source.findColumn? name (some stale)).isSome) :
    ∃ further found, m.FirstAt scope name stale former further found := by
  induction n using Nat.strongRecOn generalizing a source with
  | ind n ih =>
    by_cases earlier : ∃ k < n, ∃ b other, m.after? (k + 1) former = some b
        ∧ scope.lookup b = some other ∧ (other.findColumn? name (some stale)).isSome
    · obtain ⟨k, lt, b, other, led', shown', provides'⟩ := earlier
      exact ih k lt led' shown' provides'
    · obtain ⟨found, provides⟩ := Option.isSome_iff_exists.mp provides
      refine ⟨n, found, ⟨a, source, led, shown, provides⟩, fun k lt b other led' shown' => ?_⟩
      by_contra provides'
      exact earlier ⟨k, lt, b, other, led', shown', Option.isSome_iff_ne_none.mpr provides'⟩

namespace FirstAt

variable {further : Nat} {found : Column}

/-- The first source is reached before any table is met twice: the chain without the detour would
reach it earlier. -/
theorem after?_ne (first : m.FirstAt scope name stale former further found) {i j : Nat}
    (lt : i < j) (le : j ≤ further) : m.after? i former ≠ m.after? j former := by
  intro same
  obtain ⟨a, source, led, shown, provides⟩ := first.provides
  have shorter : m.after? (i + (further - j) + 1) former = some a := by
    rw [Nat.add_assoc, after?_add, same, ← after?_add, ← led]
    congr 1
    omega
  have none := first.before (i + (further - j)) (by omega) a source shorter shown
  rw [provides] at none
  cases none

/-- Every table before the first source was moved. -/
theorem mem_moves (first : m.FirstAt scope name stale former further found) {i : Nat}
    (le : i ≤ further) : m.after? i former ∈ (m.moves.map Prod.fst).map some := by
  obtain ⟨a, -, led, -⟩ := first.provides
  have split : further + 1 = i + ((further - i) + 1) := by omega
  rw [split, after?_add] at led
  obtain ⟨b, reached, onward⟩ := Option.bind_eq_some_iff.mp led
  obtain ⟨c, moved, -⟩ := Option.bind_eq_some_iff.mp onward
  rw [reached]
  exact List.mem_map_of_mem (mem_moves_of_get? moved)

/-- **The first source is reached within as many moves as there are entries.** -/
theorem lt_length (first : m.FirstAt scope name stale former further found) :
    further < m.moves.length := by
  have distinct : ((List.range (further + 1)).map (fun i => m.after? i former)).Nodup := by
    refine List.Nodup.map_on ?_ List.nodup_range
    intro i hi j hj same
    rw [List.mem_range] at hi hj
    rcases Nat.lt_trichotomy i j with lt | rfl | lt
    · exact absurd same (first.after?_ne lt (by omega))
    · rfl
    · exact absurd same.symm (first.after?_ne lt (by omega))
  have entries : (List.range (further + 1)).map (fun i => m.after? i former)
      ⊆ (m.moves.map Prod.fst).map some := by
    intro reached mem
    obtain ⟨i, hi, rfl⟩ := List.mem_map.mp mem
    exact first.mem_moves (Nat.lt_succ_iff.mp (List.mem_range.mp hi))
  have fewer := (List.subperm_of_subset distinct entries).length_le
  simpa [Nat.succ_le_iff] using fewer

end FirstAt

/-! ### References to hidden tables -/

/-- **More moves than there are entries find nothing new.** -/
theorem follow?_of_length_le {steps : Nat} (le : m.moves.length ≤ steps) :
    m.follow? scope name stale steps former
      = m.follow? scope name stale m.moves.length former := by
  apply Option.ext
  intro found
  rw [follow?_eq_some_iff, follow?_eq_some_iff]
  constructor
  · rintro ⟨further, -, first⟩
    exact ⟨further, first.lt_length, first⟩
  · rintro ⟨further, lt, first⟩
    exact ⟨further, Nat.lt_of_lt_of_le lt le, first⟩

/-- A reference to a hidden table becomes what the first source along its chain provides. -/
theorem redirect_eq_ok_iff {column : Column} (named : column.alias? = some stale)
    (hidden : scope.lookup stale = none) {found : Column} :
    m.redirect scope column = .ok found
      ↔ ∃ further, m.FirstAt scope column.name stale stale further found := by
  have searched : m.redirect scope column = .ok found
      ↔ m.follow? scope column.name stale (m.moves.length + 1) stale = some found := by
    simp only [redirect, named, hidden, Option.isSome_none, Bool.false_eq_true, if_false]
    cases m.follow? scope column.name stale (m.moves.length + 1) stale <;> simp
  rw [searched, follow?_eq_some_iff]
  constructor
  · rintro ⟨further, -, first⟩
    exact ⟨further, first⟩
  · rintro ⟨further, first⟩
    exact ⟨further, Nat.lt_succ_of_lt first.lt_length, first⟩

/-- **The search for the column of a hidden table is exhaustive**, whatever the remap and the
scope.  A reference is redirected if and only if some visible source that its table was moved into,
directly or by way of others, provides the column; it is redirected to the column of the first such
source along the chain; and following more moves than the search does would change nothing. -/
theorem redirect_exhaustive (m : Remap) (scope : Scope) {column : Column} {stale : TableAlias}
    (named : column.alias? = some stale) (hidden : scope.lookup stale = none) :
    ((∃ found, m.redirect scope column = .ok found)
        ↔ ∃ a source, Relation.TransGen (fun a b => m.get? a = some b) stale a
            ∧ scope.lookup a = some source
            ∧ (source.findColumn? column.name (some stale)).isSome)
      ∧ (∀ found, m.redirect scope column = .ok found
        ↔ ∃ further, m.FirstAt scope column.name stale stale further found)
      ∧ ∀ steps, m.moves.length + 1 ≤ steps →
        m.follow? scope column.name stale steps stale
          = m.follow? scope column.name stale (m.moves.length + 1) stale := by
  refine ⟨?_, fun found => redirect_eq_ok_iff named hidden, fun steps le => ?_⟩
  · constructor
    · rintro ⟨found, redirected⟩
      obtain ⟨further, first⟩ := (redirect_eq_ok_iff named hidden).mp redirected
      obtain ⟨a, source, led, shown, provides⟩ := first.provides
      exact ⟨a, source, transGen_iff_after?.mpr ⟨further, led⟩, shown,
        Option.isSome_of_eq_some provides⟩
    · rintro ⟨a, source, reached, shown, provides⟩
      obtain ⟨n, led⟩ := transGen_iff_after?.mp reached
      obtain ⟨further, found, first⟩ := exists_firstAt led shown provides
      exact ⟨found, (redirect_eq_ok_iff named hidden).mpr ⟨further, first⟩⟩
  · rw [follow?_of_length_le (Nat.le_of_succ_le le), follow?_of_length_le (Nat.le_succ _)]

/-- People were moved into `t2`, and from there around a cycle of three derived tables. -/
def circling : Remap :=
  ⟨[(⟨1⟩, ⟨2⟩), (⟨2⟩, ⟨3⟩), (⟨3⟩, ⟨4⟩), (⟨4⟩, ⟨2⟩)]⟩

/-- A column of people. -/
def personColumn (name : String) : Column :=
  .inTable name .scalar (some ⟨1⟩)

/-- A derived table that selects one column of people. -/
def peopleSource (name : String) (a : TableAlias) : Source :=
  .derived
    { entries := [⟨.table ⟨"people", "People", ⟨1⟩, ["Id", "LastName"], []⟩, none,
        [.column (personColumn name) none]⟩]
      filter? := none, order? := none, limit? := none, alias? := some a }

/-- On the cycle `t2` is not visible, `t3` does not select last names, and `t4` does. -/
def circlingScope : Scope :=
  (Scope.empty.declare (peopleSource "Id" ⟨3⟩)).declare (peopleSource "LastName" ⟨4⟩)

/-- The last name of a person is found on the cycle, and is not looked for twice. -/
theorem redirect_exhaustive_circling :
    (personColumn "LastName").alias? = some ⟨1⟩ ∧ circlingScope.lookup ⟨1⟩ = none
      ∧ circling.redirect circlingScope (personColumn "LastName")
        = .ok (.inSelect (personColumn "LastName") none (some ⟨4⟩))
      ∧ (∃ further, circling.FirstAt circlingScope "LastName" ⟨1⟩ ⟨1⟩ further
        (.inSelect (personColumn "LastName") none (some ⟨4⟩)))
      ∧ ¬ (∃ a source, Relation.TransGen (fun a b => circling.get? a = some b) ⟨1⟩ a
        ∧ circlingScope.lookup a = some source
        ∧ (source.findColumn? "FirstName" (some ⟨1⟩)).isSome)
      ∧ ∀ steps, 5 ≤ steps → circling.follow? circlingScope "LastName" ⟨1⟩ steps ⟨1⟩
        = some (.inSelect (personColumn "LastName") none (some ⟨4⟩)) := by
  have exhaustive := fun name =>
    @redirect_exhaustive circling circlingScope (personColumn name) ⟨1⟩ rfl rfl
  refine ⟨rfl, rfl, rfl, ((exhaustive "LastName").2.1 _).mp rfl, ?_, ?_⟩
  · intro reached
    obtain ⟨found, redirected⟩ := (exhaustive "FirstName").1.mpr reached
    cases redirected
  · intro steps le
    exact (exhaustive "LastName").2.2 steps le

end ResourceQuery.Sql.Remap
