import ResourceQuery.Json.Basic
import ResourceQuery.Sql.Tree

/-!
# Requests

What a client asks for: resources of one type, filtered, sorted and divided into pages, with a
choice of their attributes and of the resources related to them.

## Main Definitions

- `Request`: the resources of one type that are wanted.
- `Layer`: what is wanted of the primary resources, or of those reached by a relationship.
- `Filter`: a condition on resources.
- `Inclusion`: relationships to follow, given by their names only.

## Design Notes

A path is a list of names.  The names before the last are to-one relationships; the last is a field
or a relationship.
-/

namespace ResourceQuery

open Sql (MatchKind)

/-- A path from a resource to a field or to a relationship. -/
abbrev Path := List String

/-- What a filter asks of two expressions. -/
inductive ComparisonKind where
  | equals
  | lessThan
  | lessOrEqual
  | greaterThan
  | greaterOrEqual
deriving DecidableEq, Inhabited

/-- A side of a comparison. -/
inductive Expression where
  | field (path : Path)
  | constant (value : Json)
  | null
  /-- The number of resources that a to-many relationship leads to. -/
  | count (relationship : Path)
deriving DecidableEq

/-- A condition on resources. -/
inductive Filter where
  | comparison (kind : ComparisonKind) (left right : Expression)
  | and (terms : List Filter)
  | or (terms : List Filter)
  | not (term : Filter)
  /-- A text occurs in a field. -/
  | textMatch (field : Path) (text : String) (kind : MatchKind)
  /-- A field equals one of several values. -/
  | any (field : Path) (values : List Json)
  /-- A to-many relationship leads to a resource, which may have to meet a condition. -/
  | has (relationship : Path) (filter? : Option Filter)
  /-- A resource belongs to a more special type. -/
  | isType (relationship : Path) (derivedType : String)

/-- What resources are sorted by. -/
inductive SortTarget where
  | field (path : Path)
  | count (relationship : Path)
deriving DecidableEq

/-- A criterion for sorting. -/
structure SortElement where
  target : SortTarget
  descending : Bool
deriving DecidableEq

/-- A page, counted from one. -/
structure Pagination where
  pageNumber : UInt32
  pageSize? : Option UInt32
deriving DecidableEq

/-- A relationship to follow, and the relationships to follow from there. -/
inductive Inclusion where
  | mk (relationship : String) (children : List Inclusion)

namespace Inclusion

/-- The relationship to follow. -/
def relationship : Inclusion → String
  | mk relationship _ => relationship

/-- The relationships to follow from there. -/
def children : Inclusion → List Inclusion
  | mk _ children => children

mutual

/-- Are two inclusions equal. -/
def beq : Inclusion → Inclusion → Bool
  | mk r cs, mk s ds => r = s && beqList cs ds

/-- Are two lists of inclusions equal. -/
def beqList : List Inclusion → List Inclusion → Bool
  | [], [] => true
  | c :: cs, d :: ds => beq c d && beqList cs ds
  | _, _ => false

end

mutual

theorem eq_of_beq : (a b : Inclusion) → beq a b = true → a = b
  | mk r cs, mk s ds, h => by
    simp only [beq, Bool.and_eq_true, decide_eq_true_eq] at h
    rw [h.1, eq_of_beqList cs ds h.2]

theorem eq_of_beqList : (as bs : List Inclusion) → beqList as bs = true → as = bs
  | [], bs, h => by cases bs <;> simp_all [beqList]
  | a :: as, bs, h => by
    cases bs with
    | nil => simp [beqList] at h
    | cons b bs =>
      simp only [beqList, Bool.and_eq_true] at h
      rw [eq_of_beq a b h.1, eq_of_beqList as bs h.2]

end

mutual

@[simp] theorem beq_refl : (a : Inclusion) → beq a a = true
  | mk r cs => by simp [beq, beqList_refl cs]

@[simp] theorem beqList_refl : (as : List Inclusion) → beqList as as = true
  | [] => by simp [beqList]
  | a :: as => by simp [beqList, beq_refl a, beqList_refl as]

end

instance : DecidableEq Inclusion := fun a b =>
  if h : beq a b = true then isTrue (eq_of_beq a b h)
  else isFalse (fun hab => h (hab ▸ beq_refl a))

end Inclusion

mutual

/-- What is wanted of the primary resources, or of those reached by a relationship. -/
structure Layer where
  filter? : Option Filter
  sort? : Option (List SortElement)
  pagination? : Option Pagination
  /-- Without a selection all attributes are wanted. -/
  selection? : Option Selection
  inclusions : List Inclusion

/-- The attributes and relationships that are wanted. -/
structure Selection where
  attributes : List String
  relationships : List (String × Layer)

end

/-- The layer that asks for nothing in particular. -/
def Layer.empty : Layer :=
  ⟨none, none, none, none, []⟩

instance : Inhabited Layer := ⟨Layer.empty⟩

/-- The resources of one type that are wanted. -/
structure Request where
  resourceType : String
  layer : Layer

end ResourceQuery
