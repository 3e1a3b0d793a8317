import ResourceQuery.Json.Printer
import ResourceQuery.Schema.Lookup
import ResourceQuery.Sql.Error

/-!
# Requests that cannot be compiled

## Main Definitions

- `CompileError`: why a request or a change has no statements.
- `CompileError.message`: the wording.
- `CompileError.isInternal`: is the compiler itself at fault.
-/

namespace ResourceQuery

/-- The part of a request in which a path stands. -/
inductive PathUse where
  | field
  | has
  | count
  | sort
deriving DecidableEq

/-- The word for a part of a request. -/
def PathUse.word : PathUse → String
  | field => "field"
  | has => "has"
  | count => "count"
  | sort => "sort"

/-- Something that cannot be expressed in statements. -/
inductive Unsupported where
  /-- A comparison in which no side has a type. -/
  | untypedComparison
  | orderingWithNull
  | andWithoutTerms
  | orWithoutTerms
  | anyWithoutValues
  | typeNarrowing
  /-- A change of a relationship whose foreign key is stored on the wrong side. -/
  | movingForeignKey (relationship resourceType : String)
deriving DecidableEq

/-- What is not supported, in words. -/
def Unsupported.text : Unsupported → String
  | untypedComparison => "comparisons without a field or count"
  | orderingWithNull => "ordering comparisons with null"
  | andWithoutTerms => "'and' without terms"
  | orWithoutTerms => "'or' without terms"
  | anyWithoutValues => "'any' without values"
  | typeNarrowing => "resource type narrowing"
  | movingForeignKey relationship resourceType =>
    "moving the foreign key of relationship '" ++ relationship ++ "' held by '" ++ resourceType
      ++ "'"

/-- Why a request or a change has no statements. -/
inductive CompileError where
  | lookup (error : LookupError)
  | attributeNotFound (resourceType name : String)
  /-- A field without a column. -/
  | fieldUnavailable (resourceType field : String)
  | expectedToOne (resourceType relationship : String)
  | expectedToMany (resourceType relationship : String)
  | emptyPath (place : PathUse)
  | typeMismatch (value : Json) (type : ScalarType)
  | unknownEnumMember (enumType member : String)
  | enumTypeNotFound (enumType : String)
  | invalidPageNumber (number : UInt32)
  | invalidPageSize (requested maximum : UInt32)
  | unsupported (what : Unsupported)
  | requiredRelationshipCleared (resourceType relationship : String)
  | missingResourceId (resourceType : String)
  /-- A defect of the compiler. -/
  | internal (error : Sql.TreeError)
deriving DecidableEq

namespace CompileError

/-- The wording of an error.  Values are written compactly, with their members in order. -/
def message : CompileError → String
  | lookup error => error.message
  | attributeNotFound resourceType name =>
    "Attribute '" ++ name ++ "' not found on resource type '" ++ resourceType ++ "'."
  | fieldUnavailable resourceType field =>
    "Field '" ++ field ++ "' of resource type '" ++ resourceType
      ++ "' is not available for sorting or filtering."
  | expectedToOne resourceType relationship =>
    "Relationship '" ++ relationship ++ "' of resource type '" ++ resourceType
      ++ "' must be a to-one relationship here."
  | expectedToMany resourceType relationship =>
    "Relationship '" ++ relationship ++ "' of resource type '" ++ resourceType
      ++ "' must be a to-many relationship here."
  | emptyPath place => "Empty path in " ++ place.word ++ "."
  | typeMismatch value type =>
    "Value '" ++ value.sortMembers.compact ++ "' does not match type '" ++ type.name ++ "'."
  | unknownEnumMember enumType member =>
    "'" ++ member ++ "' is not a member of enum type '" ++ enumType ++ "'."
  | enumTypeNotFound enumType => "Enum type '" ++ enumType ++ "' not found."
  | invalidPageNumber number =>
    "Page number must be 1 or greater, got " ++ natText number.toNat ++ "."
  | invalidPageSize requested maximum =>
    "Page size must be between 1 and " ++ natText maximum.toNat ++ ", got "
      ++ natText requested.toNat ++ "."
  | unsupported what => "Queries containing " ++ what.text ++ " are not supported."
  | requiredRelationshipCleared resourceType relationship =>
    "Relationship '" ++ relationship ++ "' of resource type '" ++ resourceType
      ++ "' is required and cannot be cleared."
  | missingResourceId resourceType =>
    "Resource of type '" ++ resourceType ++ "' has no identifier."
  | internal error => "Internal error: " ++ error.message

/-- Is the compiler itself at fault. -/
def isInternal : CompileError → Bool
  | internal _ => true
  | _ => false

/-- The outcome of a lookup. -/
def ofLookup {α : Type} : Except LookupError α → Except CompileError α
  | .ok a => .ok a
  | .error e => .error (.lookup e)

/-- The outcome of building a tree. -/
def ofTree {α : Type} : Except Sql.TreeError α → Except CompileError α
  | .ok a => .ok a
  | .error e => .error (.internal e)

end CompileError

end ResourceQuery
