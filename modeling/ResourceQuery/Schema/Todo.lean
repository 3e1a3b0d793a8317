import ResourceQuery.Schema.Basic

/-!
# The to-do schema

A small application as an example: items owned by and assigned to people, tags on items with an
optional color, and people with an optional login account.

## Main Definitions

- `Schema.todo`: the schema of the application.
-/

namespace ResourceQuery

namespace Schema.Todo

/-- A column that may hold null. -/
def optionalColumn (name : String) (type : ScalarType) : String × ColumnInfo :=
  (name, ⟨type, true⟩)

/-- A column that never holds null. -/
def requiredColumn (name : String) (type : ScalarType) : String × ColumnInfo :=
  (name, ⟨type, false⟩)

/-- An attribute that a column stores. -/
def stored (name column : String) : String × Attribute :=
  (name, ⟨some column, none⟩)

/-- A relationship with an inverse. -/
def link (name target : String) (cardinality : Cardinality) (ownedBy : Side)
    (column inverse : String) : String × Relationship :=
  (name, ⟨target, cardinality, ⟨ownedBy, column⟩, some inverse⟩)

/-- Items to do. -/
def todoItems : ResourceType where
  tableName := "TodoItems"
  idColumn := "Id"
  columns := Dict.ofList [
    requiredColumn "Id" .bigint,
    requiredColumn "CreatedAt" .timestampWithTimeZone,
    requiredColumn "Description" .text,
    optionalColumn "DurationInHours" .bigint,
    optionalColumn "LastModifiedAt" .timestampWithTimeZone,
    requiredColumn "Priority" .integer,
    requiredColumn "OwnerId" .bigint,
    optionalColumn "AssigneeId" .bigint]
  attributes := Dict.ofList [
    stored "description" "Description",
    ("priority", ⟨some "Priority", some "TodoItemPriority"⟩),
    stored "durationInHours" "DurationInHours",
    stored "createdAt" "CreatedAt",
    stored "lastModifiedAt" "LastModifiedAt"]
  relationships := Dict.ofList [
    link "owner" "people" .one .left "OwnerId" "ownedTodoItems",
    link "assignee" "people" .one .left "AssigneeId" "assignedTodoItems",
    link "tags" "tags" .many .right "TodoItemId" "todoItem"]

/-- People who own items or work on them. -/
def people : ResourceType where
  tableName := "People"
  idColumn := "Id"
  columns := Dict.ofList [
    requiredColumn "Id" .bigint,
    optionalColumn "FirstName" .text,
    requiredColumn "LastName" .text,
    optionalColumn "AccountId" .bigint]
  attributes := Dict.ofList [
    stored "firstName" "FirstName",
    stored "lastName" "LastName",
    ("displayName", ⟨none, none⟩)]
  relationships := Dict.ofList [
    link "ownedTodoItems" "todoItems" .many .right "OwnerId" "owner",
    link "assignedTodoItems" "todoItems" .many .right "AssigneeId" "assignee",
    link "account" "accounts" .one .left "AccountId" "person"]

/-- Tags on items. -/
def tags : ResourceType where
  tableName := "Tags"
  idColumn := "Id"
  columns := Dict.ofList [
    requiredColumn "Id" .bigint,
    requiredColumn "Name" .text,
    optionalColumn "TodoItemId" .bigint]
  attributes := Dict.ofList [stored "name" "Name"]
  relationships := Dict.ofList [
    link "todoItem" "todoItems" .one .left "TodoItemId" "tags",
    link "color" "rgbColors" .one .right "TagId" "tag"]

/-- Colors of tags. -/
def rgbColors : ResourceType where
  tableName := "RgbColors"
  idColumn := "Id"
  columns := Dict.ofList [
    requiredColumn "Id" .bigint,
    requiredColumn "TagId" .bigint]
  attributes := ∅
  relationships := Dict.ofList [link "tag" "tags" .one .left "TagId" "color"]

/-- Login accounts of people. -/
def accounts : ResourceType where
  tableName := "LoginAccounts"
  idColumn := "Id"
  columns := Dict.ofList [
    requiredColumn "Id" .bigint,
    requiredColumn "UserName" .text]
  attributes := Dict.ofList [stored "userName" "UserName"]
  relationships := Dict.ofList [link "person" "people" .one .right "AccountId" "account"]

/-- The urgency of an item. -/
def priorities : EnumType :=
  Dict.ofList [("High", 0), ("Medium", 1), ("Low", 2)]

end Schema.Todo

/-- The schema of the to-do application. -/
def Schema.todo : Schema where
  resourceTypes := Dict.ofList [
    ("todoItems", Todo.todoItems),
    ("people", Todo.people),
    ("tags", Todo.tags),
    ("rgbColors", Todo.rgbColors),
    ("accounts", Todo.accounts)]
  enumTypes := Dict.ofList [("TodoItemPriority", Todo.priorities)]

end ResourceQuery
