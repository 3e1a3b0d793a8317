import ResourceQuery.Json.Decode

/-!
# What a text spells

A text can have the form of a document and yet spell no value: numbers may be out of range, strings
may hold half a surrogate pair, and arrays and objects may nest too deeply.  A reading keeps apart
what can be read and what cannot, because a member that nobody asks for may hold anything.

## Main Definitions

- `Json.Reading`: what a text spells.
- `Json.Reading.value?`: the value, if all of it can be read.
- `Json.Reading.required?`, `Json.Reading.defaulted?`, `Json.Reading.optional?`: members of an
  object that must be values.
- `Json.Reading.requiredPart?`, `Json.Reading.defaultedPart?`, `Json.Reading.dict?`: members that
  are objects themselves, read as far as they can be.
-/

namespace ResourceQuery.Json

variable {α : Type}

/-- What a text spells. -/
inductive Reading where
  /-- A value. -/
  | value (value : Json)
  /-- An object with members that spell no value. -/
  | members (members : List (String × Reading))
  /-- Anything else that spells no value. -/
  | unreadable

namespace Reading

instance : Inhabited Reading := ⟨unreadable⟩

/-! ### Parts put together -/

/-- The value, if all of it can be read. -/
def value? : Reading → Option Json
  | value j => some j
  | _ => none

/-- The array of the given items. -/
def ofItems (items : List Reading) : Reading :=
  match items.mapM value? with
  | some values => value (.array values)
  | none => unreadable

/-- A member that spells a value, its name included. -/
def memberValue? (member : Option String × Reading) : Option (String × Json) := do
  return (← member.1, ← member.2.value?)

/-- A member with a name. -/
def namedMember? (member : Option String × Reading) : Option (String × Reading) := do
  return (← member.1, member.2)

/-- The object of the given members.  A name that cannot be read spoils the whole object. -/
def ofMembers (entries : List (Option String × Reading)) : Reading :=
  match entries.mapM memberValue? with
  | some values => value (.object values)
  | none =>
    match entries.mapM namedMember? with
    | some named => members named
    | none => unreadable

/-! ### Objects taken apart -/

/-- The members of an object, each as far as it can be read. -/
def members? : Reading → Option (List (String × Reading))
  | value (.object entries) => some (entries.map (fun e => (e.1, value e.2)))
  | members entries => some entries
  | _ => none

/-- A member that must be present. -/
def requiredPart? (entries : List (String × Reading)) (name : String)
    (read? : Reading → Option α) : Option α := do
  read? (← entries.lookup name)

/-- A member that may be left out, with the value it then has. -/
def defaultedPart? (entries : List (String × Reading)) (name : String) (default : α)
    (read? : Reading → Option α) : Option α :=
  match entries.lookup name with
  | none => some default
  | some r => read? r

/-- The members of an object as a dictionary, each read the same way. -/
def dict? (read? : Reading → Option α) (r : Reading) : Option (Dict α) := do
  let entries ← (← r.members?).mapM (fun e => return (e.1, ← read? e.2))
  return Dict.ofList entries

/-- Read what must be a value as a whole. -/
def whole (read? : Json → Option α) (r : Reading) : Option α := do
  read? (← r.value?)

/-- A value that must be present. -/
def required? (entries : List (String × Reading)) (name : String) (read? : Json → Option α) :
    Option α :=
  requiredPart? entries name (whole read?)

/-- A value that may be left out, with the one it then has. -/
def defaulted? (entries : List (String × Reading)) (name : String) (default : α)
    (read? : Json → Option α) : Option α :=
  defaultedPart? entries name default (whole read?)

/-- A value that may be left out or `null`. -/
def optional? (entries : List (String × Reading)) (name : String) (read? : Json → Option α) :
    Option (Option α) :=
  defaulted? entries name none (Json.nullable? read?)

@[simp] theorem value?_value (j : Json) : (value j).value? = some j := rfl

@[simp] theorem members?_value_object (entries : List (String × Json)) :
    (value (.object entries)).members? = some (entries.map (fun e => (e.1, value e.2))) := rfl

@[simp] theorem whole_value (read? : Json → Option α) (j : Json) :
    whole read? (value j) = read? j := rfl

end Reading

end ResourceQuery.Json
