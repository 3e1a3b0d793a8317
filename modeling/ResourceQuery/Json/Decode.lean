import ResourceQuery.Dict
import ResourceQuery.Json.Basic

/-!
# Taking JSON apart

Readers for the parts of a value.  A reader answers nothing when the value has another shape;
nothing is converted, and members that no reader asks for do not matter.

## Main Definitions

- `Json.string?`, `Json.bool?`, `Json.list?`, `Json.dict?`: values of one kind.
- `Json.word?`, `Json.tag?`: words of a fixed vocabulary.
- `Json.required?`, `Json.defaulted?`, `Json.optional?`: members of an object that must be present,
  that have a default, and for which `null` means the same as absence.
- `Json.ofList`, `Json.ofDict`, `Json.ofOption`: the values written for lists, dictionaries and
  options.
-/

namespace ResourceQuery.Json

variable {α : Type}

/-! ### Values of one kind -/

/-- The text of a string. -/
def string? : Json → Option String
  | string s => some s
  | _ => none

/-- The truth value of `true` or `false`. -/
def bool? : Json → Option Bool
  | bool b => some b
  | _ => none

/-- The members of an object. -/
def members? : Json → Option (List (String × Json))
  | object members => some members
  | _ => none

/-- The items of an array. -/
def items? : Json → Option (List Json)
  | array items => some items
  | _ => none

/-- The items of an array, each read the same way. -/
def list? (read? : Json → Option α) (j : Json) : Option (List α) := do
  (← j.items?).mapM read?

/-- The members of an object as a dictionary, each value read the same way. -/
def dict? (read? : Json → Option α) (j : Json) : Option (Dict α) := do
  let entries ← (← j.members?).mapM (fun m => return (m.1, ← read? m.2))
  return Dict.ofList entries

/-- A word of a fixed vocabulary.  An object whose only member has the word as its name and `null`
as its value stands for the word too. -/
def word? : Json → Option String
  | string word => some word
  | object [(word, null)] => some word
  | _ => none

/-- A word of a fixed vocabulary, where an empty object may stand in place of the `null`. -/
def looseWord? : Json → Option String
  | object [(word, object [])] => some word
  | j => j.word?

/-- The name that tells apart the forms of a value.  The position of a name among all of them stands
for the name too. -/
def tag? (names : List String) : Json → Option String
  | string name => some name
  | number (.int n _) => n.toNat?.bind (names[·]?)
  | _ => none

/-- A value that may be `null`. -/
def nullable? (read? : Json → Option α) : Json → Option (Option α)
  | null => some none
  | j => some <$> read? j

/-! ### Members of an object -/

/-- A member that must be present. -/
def required? (members : List (String × Json)) (name : String) (read? : Json → Option α) :
    Option α := do
  read? (← members.lookup name)

/-- A member that may be left out, with the value it then has. -/
def defaulted? (members : List (String × Json)) (name : String) (default : α)
    (read? : Json → Option α) : Option α :=
  match members.lookup name with
  | none => some default
  | some j => read? j

/-- A member that may be left out or `null`. -/
def optional? (members : List (String × Json)) (name : String) (read? : Json → Option α) :
    Option (Option α) :=
  defaulted? members name none (nullable? read?)

/-! ### Writing -/

/-- The array of the items written for a list. -/
def ofList (write : α → Json) (items : List α) : Json :=
  array (items.map write)

/-- The object of the members written for a dictionary. -/
def ofDict (write : α → Json) (d : Dict α) : Json :=
  object (d.entries.map (fun e => (e.1, write e.2)))

/-- The value written for an option: `null` if there is none. -/
def ofOption (write : α → Json) : Option α → Json
  | none => null
  | some a => write a

/-- A member that is written only if there is a value. -/
def memberOf (name : String) (write : α → Json) : Option α → List (String × Json)
  | none => []
  | some a => [(name, write a)]

end ResourceQuery.Json
