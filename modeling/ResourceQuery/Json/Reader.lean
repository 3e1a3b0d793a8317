import ResourceQuery.Json.Reading
import ResourceQuery.Json.Token

/-!
# Reading JSON

The words of a document are taken one after the other, with the arrays and objects that are still
open kept on a stack.

## Main Definitions

- `Json.Reader`: what has been read so far and what may follow.
- `Json.Reading.ofText?`: what a text spells, as far as it can be read.
- `Json.read?`: the value that a text spells.
-/

namespace ResourceQuery.Json

/-- An array or object that is still open, with its parts so far in reverse order. -/
inductive Unclosed where
  | array (items : List Reading)
  /-- The names of members are kept as far as they can be read. -/
  | object (members : List (Option String × Reading))
  /-- An object that waits for the value of a member. -/
  | member (members : List (Option String × Reading)) (name? : Option String)

/-- What may follow, and what is still open around it. -/
inductive Reader where
  /-- A value. -/
  | value (stack : List Unclosed)
  /-- The first item of an array, or its end. -/
  | firstItem (stack : List Unclosed)
  /-- The first member of an object, or its end. -/
  | firstMember (stack : List Unclosed)
  /-- A member of an object. -/
  | member (stack : List Unclosed)
  /-- The colon after the name of a member. -/
  | colon (stack : List Unclosed)
  /-- A comma or the end of what is open. -/
  | separator (stack : List Unclosed)
  /-- Nothing: the value is complete. -/
  | done (reading : Reading)

namespace Reader

/-- The nesting that a value may not exceed. -/
def maxDepth : Nat := 127

/-- An array or object inside others; it cannot be read if it is too deep. -/
def nested (reading : Reading) (stack : List Unclosed) : Reading :=
  if stack.length < maxDepth then reading else .unreadable

/-- Put what is complete where it belongs. -/
def complete? (reading : Reading) : List Unclosed → Option Reader
  | [] => some (done reading)
  | .array items :: stack => some (separator (.array (reading :: items) :: stack))
  | .member members name? :: stack =>
    some (separator (.object ((name?, reading) :: members) :: stack))
  | .object _ :: _ => none

/-- Close the innermost array. -/
def closeArray? : List Unclosed → Option Reader
  | .array items :: stack => complete? (nested (.ofItems items.reverse) stack) stack
  | _ => none

/-- Close the innermost object. -/
def closeObject? : List Unclosed → Option Reader
  | .object members :: stack => complete? (nested (.ofMembers members.reverse) stack) stack
  | _ => none

/-- Take a word as the beginning of a value. -/
def beginValue? (stack : List Unclosed) : Token → Option Reader
  | .scalar v => complete? (.value v) stack
  | .brokenString => complete? .unreadable stack
  | .hugeNumber => complete? .unreadable stack
  | .openArray => some (firstItem (.array [] :: stack))
  | .openObject => some (firstMember (.object [] :: stack))
  | _ => none

/-- Take a word as the name of a member. -/
def beginMember? : List Unclosed → Token → Option Reader
  | .object members :: stack, .scalar (.string name) =>
    some (colon (.member members (some name) :: stack))
  | .object members :: stack, .brokenString => some (colon (.member members none :: stack))
  | _, _ => none

/-- Take the next word. -/
def step? : Reader → Token → Option Reader
  | value stack, token => beginValue? stack token
  | firstItem stack, .closeArray => closeArray? stack
  | firstItem stack, token => beginValue? stack token
  | firstMember stack, .closeObject => closeObject? stack
  | firstMember stack, token => beginMember? stack token
  | member stack, token => beginMember? stack token
  | colon stack, .colon => some (value stack)
  | separator stack, .closeArray => closeArray? stack
  | separator stack, .closeObject => closeObject? stack
  | separator (.array items :: stack), .comma => some (value (.array items :: stack))
  | separator (.object members :: stack), .comma => some (member (.object members :: stack))
  | _, _ => none

/-- What has been read, if it is complete. -/
def reading? : Reader → Option Reading
  | done reading => some reading
  | _ => none

end Reader

/-- What a sequence of words spells. -/
def Reading.ofTokens? (tokens : List Token) : Option Reading := do
  let reader ← tokens.foldlM Reader.step? (.value [])
  reader.reading?

/-- What a text spells.  There is nothing if the text is no document. -/
def Reading.ofText? (text : String) : Option Reading := do
  ofTokens? (← Token.scan? text.toList)

/-- The value that a text spells.  There is none if the text is no document or some part of it
cannot be read. -/
def read? (text : String) : Option Json := do
  (← Reading.ofText? text).value?

end ResourceQuery.Json
