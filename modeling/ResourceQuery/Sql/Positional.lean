import ResourceQuery.Sql.Piece

/-!
# Positional parameters

The database wants parameters as numbered placeholders.  The names in the text of a statement are
replaced by the places of their values, and a value that is sent as text is converted on the spot.

## Main Definitions

- `Sql.Rendered.positional`: the text with placeholders.
- `Sql.UnboundParameter`: a name in the text that has no value.

## Design Notes

A reference is an at sign, the letter `p` and any digits after it.  Text between quotes is left
alone; a doubled quote inside quotes ends and begins quoted text at once, which changes nothing.
-/

namespace ResourceQuery.Sql

/-- A parameter that occurs in a text without a value. -/
structure UnboundParameter where
  name : String
deriving DecidableEq

namespace Rendered

/-- The conversion written behind the placeholder of a value. -/
def castText : Value → List Char
  | .cast _ type => ':' :: ':' :: type.typeName.toList
  | _ => []

/-- The placeholder of the parameter with a name. -/
def placeholder (params : List (String × Value)) (name : String) :
    Except UnboundParameter (List Char) :=
  match params.findIdx? (fun p => p.1 = name), params.lookup name with
  | some position, some value => .ok ('$' :: (natText (position + 1)).toList ++ castText value)
  | _, _ => .error ⟨name⟩

/-- Replace the references in a text.  Inside quotes, the quotation mark that ends them is
given. -/
def replaceNames (params : List (String × Value)) (quote? : Option Char) (text : List Char) :
    Except UnboundParameter (List Char) :=
  match text with
  | [] => .ok []
  | c :: rest =>
    match quote? with
    | some mark => do
      return c :: (← replaceNames params (if c = mark then none else some mark) rest)
    | none =>
      if c = '\x27' ∨ c = '"' then do
        return c :: (← replaceNames params (some c) rest)
      else if c = '@' ∧ rest.head? = some 'p' then do
        let digits := rest.tail.takeWhile Char.isDigit
        let here ← placeholder params (String.ofList ('@' :: 'p' :: digits))
        have : (rest.tail.dropWhile Char.isDigit).length < rest.length + 1 := by
          have := (List.dropWhile_sublist (l := rest.tail) Char.isDigit).length_le
          have := rest.length_tail
          omega
        return here ++ (← replaceNames params none (rest.tail.dropWhile Char.isDigit))
      else do
        return c :: (← replaceNames params none rest)
termination_by text.length

/-- The text with numbered placeholders, in the order of the parameters. -/
def positional (r : Rendered) : Except UnboundParameter String := do
  return String.ofList (← replaceNames r.params none r.text.toList)

end Rendered

end ResourceQuery.Sql
