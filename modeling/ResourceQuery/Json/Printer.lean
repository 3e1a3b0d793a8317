import ResourceQuery.Decimal.Layout
import ResourceQuery.Json.Basic

/-!
# Writing JSON

Two written forms of a value: a compact one without any blanks, and an indented one with one item
or member on each line.

## Main Definitions

- `Json.floatLayout`: how double-precision numbers are written.
- `Json.compact`, `Json.pretty`: the two written forms.
-/

namespace ResourceQuery

namespace Json

/-! ### Numbers and strings -/

/-- Numbers from `10 ^ (-5)` up to `10 ^ 16` are written without exponent and always show a
fraction; an exponent always shows its sign, and a tie goes to the even digit. -/
def floatLayout : Decimal.Layout where
  positional := fun leading => -5 ≤ leading && leading < 16
  marksWhole := true
  signsExponent := true
  tie := .toEven

/-- The written form of a number. -/
def Number.text : Number → String
  | .int n _ => intText n
  | .float x _ => floatLayout.write x

/-- The hexadecimal digit of a number below sixteen. -/
def hexDigit (n : Nat) : Char :=
  Nat.digitChar n

/-- How a character is written inside a string: quotation marks, backslashes and controls are
escaped, everything else stands for itself. -/
def escapeChar (c : Char) : List Char :=
  if c = '"' then ['\\', '"']
  else if c = '\\' then ['\\', '\\']
  else if c = '\n' then ['\\', 'n']
  else if c = '\r' then ['\\', 'r']
  else if c = '\t' then ['\\', 't']
  else if c.toNat = 8 then ['\\', 'b']
  else if c.toNat = 12 then ['\\', 'f']
  else if c.toNat < 32 then
    ['\\', 'u', '0', '0', hexDigit (c.toNat / 16), hexDigit (c.toNat % 16)]
  else [c]

/-- The written form of a string. -/
def quote (text : String) : List Char :=
  '"' :: text.toList.flatMap escapeChar ++ ['"']

/-! ### Compact form -/

/-- Put a separator between written parts. -/
def separate (separator : List Char) : List (List Char) → List Char
  | [] => []
  | [part] => part
  | part :: rest => part ++ separator ++ separate separator rest

mutual

/-- The characters of the compact form. -/
def compactChars : Json → List Char
  | null => ['n', 'u', 'l', 'l']
  | bool true => ['t', 'r', 'u', 'e']
  | bool false => ['f', 'a', 'l', 's', 'e']
  | number n => n.text.toList
  | string s => quote s
  | array items => '[' :: separate [','] (compactItems items) ++ [']']
  | object members => '\x7b' :: separate [','] (compactMembers members) ++ ['\x7d']

/-- The compact forms of a list of values. -/
def compactItems : List Json → List (List Char)
  | [] => []
  | j :: rest => compactChars j :: compactItems rest

/-- The compact forms of a list of members. -/
def compactMembers : List (String × Json) → List (List Char)
  | [] => []
  | (name, j) :: rest => (quote name ++ ':' :: compactChars j) :: compactMembers rest

end

/-- The compact written form, without any blanks. -/
def compact (j : Json) : String :=
  String.ofList j.compactChars

/-! ### Indented form -/

/-- A line break followed by two blanks for every level. -/
def lineBreak (level : Nat) : List Char :=
  '\n' :: List.replicate (2 * level) ' '

/-- Written parts on lines of their own between brackets; nothing but the brackets if there are
none. -/
def enclose (opening closing : Char) (level : Nat) : List (List Char) → List Char
  | [] => [opening, closing]
  | parts =>
    opening :: lineBreak (level + 1) ++ separate (',' :: lineBreak (level + 1)) parts
      ++ lineBreak level ++ [closing]

mutual

/-- The characters of the indented form, at a level of nesting. -/
def prettyChars (level : Nat) : Json → List Char
  | array items => enclose '[' ']' level (prettyItems (level + 1) items)
  | object members => enclose '\x7b' '\x7d' level (prettyMembers (level + 1) members)
  | j => compactChars j

/-- The indented forms of a list of values. -/
def prettyItems (level : Nat) : List Json → List (List Char)
  | [] => []
  | j :: rest => prettyChars level j :: prettyItems level rest

/-- The indented forms of a list of members. -/
def prettyMembers (level : Nat) : List (String × Json) → List (List Char)
  | [] => []
  | (name, j) :: rest =>
    (quote name ++ ':' :: ' ' :: prettyChars level j) :: prettyMembers level rest

end

/-- The indented written form. -/
def pretty (j : Json) : String :=
  String.ofList (j.prettyChars 0)

end Json

end ResourceQuery
