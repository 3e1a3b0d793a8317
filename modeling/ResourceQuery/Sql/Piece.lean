import ResourceQuery.Sql.Value

/-!
# Pieces of statement text

The text of a statement is put together from pieces: words of the language, quoted names and
literals, references to parameters, and line breaks.

## Main Definitions

- `Sql.Piece`: a piece of text.
- `Sql.Piece.chars`: the text of a list of pieces, for any way of writing parameters.
- `Sql.Rendered`: a text together with the values of its parameters.
- `Sql.Piece.render`: the text in which parameters are written by their names.
-/

namespace ResourceQuery.Sql

/-- A piece of statement text. -/
inductive Piece where
  /-- Words and signs of the language. -/
  | verbatim (text : String)
  /-- A name, written between double quotes. -/
  | identifier (name : String)
  /-- A text, written between single quotes. -/
  | literal (text : String)
  /-- A reference to a parameter. -/
  | param (parameter : Parameter)
  /-- A line break, followed by the current indentation. -/
  | newLine
  /-- Indent the following lines by one more step. -/
  | indent
  /-- Indent the following lines by one step less. -/
  | unindent
deriving DecidableEq

namespace Piece

/-- A text between quotes of the given kind, with the quotes inside it written twice. -/
def quote (mark : Char) (text : String) : List Char :=
  mark :: text.toList.flatMap (fun c => if c = mark then [mark, mark] else [c]) ++ [mark]

/-- Four blanks for every step. -/
def indentation (depth : Nat) : List Char :=
  List.replicate (4 * depth) ' '

/-- The indentation that holds after a piece. -/
def depthAfter (depth : Nat) : Piece → Nat
  | indent => depth + 1
  | unindent => depth - 1
  | _ => depth

/-- The text of a piece at an indentation. -/
def charsOf (writeParam : Parameter → List Char) (depth : Nat) : Piece → List Char
  | verbatim text => text.toList
  | identifier name => quote '"' name
  | literal text => quote '\x27' text
  | param p => writeParam p
  | newLine => '\n' :: indentation depth
  | indent => []
  | unindent => []

/-- The text of a list of pieces, beginning at an indentation. -/
def charsFrom (writeParam : Parameter → List Char) : Nat → List Piece → List Char
  | _, [] => []
  | depth, piece :: rest =>
    charsOf writeParam depth piece ++ charsFrom writeParam (depthAfter depth piece) rest

/-- The text of a list of pieces. -/
def chars (writeParam : Parameter → List Char) (pieces : List Piece) : List Char :=
  charsFrom writeParam 0 pieces

/-- The parameter of a piece. -/
def parameter? : Piece → Option Parameter
  | param p => some p
  | _ => none

/-- The parameters that a list of pieces refers to, in order of reference. -/
def references (pieces : List Piece) : List Parameter :=
  pieces.filterMap parameter?

/-- Add a value under a name that has none yet. -/
def register (params : List (String × Value)) (p : Parameter) : List (String × Value) :=
  match params.lookup p.name with
  | some _ => params
  | none => params ++ [(p.name, p.value)]

/-- The values of the parameters that a list of pieces refers to, by name and in order of first
reference.  The first reference decides the value. -/
def params (pieces : List Piece) : List (String × Value) :=
  (references pieces).foldl register []

end Piece

/-- The text of a statement with the values of its parameters, in order of first reference. -/
structure Rendered where
  text : String
  params : List (String × Value)
deriving DecidableEq, Inhabited

/-- The text of a list of pieces, in which parameters are written by their names. -/
def Piece.render (pieces : List Piece) : Rendered where
  text := String.ofList (Piece.chars (fun p => p.name.toList) pieces)
  params := Piece.params pieces

end ResourceQuery.Sql
