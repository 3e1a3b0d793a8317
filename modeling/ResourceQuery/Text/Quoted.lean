import ResourceQuery.Text.Printable

/-!
# Quoted text

The form in which a text is shown between quotation marks: every character that would be confusing
there is replaced by an escape.

## Main Definitions

- `Text.escape`: how one character is shown.
- `Text.quoted`: a text between quotation marks.
-/

namespace ResourceQuery.Text

/-- The lower-case hexadecimal numeral of a natural number. -/
def hexText (n : Nat) : List Char :=
  Nat.toDigits 16 n

/-- How a character is shown between quotation marks: quotation marks and backslashes are escaped,
common controls have short names, and characters that do not print on their own are given by
their code point. -/
def escape (c : Char) : List Char :=
  if c = '"' then ['\\', '"']
  else if c = '\\' then ['\\', '\\']
  else if c = '\n' then ['\\', 'n']
  else if c = '\r' then ['\\', 'r']
  else if c = '\t' then ['\\', 't']
  else if c.toNat = 0 then ['\\', '0']
  else if isPrintable c then [c]
  else ['\\', 'u', '\x7b'] ++ hexText c.toNat ++ ['\x7d']

/-- A text between quotation marks. -/
def quoted (text : String) : String :=
  String.ofList ('"' :: text.toList.flatMap escape ++ ['"'])

end ResourceQuery.Text
