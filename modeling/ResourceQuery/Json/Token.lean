import ResourceQuery.Decimal.Numeral
import ResourceQuery.Json.Basic

/-!
# Words of a JSON document

A document is a sequence of brackets, separators, strings, numbers and the three names `null`,
`true` and `false`, with blanks between them that mean nothing.  A string or a number can be well
formed and yet stand for no value; it is a word nevertheless.

## Main Definitions

- `Json.Token`: a word of a document.
- `Json.Token.scan?`: the words of a text.
-/

namespace ResourceQuery.Json

/-- A word of a document. -/
inductive Token where
  | openArray
  | closeArray
  | openObject
  | closeObject
  | colon
  | comma
  /-- A value without parts: a name, a number or a string. -/
  | scalar (value : Json)
  /-- A string that holds half a surrogate pair. -/
  | brokenString
  /-- A number out of range. -/
  | hugeNumber
deriving DecidableEq

namespace Token

/-! ### Strings -/

/-- A part of a string: a character, or an escaped unit of sixteen bits. -/
inductive Part where
  | char (c : Char)
  | unit (n : Nat)
deriving DecidableEq

/-- The value of a hexadecimal digit. -/
def hexValue? (c : Char) : Option Nat :=
  if '0' ≤ c ∧ c ≤ '9' then some (c.toNat - '0'.toNat)
  else if 'a' ≤ c ∧ c ≤ 'f' then some (c.toNat - 'a'.toNat + 10)
  else if 'A' ≤ c ∧ c ≤ 'F' then some (c.toNat - 'A'.toNat + 10)
  else none

/-- The unit given by four hexadecimal digits. -/
def unit? (a b c d : Char) : Option Nat := do
  return (((← hexValue? a) * 16 + (← hexValue? b)) * 16 + (← hexValue? c)) * 16 + (← hexValue? d)

/-- The character that a backslash and a letter stand for. -/
def shortEscape? : Char → Option Char
  | '"' => some '"'
  | '\\' => some '\\'
  | '/' => some '/'
  | 'b' => some '\x08'
  | 'f' => some '\x0c'
  | 'n' => some '\n'
  | 'r' => some '\r'
  | 't' => some '\t'
  | _ => none

/-- The parts of a string up to its closing quotation mark, and the rest of the text.  A control
character is not allowed inside a string. -/
def parts? : List Char → Option (List Part × List Char)
  | [] => none
  | '"' :: rest => some ([], rest)
  | '\\' :: 'u' :: a :: b :: c :: d :: rest => do
    let n ← unit? a b c d
    let (parts, rest) ← parts? rest
    return (.unit n :: parts, rest)
  | '\\' :: e :: rest => do
    let c ← shortEscape? e
    let (parts, rest) ← parts? rest
    return (.char c :: parts, rest)
  | c :: rest =>
    if c = '\\' ∨ c.toNat < 32 then none
    else do
      let (parts, rest) ← parts? rest
      return (.char c :: parts, rest)

/-- Is this the first unit of a pair. -/
def isLeading (n : Nat) : Bool :=
  0xd800 ≤ n && n < 0xdc00

/-- Is this the second unit of a pair. -/
def isTrailing (n : Nat) : Bool :=
  0xdc00 ≤ n && n < 0xe000

/-- The characters of a string.  Two units that form a pair give one character; half a pair gives
none. -/
def chars? : List Part → Option (List Char)
  | [] => some []
  | .char c :: rest => (c :: ·) <$> chars? rest
  | .unit n :: rest =>
    if isLeading n then
      match rest with
      | .unit m :: rest =>
        if isTrailing m then
          (Char.ofNat (0x10000 + (n - 0xd800) * 0x400 + (m - 0xdc00)) :: ·) <$> chars? rest
        else none
      | _ => none
    else if isTrailing n then none
    else (Char.ofNat n :: ·) <$> chars? rest

theorem parts?_length {text : List Char} {parts : List Part} {rest : List Char}
    (h : parts? text = some (parts, rest)) : rest.length < text.length := by
  fun_induction parts? text generalizing parts rest with
  | case1 => simp at h
  | case2 text => simp_all
  | case3 a b c d text ih =>
    simp only [bind, Option.bind_eq_some_iff, pure, Option.some.injEq, Prod.mk.injEq] at h
    obtain ⟨_, _, ⟨ps, r⟩, hr, _, rfl⟩ := h
    have := ih hr
    simp only [List.length_cons]
    omega
  | case4 e text _ ih =>
    simp only [bind, Option.bind_eq_some_iff, pure, Option.some.injEq, Prod.mk.injEq] at h
    obtain ⟨_, _, ⟨ps, r⟩, hr, _, rfl⟩ := h
    have := ih hr
    simp only [List.length_cons]
    omega
  | case5 => simp at h
  | case6 c text _ _ _ _ ih =>
    simp only [bind, Option.bind_eq_some_iff, pure, Option.some.injEq, Prod.mk.injEq] at h
    obtain ⟨⟨ps, r⟩, hr, _, rfl⟩ := h
    have := ih hr
    simp only [List.length_cons]
    omega

/-! ### Numbers -/

/-- Can this character occur in a number. -/
def isNumberChar (c : Char) : Bool :=
  c.isDigit || c = '-' || c = '+' || c = '.' || c = 'e' || c = 'E'

/-- Are the digits before the point written as documents want them: at least one, and no zero in
front of others. -/
def plainWhole : List Char → Bool
  | [] => false
  | ['0'] => true
  | c :: _ => c != '0'

/-- The number of a numeral.  Whole numbers that fit 64 bits are integers; a zero with a minus sign
is not. -/
def number? (n : Numeral) : Option Number := do
  let magnitude : Int := Numeral.digitsValue n.whole
  let value := if n.negative then -magnitude else magnitude
  if h : -9223372036854775808 ≤ value ∧ value < 18446744073709551616 then
    if n.fraction?.isNone && n.exponent?.isNone && !(n.negative && magnitude = 0) then
      return .int value h
  let x ← n.scaled?
  if h : x.isFinite = true then return .float x h else none

/-- The numeral that a run of characters spells. -/
def spelledNumeral? (run : List Char) : Option Numeral := do
  let (n, rest) ← Numeral.read? run
  if rest.isEmpty && run.head? != some '+' && plainWhole n.whole && n.fraction? != some [] then
    some n
  else none

/-! ### Scanning -/

/-- Is this character a blank between words. -/
def isBlank (c : Char) : Bool :=
  c = ' ' || c = '\n' || c = '\t' || c = '\r'

/-- The word that one character makes up. -/
def ofChar? : Char → Option Token
  | '[' => some openArray
  | ']' => some closeArray
  | '\x7b' => some openObject
  | '\x7d' => some closeObject
  | ':' => some colon
  | ',' => some comma
  | _ => none

/-- The value that a name stands for. -/
def ofName? (name : List Char) : Option Json :=
  if name = ['n', 'u', 'l', 'l'] then some .null
  else if name = ['t', 'r', 'u', 'e'] then some (.bool true)
  else if name = ['f', 'a', 'l', 's', 'e'] then some (.bool false)
  else none

/-- The word that the parts of a string make up. -/
def ofParts (parts : List Part) : Token :=
  match chars? parts with
  | some chars => scalar (.string (String.ofList chars))
  | none => brokenString

/-- The word that a numeral makes up. -/
def ofNumeral (n : Numeral) : Token :=
  match number? n with
  | some value => scalar (.number value)
  | none => hugeNumber

/-- The words of a text. -/
def scan? (text : List Char) : Option (List Token) :=
  match text with
  | [] => some []
  | c :: rest =>
    if isBlank c then scan? rest
    else match ofChar? c with
      | some token => (token :: ·) <$> scan? rest
      | none =>
        if c = '"' then
          match h : parts? rest with
          | none => none
          | some (parts, after) => do
            have := parts?_length h
            let tokens ← scan? after
            return ofParts parts :: tokens
        else if c.isAlpha then do
          let value ← ofName? (c :: rest.takeWhile Char.isAlpha)
          have := (List.dropWhile_sublist (l := rest) Char.isAlpha).length_le
          let tokens ← scan? (rest.dropWhile Char.isAlpha)
          return scalar value :: tokens
        else do
          let numeral ← spelledNumeral? (c :: rest.takeWhile isNumberChar)
          have := (List.dropWhile_sublist (l := rest) isNumberChar).length_le
          let tokens ← scan? (rest.dropWhile isNumberChar)
          return ofNumeral numeral :: tokens
termination_by text.length

end Token

end ResourceQuery.Json
