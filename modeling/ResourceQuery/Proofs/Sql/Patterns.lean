import Mathlib.Data.List.Infix
import ResourceQuery.Sql.Render

/-!
# Patterns and literals

A text that has to occur in a value is sent to the database as a pattern, and the pattern as a
literal.  Two readers undo these steps: the database takes the quotes off the literal, and then
gives the wildcards of the pattern their meaning.  What is found in the end is the text itself.

## Main Definitions

- `Like.parts?`: the wildcards and characters that a pattern consists of.
- `Like.accepts`: does a text match a pattern.
- `MatchKind.Finds`: where a text has to occur in another.
- `Piece.unquote?`: the text that stands between quotes, and what follows.

## Main Statements

- `Piece.unquote?_quote`: the quotes around a text can be taken off again.
- `Like.parts?_escaped`: an escaped text consists of its own characters.
- `MatchKind.pattern_finds_literally`: a pattern finds its text and nothing else.
-/

namespace ResourceQuery.Sql

/-! ### Text on one line -/

namespace Piece

/-- A piece whose text does not depend on the indentation, and does not change it. -/
def isInline : Piece → Bool
  | newLine | indent | unindent => false
  | verbatim _ | identifier _ | literal _ | param _ => true

/-- Inline pieces are written one after the other. -/
theorem charsFrom_of_inline {write : Parameter → List Char} {pieces : List Piece}
    (inline : pieces.all isInline = true) (depth : Nat) :
    charsFrom write depth pieces = pieces.flatMap (charsOf write 0) := by
  induction pieces generalizing depth with
  | nil => rfl
  | cons piece rest ih =>
    rw [List.all_cons, Bool.and_eq_true] at inline
    rw [charsFrom, ih inline.2, List.flatMap_cons]
    cases piece with
    | verbatim text => rfl
    | identifier name => rfl
    | literal text => rfl
    | param p => rfl
    | newLine => cases inline.1
    | indent => cases inline.1
    | unindent => cases inline.1

end Piece

theorem Column.inline_pieces (c : Column) : c.pieces.all Piece.isInline = true := by
  unfold Column.pieces
  split <;> rfl

/-! ### Literals -/

namespace Piece

/-- What stands inside quotes up to the mark that ends them, and what follows.  A doubled mark
stands for itself. -/
def quoted? (mark : Char) : List Char → Option (List Char × List Char)
  | [] => none
  | [c] => if c = mark then some ([], []) else none
  | c :: d :: rest =>
    if c = mark then
      if d = mark then (quoted? mark rest).map (Prod.map (mark :: ·) id)
      else some ([], d :: rest)
    else (quoted? mark (d :: rest)).map (Prod.map (c :: ·) id)

/-- **The text between quotes**, with doubled marks undone, and what follows it. -/
def unquote? (mark : Char) : List Char → Option (String × List Char)
  | [] => none
  | c :: rest => if c = mark then (quoted? mark rest).map (Prod.map String.ofList id) else none

theorem quoted?_doubled {mark : Char} (text : List Char) {rest : List Char}
    (ends : ∀ c ∈ rest.head?, c ≠ mark) :
    quoted? mark (text.flatMap (fun c => if c = mark then [mark, mark] else [c]) ++ mark :: rest)
      = some (text, rest) := by
  induction text with
  | nil =>
    cases rest with
    | nil => simp [quoted?]
    | cons c rest => simp [quoted?, ends c rfl]
  | cons c text ih =>
    rw [List.flatMap_cons]
    by_cases same : c = mark
    · subst same
      simp [quoted?, ih]
    · -- Whatever comes next, at least the mark at the end is there.
      obtain ⟨d, more, next⟩ := List.exists_cons_of_ne_nil
        (List.append_ne_nil_of_right_ne_nil
          (text.flatMap (fun c => if c = mark then [mark, mark] else [c]))
          (List.cons_ne_nil mark rest))
      rw [if_neg same, List.append_assoc, next, List.singleton_append, quoted?, if_neg same,
        ← next, ih]
      rfl

/-- **The quotes around a text can be taken off again**, unless another mark follows them. -/
theorem unquote?_quote {mark : Char} (text : String) {rest : List Char}
    (ends : ∀ c ∈ rest.head?, c ≠ mark) :
    unquote? mark (quote mark text ++ rest) = some (text, rest) := by
  have inside := quoted?_doubled text.toList ends
  simp [quote, unquote?, inside]

end Piece

/-! ### Patterns -/

namespace Like

/-- A part of a pattern. -/
inductive Part where
  /-- Stands for any sequence of characters. -/
  | anyText
  /-- Stands for any one character. -/
  | anyChar
  /-- Stands for itself. -/
  | char (c : Char)
deriving DecidableEq

/-- **The parts of a pattern**: a percent sign stands for any text and an underscore for any
character, except behind a backslash.  A backslash with nothing behind it has no meaning. -/
def parts? : List Char → Option (List Part)
  | [] => some []
  | [c] =>
    if c = '\\' then none
    else if c = '%' then some [.anyText]
    else if c = '_' then some [.anyChar]
    else some [.char c]
  | c :: d :: rest =>
    if c = '\\' then (parts? rest).map (.char d :: ·)
    else if c = '%' then (parts? (d :: rest)).map (.anyText :: ·)
    else if c = '_' then (parts? (d :: rest)).map (.anyChar :: ·)
    else (parts? (d :: rest)).map (.char c :: ·)

/-- Does a text consist of what the parts of a pattern stand for, in their order. -/
def consistsOf : List Part → List Char → Bool
  | [], subject => subject.isEmpty
  | .anyText :: rest, subject => subject.tails.any (consistsOf rest)
  | .anyChar :: _, [] => false
  | .anyChar :: rest, _ :: subject => consistsOf rest subject
  | .char _ :: _, [] => false
  | .char c :: rest, d :: subject => c = d && consistsOf rest subject

/-- **Does a text match a pattern.** -/
def accepts (pattern subject : String) : Bool :=
  match parts? pattern.toList with
  | some parts => consistsOf parts subject.toList
  | none => false

theorem parts?_anyText (rest : List Char) :
    parts? ('%' :: rest) = (parts? rest).map (.anyText :: ·) := by
  cases rest with
  | nil => rfl
  | cons c rest => simp [parts?]

theorem parts?_escape (c : Char) (rest : List Char) :
    parts? (MatchKind.escape c ++ rest) = (parts? rest).map (.char c :: ·) := by
  unfold MatchKind.escape
  split
  · simp [parts?]
  · rename_i ordinary
    simp only [not_or] at ordinary
    cases rest with
    | nil => simp [parts?, ordinary]
    | cons d rest => simp [parts?, ordinary]

/-- **An escaped text consists of its own characters**, whatever follows it. -/
theorem parts?_escaped (text rest : List Char) :
    parts? (text.flatMap MatchKind.escape ++ rest)
      = (parts? rest).map (text.map .char ++ ·) := by
  induction text with
  | nil => simp
  | cons c text ih =>
    rw [List.flatMap_cons, List.append_assoc, parts?_escape, ih, Option.map_map]
    rfl

/-- Characters match themselves, and leave the rest of the text to what follows them. -/
theorem consistsOf_chars (text : List Char) (rest : List Part) (subject : List Char) :
    consistsOf (text.map .char ++ rest) subject = true
      ↔ ∃ tail, subject = text ++ tail ∧ consistsOf rest tail = true := by
  induction text generalizing subject with
  | nil => simp
  | cons c text ih =>
    cases subject with
    | nil => simp [consistsOf]
    | cons d subject =>
      simp only [List.map_cons, List.cons_append, consistsOf, Bool.and_eq_true, decide_eq_true_eq,
        ih, List.cons.injEq]
      constructor
      · rintro ⟨rfl, tail, rfl, later⟩
        exact ⟨tail, ⟨rfl, rfl⟩, later⟩
      · rintro ⟨tail, ⟨rfl, rfl⟩, later⟩
        exact ⟨rfl, tail, rfl, later⟩

/-- Any text may stand before what follows the wildcard. -/
theorem consistsOf_anyText (rest : List Part) (subject : List Char) :
    consistsOf (.anyText :: rest) subject = true
      ↔ ∃ front tail, subject = front ++ tail ∧ consistsOf rest tail = true := by
  simp only [consistsOf, List.any_eq_true, List.mem_tails]
  constructor
  · rintro ⟨tail, ⟨front, whole⟩, later⟩
    exact ⟨front, tail, whole.symm, later⟩
  · rintro ⟨front, tail, whole, later⟩
    exact ⟨tail, ⟨front, whole.symm⟩, later⟩

theorem consistsOf_nil (subject : List Char) : consistsOf [] subject = true ↔ subject = [] :=
  List.isEmpty_iff

end Like

namespace MatchKind

/-- **Where a text has to occur** in another one. -/
def Finds (kind : MatchKind) (text subject : String) : Prop :=
  match kind with
  | contains => text.toList <:+: subject.toList
  | startsWith => text.toList <+: subject.toList
  | endsWith => text.toList <:+ subject.toList

/-- Put a backslash before every occurrence of a character. -/
def escapeOnly (special c : Char) : List Char :=
  if c = special then ['\\', c] else [c]

/-- **Characters can be escaped one after the other**, if the backslash comes first. -/
theorem escape_eq_replacements (text : List Char) :
    text.flatMap escape
      = ((text.flatMap (escapeOnly '\\')).flatMap (escapeOnly '%')).flatMap (escapeOnly '_') := by
  rw [List.flatMap_assoc, List.flatMap_assoc]
  congr 1
  funext c
  by_cases backslash : c = '\\'
  · subst backslash
    decide
  by_cases percent : c = '%'
  · subst percent
    decide
  by_cases underscore : c = '_'
  · subst underscore
    decide
  simp [escape, escapeOnly, backslash, percent, underscore]

/-- The parts of the pattern for a text: its characters, and a wildcard where more may stand. -/
theorem parts?_pattern (kind : MatchKind) (text : String) :
    Like.parts? (kind.pattern text).toList = some (match kind with
      | contains => .anyText :: (text.toList.map .char ++ [.anyText])
      | startsWith => text.toList.map .char ++ [.anyText]
      | endsWith => .anyText :: (text.toList.map .char ++ [])) := by
  have plain := Like.parts?_escaped text.toList []
  have open_ := Like.parts?_escaped text.toList ['%']
  cases kind with
  | contains => simp [pattern, Like.parts?_anyText, open_, Like.parts?]
  | startsWith => simp [pattern, open_, Like.parts?]
  | endsWith => simp_all [pattern, Like.parts?_anyText, Like.parts?]

theorem accepts_pattern (kind : MatchKind) (text subject : String) :
    Like.accepts (kind.pattern text) subject = true ↔ kind.Finds text subject := by
  have anything : ∀ tail, Like.consistsOf [.anyText] tail = true := fun tail =>
    (Like.consistsOf_anyText [] tail).mpr ⟨tail, [], (List.append_nil tail).symm, rfl⟩
  rw [Like.accepts, parts?_pattern]
  cases kind with
  | contains =>
    simp only [Like.consistsOf_anyText, Like.consistsOf_chars, Finds]
    constructor
    · rintro ⟨front, tail, whole, after, rfl, -⟩
      exact ⟨front, after, by rw [whole, List.append_assoc]⟩
    · rintro ⟨front, after, whole⟩
      exact ⟨front, _, by rw [← whole, List.append_assoc], after, rfl, ⟨after, [], by simp, rfl⟩⟩
  | startsWith =>
    simp only [Like.consistsOf_chars, anything, and_true, Finds]
    exact ⟨fun ⟨tail, whole⟩ => ⟨tail, whole.symm⟩, fun ⟨tail, whole⟩ => ⟨tail, whole.symm⟩⟩
  | endsWith =>
    simp only [Like.consistsOf_anyText, Like.consistsOf_chars, Like.consistsOf_nil, Finds]
    constructor
    · rintro ⟨front, tail, whole, _, rfl, rfl⟩
      exact ⟨front, by rw [whole, List.append_nil]⟩
    · rintro ⟨front, whole⟩
      exact ⟨front, text.toList, whole.symm, [], (List.append_nil _).symm, rfl⟩

/-- **A pattern finds its text literally.**  Escaping one special character after the other, the
backslash first, gives the same pattern as escaping all at once.  With the meaning that the database
gives to wildcards and backslashes, the pattern matches exactly the texts that begin with, end with
or contain the given one.  In the condition it stands behind the column, as a literal that reads
back as the pattern when doubled quotes are undone. -/
theorem pattern_finds_literally (kind : MatchKind) (text subject : String) (column : Column)
    (write : Parameter → List Char) :
    text.toList.flatMap escape
        = ((text.toList.flatMap (escapeOnly '\\')).flatMap (escapeOnly '%')).flatMap
          (escapeOnly '_')
      ∧ (Like.accepts (kind.pattern text) subject = true ↔ kind.Finds text subject)
      ∧ ∃ literal, Piece.chars write (Condition.like column text kind).pieces
          = Piece.chars write column.pieces ++ " LIKE ".toList ++ literal
        ∧ Piece.unquote? '\x27' literal = some (kind.pattern text, []) := by
  have inline : (Condition.like column text kind).pieces.all Piece.isInline = true := by
    rw [Condition.pieces, List.all_append, column.inline_pieces]
    rfl
  have unquoted : Piece.unquote? '\x27' (Piece.quote '\x27' (kind.pattern text) ++ [])
      = some (kind.pattern text, []) := Piece.unquote?_quote _ (by simp)
  rw [List.append_nil] at unquoted
  refine ⟨escape_eq_replacements _, accepts_pattern kind text subject, _, ?_, unquoted⟩
  rw [Piece.chars, Piece.charsFrom_of_inline inline, Piece.chars,
    Piece.charsFrom_of_inline column.inline_pieces, Condition.pieces, List.flatMap_append]
  simp [Piece.charsOf]

end MatchKind

end ResourceQuery.Sql
