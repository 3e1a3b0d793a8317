import ResourceQuery.Proofs.Json.Spelling
import ResourceQuery.Proofs.Sql.Patterns
import ResourceQuery.Proofs.Sql.Scanning

/-!
# One text, one condition

The text of a condition can be read in one way only.  Names and patterns may contain anything, but
they end with their quotes; what stands in parentheses ends with the parenthesis that closes it; and
the first character of a condition tells if it is a negation, a combination or neither.

## Main Definitions

- `Condition.Legible`: a condition without queries inside, whose text says what it means.
- `Condition.shown`: a condition as far as its text shows it.
- `Piece.spell`: the characters of pieces that stand on one line.

## Main Statements

- `Column.spell_inj`, `Operand.spell_inj`: columns and sides of comparisons can be told from their
  texts, whatever follows.
- `Condition.spell_inj`: so can conditions, up to what their texts do not show.
- `Condition.text_eq_iff_shown_eq`: two conditions have the same text exactly if they show the same.
-/

namespace ResourceQuery.Sql

/-! ### What texts show -/

/-- A column as far as its text shows it: the name, and the alias of the table. -/
def Column.shown (c : Column) : Column :=
  .inTable c.name .scalar c.alias?

/-- A parameter without its value. -/
def Parameter.shown (p : Parameter) : Parameter :=
  ⟨p.name, .null⟩

/-- A side of a comparison as far as its text shows it. -/
def Operand.shown : Operand → Operand
  | .column c => .column c.shown
  | .parameter p => .parameter p.shown
  | .null => .null
  | .count select => .count select

/-- A place at which an empty text has to occur: its beginning and its end have the same pattern. -/
def MatchKind.shownFor (text : String) (kind : MatchKind) : MatchKind :=
  if text = "" ∧ kind = .endsWith then .startsWith else kind

mutual

/-- **A condition as far as its text shows it**: of columns the name and the alias, of parameters
the name; a null stands on the right. -/
def Condition.shown : Condition → Condition
  | .comparison left op right =>
    if left.isNull && !right.isNull then .comparison right.shown op left.shown
    else .comparison left.shown op right.shown
  | .logical op terms => .logical op (Condition.allShown terms)
  | .not term => .not (Condition.shown term)
  | .like column text kind => .like column.shown text (kind.shownFor text)
  | .isIn column values => .isIn column.shown (values.map Parameter.shown)
  | .nonempty select => .nonempty select

/-- Several conditions as far as their texts show them. -/
def Condition.allShown : List Condition → List Condition
  | [] => []
  | term :: rest => Condition.shown term :: Condition.allShown rest

end

/-- A side of a comparison that is no query; parameters have numbered names. -/
def Operand.IsBare : Operand → Prop
  | .column _ => True
  | .parameter p => p.IsNumbered
  | .null => True
  | .count _ => False

mutual

/-- **A condition without queries inside whose text says what it means**: at least two terms are
combined, at most one side of a comparison is null and then it asks for equality, and parameters
have numbered names. -/
def Condition.Legible : Condition → Prop
  | .comparison left op right => left.IsBare ∧ right.IsBare
    ∧ (left.isNull && right.isNull) = false ∧ ((left.isNull || right.isNull) = true → op = .equal)
  | .logical _ terms => 2 ≤ terms.length ∧ Condition.AllLegible terms
  | .not term => Condition.Legible term
  | .like _ _ _ => True
  | .isIn _ values => ∀ p ∈ values, p.IsNumbered
  | .nonempty _ => False

/-- Several conditions of this kind. -/
def Condition.AllLegible : List Condition → Prop
  | [] => True
  | term :: rest => Condition.Legible term ∧ Condition.AllLegible rest

end

/-! ### Texts on one line -/

/-- The characters of pieces that stand on one line. -/
def Piece.spell (pieces : List Piece) : List Char :=
  pieces.flatMap (Piece.charsOf (fun p => p.name.toList) 0)

open Piece (spell)

@[simp] theorem Piece.spell_nil : spell [] = [] := rfl

@[simp] theorem Piece.spell_cons (piece : Piece) (rest : List Piece) :
    spell (piece :: rest) = piece.charsOf (fun p => p.name.toList) 0 ++ spell rest :=
  List.flatMap_cons

@[simp] theorem Piece.spell_append (pieces more : List Piece) :
    spell (pieces ++ more) = spell pieces ++ spell more :=
  List.flatMap_append

/-- Separated parts are the first one, and the others each behind a separator. -/
theorem joinPieces_cons (separator : String) (part : List Piece) (rest : List (List Piece)) :
    joinPieces separator (part :: rest)
      = part ++ rest.flatMap (fun other => .verbatim separator :: other) := by
  induction rest generalizing part with
  | nil => simp [joinPieces]
  | cons next rest ih => rw [joinPieces, ih, List.flatMap_cons, List.cons_append]; simp

/-- Runs of characters that the rests of two texts do not go on with can be compared. -/
theorem run_inj {p : Char → Bool} {run other rest more : List Char}
    (all : ∀ c ∈ run, p c = true) (all' : ∀ c ∈ other, p c = true)
    (stop : ∀ c ∈ rest.head?, p c = false) (stop' : ∀ c ∈ more.head?, p c = false)
    (h : run ++ rest = other ++ more) : run = other ∧ rest = more := by
  obtain ⟨taken, dropped⟩ := takeWhile_append_of_stop all stop
  obtain ⟨taken', dropped'⟩ := takeWhile_append_of_stop all' stop'
  rw [h] at taken dropped
  exact ⟨taken.symm.trans taken', dropped.symm.trans dropped'⟩

/-- Quoted texts can be compared, if no further quote follows them. -/
theorem Piece.quote_inj {mark : Char} {text other : String} {rest more : List Char}
    (ends : ∀ c ∈ rest.head?, c ≠ mark) (ends' : ∀ c ∈ more.head?, c ≠ mark)
    (h : quote mark text ++ rest = quote mark other ++ more) : text = other ∧ rest = more := by
  have read := unquote?_quote text ends
  rw [h, unquote?_quote other ends'] at read
  cases read
  exact ⟨rfl, rfl⟩

/-! ### Sides of comparisons -/

/-- What may follow a side of a comparison: a blank, a comma or a parenthesis. -/
def Piece.Stops (rest : List Char) : Prop :=
  ∀ c ∈ rest.head?, c = ' ' ∨ c = ',' ∨ c = ')'

open Piece (Stops)

theorem Piece.Stops.not_digit {rest : List Char} (stops : Stops rest) :
    ∀ c ∈ rest.head?, c.isDigit = false := by
  intro c mem
  rcases stops c mem with rfl | rfl | rfl <;> rfl

theorem Piece.Stops.not_quote {rest : List Char} (stops : Stops rest) :
    ∀ c ∈ rest.head?, c ≠ '"' := by
  intro c mem
  rcases stops c mem with rfl | rfl | rfl <;> decide

/-- Aliases can be compared, with what follows the point behind them. -/
theorem TableAlias.text_inj {a b : TableAlias} {rest more : List Char}
    (h : a.text.toList ++ '.' :: rest = b.text.toList ++ '.' :: more) : a = b ∧ rest = more := by
  have digits : ∀ n : Nat, ∀ c ∈ Nat.toDigits 10 n, c.isDigit = true := fun n c mem =>
    Nat.isDigit_of_mem_toDigits (by decide) (by decide) mem
  rw [TableAlias.toList_text, TableAlias.toList_text, List.cons_append, List.cons_append] at h
  obtain ⟨same, rests⟩ := run_inj (digits a.index) (digits b.index) (by simp [Char.isDigit])
    (by simp [Char.isDigit]) (List.cons.inj h).2
  obtain ⟨i⟩ := a
  obtain ⟨j⟩ := b
  have texts : natText i = natText j := congrArg String.ofList same
  exact ⟨congrArg _ (natText_injective texts), (List.cons.inj rests).2⟩

/-- **Columns can be told from their texts**, as far as these show them. -/
theorem Column.spell_inj {c d : Column} {rest more : List Char} (stops : Stops rest)
    (stops' : Stops more) (h : spell c.pieces ++ rest = spell d.pieces ++ more) :
    c.shown = d.shown ∧ rest = more := by
  unfold Column.pieces at h
  cases ha : c.alias? with
  | none =>
    cases hb : d.alias? with
    | none =>
      simp only [ha, hb, List.nil_append, Piece.spell_cons, Piece.charsOf, Piece.spell_nil,
        List.append_nil] at h
      obtain ⟨names, rests⟩ := Piece.quote_inj stops.not_quote stops'.not_quote h
      exact ⟨by rw [Column.shown, Column.shown, ha, hb, names], rests⟩
    | some b =>
      simp [ha, hb, Piece.charsOf, Piece.quote, TableAlias.pieces, b.toList_text] at h
  | some a =>
    cases hb : d.alias? with
    | none =>
      simp [ha, hb, Piece.charsOf, Piece.quote, TableAlias.pieces, a.toList_text] at h
    | some b =>
      simp only [ha, hb, TableAlias.pieces, List.cons_append, List.nil_append, Piece.spell_cons,
        Piece.charsOf, Piece.spell_nil, List.append_nil, List.append_assoc] at h
      obtain ⟨aliases, h⟩ := TableAlias.text_inj h
      obtain ⟨names, rests⟩ := Piece.quote_inj stops.not_quote stops'.not_quote h
      exact ⟨by rw [Column.shown, Column.shown, ha, hb, names, aliases], rests⟩

/-- The text of a column begins with the letter of an alias or with a quote. -/
theorem Column.spell_cons (c : Column) :
    ∃ first rest, spell c.pieces = first :: rest ∧ (first = 't' ∨ first = '"') := by
  unfold Column.pieces
  cases c.alias? with
  | none => exact ⟨_, _, rfl, .inr rfl⟩
  | some a =>
    refine ⟨'t', Nat.toDigits 10 a.index ++ '.' :: Piece.quote '"' c.name, ?_, .inl rfl⟩
    simp [TableAlias.pieces, Piece.charsOf, a.toList_text]

/-- Parameters can be told from their texts, except for their values. -/
theorem Parameter.name_inj {p q : Parameter} (numbered : p.IsNumbered) (numbered' : q.IsNumbered)
    {rest more : List Char} (stops : Stops rest) (stops' : Stops more)
    (h : p.name.toList ++ rest = q.name.toList ++ more) : p.shown = q.shown ∧ rest = more := by
  obtain ⟨digits, -, isDigit, name⟩ := numbered
  obtain ⟨digits', -, isDigit', name'⟩ := numbered'
  rw [name, name'] at h
  obtain ⟨same, rests⟩ := run_inj isDigit isDigit' stops.not_digit stops'.not_digit
    (List.cons.inj (List.cons.inj h).2).2
  have names : p.name = q.name := String.ext (by rw [name, name', same])
  exact ⟨by rw [Parameter.shown, Parameter.shown, names], rests⟩

/-- May the text of a side begin with a character. -/
def Operand.mayBegin (first : Char) : Operand → Bool
  | .column _ => first = 't' || first = '"'
  | .parameter _ => first = '@'
  | .null => first = 'N'
  | .count _ => false

theorem Operand.spell_cons {a : Operand} (bare : a.IsBare) :
    ∃ first rest, spell a.pieces = first :: rest ∧ a.mayBegin first = true := by
  cases a with
  | column c =>
    obtain ⟨first, rest, text, isFirst⟩ := c.spell_cons
    exact ⟨first, rest, text, by simpa [mayBegin] using isFirst⟩
  | parameter p =>
    obtain ⟨digits, -, -, name⟩ := bare
    exact ⟨'@', 'p' :: digits, by simp [Operand.pieces, Piece.charsOf, name], rfl⟩
  | null => exact ⟨'N', "ULL".toList, by decide, rfl⟩
  | count select => cases bare

/-- **Sides of comparisons can be told from their texts**, as far as these show them. -/
theorem Operand.spell_inj {a b : Operand} (bare : a.IsBare) (bare' : b.IsBare)
    {rest more : List Char} (stops : Stops rest) (stops' : Stops more)
    (h : spell a.pieces ++ rest = spell b.pieces ++ more) : a.shown = b.shown ∧ rest = more := by
  -- Sides of different kinds differ in their first characters.
  obtain ⟨first, tail, text, begins⟩ := spell_cons bare
  obtain ⟨first', tail', text', begins'⟩ := spell_cons bare'
  have same : first = first' := by
    rw [text, text'] at h
    exact (List.cons.inj h).1
  subst same
  cases a with
  | column c =>
    cases b with
    | column d =>
      obtain ⟨columns, rests⟩ := Column.spell_inj stops stops' h
      exact ⟨congrArg Operand.column columns, rests⟩
    | parameter q => simp_all [mayBegin]
    | null => simp_all [mayBegin]
    | count select => cases bare'
  | parameter p =>
    cases b with
    | column d => simp_all [mayBegin]
    | parameter q =>
      rw [Operand.pieces, Operand.pieces] at h
      simp only [Piece.spell_cons, Piece.charsOf, Piece.spell_nil, List.append_nil] at h
      obtain ⟨names, rests⟩ := Parameter.name_inj bare bare' stops stops' h
      exact ⟨congrArg Operand.parameter names, rests⟩
    | null => simp_all [mayBegin]
    | count select => cases bare'
  | null =>
    cases b with
    | column d => simp_all [mayBegin]
    | parameter q => simp_all [mayBegin]
    | null => exact ⟨rfl, List.append_cancel_left h⟩
    | count select => cases bare'
  | count select => cases bare

/-! ### Comparisons, patterns and lists of values -/

namespace Condition

/-- The text of a condition that is neither negated nor combined begins with a side of a comparison
and a word between blanks. -/
def begins (c : Condition) (first : Operand) (word after : List Char) : Prop :=
  spell c.pieces = spell first.pieces ++ ' ' :: word ++ ' ' :: after
    ∧ first.IsBare ∧ first.isNull = false ∧ ∀ letter ∈ word, (letter != ' ') = true

/-- Two such conditions begin with the same side and the same word. -/
theorem begins_inj {c d : Condition} {first first' : Operand} {word word' after after' : List Char}
    (begins : c.begins first word after) (begins' : d.begins first' word' after')
    {rest more : List Char} (h : spell c.pieces ++ rest = spell d.pieces ++ more) :
    first.shown = first'.shown ∧ word = word' ∧ after ++ rest = after' ++ more := by
  obtain ⟨text, bare, -, noBlank⟩ := begins
  obtain ⟨text', bare', -, noBlank'⟩ := begins'
  rw [text, text'] at h
  simp only [List.append_assoc, List.cons_append] at h
  obtain ⟨firsts, h⟩ := Operand.spell_inj bare bare' (by simp [Stops]) (by simp [Stops]) h
  obtain ⟨words, h⟩ := run_inj noBlank noBlank' (by simp) (by simp) (List.cons.inj h).2
  exact ⟨firsts, words, (List.cons.inj h).2⟩

/-- The word between the sides of a comparison. -/
def wordOf (op : ComparisonOp) (second : Operand) : List Char :=
  if second.isNull then "IS".toList else op.sign.toList

theorem wordOf_inj {op op' : ComparisonOp} {second second' : Operand}
    (null : second.isNull = true → op = .equal) (null' : second'.isNull = true → op' = .equal)
    (h : wordOf op second = wordOf op' second') : op = op' := by
  have signs : ∀ op op' : ComparisonOp, op.sign.toList = op'.sign.toList → op = op' := by
    intro op op'
    cases op <;> cases op' <;> decide
  have sign : ∀ op : ComparisonOp, op.sign.toList ≠ "IS".toList := by
    intro op
    cases op <;> decide
  unfold wordOf at h
  split at h <;> split at h
  · rw [null ‹_›, null' ‹_›]
  · exact absurd h.symm (sign op')
  · exact absurd h (sign op)
  · exact signs op op' h

/-- **A comparison has a null at most on the right**, and then asks for equality, once its sides
stand as in the text. -/
theorem comparison_begins {left right : Operand} {op : ComparisonOp}
    (legible : (comparison left op right).Legible) :
    ∃ first second : Operand, (comparison left op right).begins first (wordOf op second)
        (spell second.pieces)
      ∧ second.IsBare ∧ (second.isNull = true → op = .equal)
      ∧ (comparison left op right).shown = comparison first.shown op second.shown := by
  obtain ⟨bare, bare', notBoth, equal⟩ := legible
  have noBlank : ∀ second, ∀ letter ∈ wordOf op second, (letter != ' ') = true := by
    intro second
    rw [← List.all_eq_true]
    unfold wordOf
    split
    · decide
    · cases op <;> decide
  cases nullLeft : left.isNull with
  | true =>
    have notRight : right.isNull = false := by simpa [nullLeft] using notBoth
    have isEqual : op = .equal := equal (by simp [nullLeft])
    subst isEqual
    refine ⟨right, left, ⟨?_, bare', notRight, noBlank left⟩, bare, fun _ => rfl, ?_⟩
    · simp [Condition.pieces, nullLeft, notRight, wordOf, Piece.charsOf, ComparisonOp.text]
    · simp [Condition.shown, nullLeft, notRight]
  | false =>
    refine ⟨left, right, ⟨?_, bare, nullLeft, noBlank right⟩, bare',
      fun isNull => equal (by simp [isNull]), ?_⟩
    · cases nullRight : right.isNull with
      | true =>
        have isEqual : op = .equal := equal (by simp [nullRight])
        subst isEqual
        simp [Condition.pieces, nullLeft, nullRight, wordOf, Piece.charsOf, ComparisonOp.text]
      | false =>
        simp [Condition.pieces, nullLeft, nullRight, wordOf, Piece.charsOf, ComparisonOp.text]
    · simp [Condition.shown, nullLeft]

theorem like_begins (c : Column) (text : String) (kind : MatchKind) :
    (like c text kind).begins (.column c) "LIKE".toList (Piece.quote '\x27' (kind.pattern text)) :=
  ⟨by simp [Condition.pieces, Operand.pieces, Piece.charsOf], trivial, rfl,
    List.all_eq_true.mp (by decide)⟩

theorem isIn_begins (c : Column) (values : List Parameter) :
    (isIn c values).begins (.column c) "IN".toList
      ('(' :: spell (joinPieces ", " (values.map (fun p => [.param p]))) ++ [')']) :=
  ⟨by simp [Condition.pieces, Operand.pieces, Piece.charsOf], trivial, rfl,
    List.all_eq_true.mp (by decide)⟩

end Condition

namespace MatchKind

theorem Finds.contained {kind : MatchKind} {text subject : String} (found : kind.Finds text subject) :
    text.toList <:+: subject.toList := by
  cases kind with
  | contains => exact found
  | startsWith => exact List.IsPrefix.isInfix found
  | endsWith => exact List.IsSuffix.isInfix found

theorem finds_self (kind : MatchKind) (text : String) : kind.Finds text text := by
  cases kind with
  | contains => exact List.infix_rfl
  | startsWith => exact List.prefix_rfl
  | endsWith => exact List.suffix_rfl

/-- **A text and its place can be told from the pattern**, except for the ends of the empty text. -/
theorem pattern_inj {kind kind' : MatchKind} {text text' : String}
    (h : kind.pattern text = kind'.pattern text') :
    text = text' ∧ kind.shownFor text = kind'.shownFor text' := by
  -- Each of the texts is found by the pattern, so each occurs in the other.
  have inside : text'.toList <:+: text.toList :=
    ((accepts_pattern kind' text' text).mp
      (h ▸ (accepts_pattern kind text text).mpr (kind.finds_self text))).contained
  have inside' : text.toList <:+: text'.toList :=
    ((accepts_pattern kind text text').mp
      (h ▸ (accepts_pattern kind' text' text').mpr (kind'.finds_self text'))).contained
  have texts : text = text' := String.ext (inside'.eq_of_length_le inside.length_le)
  subst texts
  refine ⟨rfl, ?_⟩
  have parts := parts?_pattern kind text
  rw [h, parts?_pattern kind' text, Option.some.injEq] at parts
  -- Only the pattern with two wildcards is longer, and only an empty text leaves one alone.
  have count := congrArg List.length parts
  have alone : text.toList.map Like.Part.char ++ [.anyText]
      = .anyText :: (text.toList.map Like.Part.char ++ []) → text = "" := by
    intro same
    cases letters : text.toList with
    | nil => exact String.toList_eq_nil_iff.mp letters
    | cons c rest =>
      rw [letters] at same
      cases same
  cases kind with
  | contains => cases kind' <;> simp at count ⊢
  | startsWith =>
    cases kind' with
    | contains => simp at count
    | startsWith => rfl
    | endsWith => rw [alone parts.symm]; rfl
  | endsWith =>
    cases kind' with
    | contains => simp at count
    | startsWith => rw [alone parts]; rfl
    | endsWith => rfl

end MatchKind

/-- Further parameters of a list can be told from their texts. -/
theorem Parameter.further_inj {ps qs : List Parameter} (numbered : ∀ p ∈ ps, p.IsNumbered)
    (numbered' : ∀ q ∈ qs, q.IsNumbered) {rest more : List Char}
    (h : ps.flatMap (fun p => ',' :: ' ' :: p.name.toList) ++ ')' :: rest
      = qs.flatMap (fun q => ',' :: ' ' :: q.name.toList) ++ ')' :: more) :
    ps.map shown = qs.map shown ∧ rest = more := by
  have stops : ∀ (others : List Parameter) (tail : List Char),
      Stops (others.flatMap (fun p => ',' :: ' ' :: p.name.toList) ++ ')' :: tail) := by
    intro others tail
    cases others with
    | nil => simp [Stops]
    | cons p others => simp [Stops]
  induction ps generalizing qs with
  | nil =>
    cases qs with
    | nil => exact ⟨rfl, (List.cons.inj h).2⟩
    | cons q qs => simp at h
  | cons p ps ih =>
    cases qs with
    | nil => simp at h
    | cons q qs =>
      simp only [List.flatMap_cons, List.cons_append, List.append_assoc, List.cons.injEq,
        true_and] at h
      obtain ⟨here, later⟩ := Parameter.name_inj (numbered p (.head _)) (numbered' q (.head _))
        (stops ps rest) (stops qs more) h
      obtain ⟨others, rests⟩ := ih (fun p mem => numbered p (.tail _ mem))
        (fun q mem => numbered' q (.tail _ mem)) later
      exact ⟨by rw [List.map_cons, List.map_cons, here, others], rests⟩

/-- The first parameter of a list, and the others behind commas. -/
theorem Parameter.spell_values (p : Parameter) (ps : List Parameter) :
    spell (joinPieces ", " ((p :: ps).map (fun p => [.param p])))
      = p.name.toList ++ ps.flatMap (fun p => ',' :: ' ' :: p.name.toList) := by
  rw [List.map_cons, joinPieces_cons, Piece.spell_append]
  congr 1
  · simp [Piece.charsOf]
  · induction ps with
    | nil => rfl
    | cons q ps ih =>
      rw [List.map_cons, List.flatMap_cons, Piece.spell_append, ih, List.flatMap_cons]
      simp [Piece.charsOf]

/-- **Lists of parameters can be told from their texts**, if a parenthesis closes them. -/
theorem Parameter.values_inj {ps qs : List Parameter} (numbered : ∀ p ∈ ps, p.IsNumbered)
    (numbered' : ∀ q ∈ qs, q.IsNumbered) {rest more : List Char}
    (h : spell (joinPieces ", " (ps.map (fun p => [.param p]))) ++ ')' :: rest
      = spell (joinPieces ", " (qs.map (fun q => [.param q]))) ++ ')' :: more) :
    ps.map shown = qs.map shown ∧ rest = more := by
  have sign : ∀ {p : Parameter}, p.IsNumbered → ∃ name, p.name.toList = '@' :: name :=
    fun ⟨_, _, _, name⟩ => ⟨_, name⟩
  cases ps with
  | nil =>
    cases qs with
    | nil => exact ⟨rfl, (List.cons.inj h).2⟩
    | cons q qs =>
      obtain ⟨name, hname⟩ := sign (numbered' q (.head _))
      rw [Parameter.spell_values, hname] at h
      cases h
  | cons p ps =>
    cases qs with
    | nil =>
      obtain ⟨name, hname⟩ := sign (numbered p (.head _))
      rw [Parameter.spell_values, hname] at h
      cases h
    | cons q qs =>
      rw [Parameter.spell_values, Parameter.spell_values] at h
      exact Parameter.further_inj numbered numbered' (by simpa using h)

/-! ### Conditions -/

namespace Condition

/-- What may follow a condition: nothing, or the parenthesis that closes it. -/
def Closes (rest : List Char) : Prop :=
  ∀ c ∈ rest.head?, c = ')'

theorem Closes.stops {rest : List Char} (closes : Closes rest) : Stops rest :=
  fun c mem => .inr (.inr (closes c mem))

/-- A condition is a negation, a combination or neither. -/
inductive Form where
  | negation
  | combination
  | plain
deriving DecidableEq

/-- The form of a condition. -/
def form : Condition → Form
  | not _ => .negation
  | logical _ _ => .combination
  | _ => .plain

/-- The form of the conditions whose texts begin with a character. -/
def Form.ofFirst (first : Char) : Form :=
  if first = 'N' then .negation else if first = '(' then .combination else .plain

/-- A plain condition begins with a side of a comparison. -/
theorem exists_begins {c : Condition} (legible : c.Legible) (plain : c.form = .plain) :
    ∃ first word after, c.begins first word after := by
  cases c with
  | comparison left op right =>
    obtain ⟨first, second, begins, -⟩ := comparison_begins legible
    exact ⟨first, _, _, begins⟩
  | logical op terms => cases plain
  | not term => cases plain
  | like column text kind => exact ⟨_, _, _, like_begins column text kind⟩
  | isIn column values => exact ⟨_, _, _, isIn_begins column values⟩
  | nonempty select => cases legible

theorem ofFirst_of_mayBegin {a : Operand} {first : Char} (begins : a.mayBegin first = true)
    (notNull : a.isNull = false) : Form.ofFirst first = .plain := by
  cases a with
  | column c =>
    rcases Bool.or_eq_true_iff.mp begins with is | is
    · rw [of_decide_eq_true is]; rfl
    · rw [of_decide_eq_true is]; rfl
  | parameter p => rw [of_decide_eq_true begins]; rfl
  | null => cases notNull
  | count select => cases begins

/-- The text of further terms: each stands in parentheses behind the word. -/
def furtherText (op : LogicalOp) (terms : List Condition) : List Char :=
  spell ((termPieces terms).flatMap (fun term => .verbatim (" " ++ op.word ++ " ") :: term))

theorem furtherText_cons (op : LogicalOp) (term : Condition) (rest : List Condition) :
    furtherText op (term :: rest) = ' ' :: op.word.toList ++ ' ' :: '(' :: spell term.pieces
      ++ ')' :: furtherText op rest := by
  simp [furtherText, termPieces, Piece.charsOf]

/-- The text of combined terms: the first in parentheses, and the further ones. -/
theorem spell_logical (op : LogicalOp) (term : Condition) (rest : List Condition) :
    spell (logical op (term :: rest)).pieces
      = '(' :: spell term.pieces ++ ')' :: furtherText op rest := by
  rw [Condition.pieces, termPieces, joinPieces_cons]
  simp [furtherText, Piece.charsOf]

theorem spell_not (term : Condition) :
    spell (not term).pieces = "NOT (".toList ++ spell term.pieces ++ [')'] := by
  simp [Condition.pieces, Piece.charsOf]

/-- **The first character of a condition tells its form.** -/
theorem spell_cons {c : Condition} (legible : c.Legible) :
    ∃ first rest, spell c.pieces = first :: rest ∧ Form.ofFirst first = c.form := by
  cases hform : c.form with
  | plain =>
    obtain ⟨side, word, after, text, bare, notNull, -⟩ := exists_begins legible hform
    obtain ⟨first, rest, side, begins⟩ := Operand.spell_cons bare
    rw [side] at text
    exact ⟨first, _, text, ofFirst_of_mayBegin begins notNull⟩
  | negation =>
    cases c with
    | not term => exact ⟨'N', _, spell_not term, rfl⟩
    | _ => cases hform
  | combination =>
    cases c with
    | logical op terms =>
      cases terms with
      | nil => exact absurd legible.1 (by decide)
      | cons term rest => exact ⟨'(', _, spell_logical op term rest, rfl⟩
    | _ => cases hform

theorem wordOf_ne (op : ComparisonOp) (second : Operand) :
    wordOf op second ≠ "LIKE".toList ∧ wordOf op second ≠ "IN".toList := by
  unfold wordOf
  split
  · decide
  · cases op <;> decide

/-- **Plain conditions can be told from their texts**: the word behind the first side tells a
comparison, a pattern and a list of values apart. -/
theorem plain_inj {c d : Condition} (legible : c.Legible) (legible' : d.Legible)
    (plain : c.form = .plain) (plain' : d.form = .plain) {rest more : List Char}
    (closes : Closes rest) (closes' : Closes more)
    (h : spell c.pieces ++ rest = spell d.pieces ++ more) : c.shown = d.shown ∧ rest = more := by
  cases c with
  | comparison left op right =>
    obtain ⟨first, second, begins, bare, null, shown⟩ := comparison_begins legible
    cases d with
    | comparison left' op' right' =>
      obtain ⟨first', second', begins', bare', null', shown'⟩ := comparison_begins legible'
      obtain ⟨firsts, words, h⟩ := begins_inj begins begins' h
      obtain ⟨seconds, rests⟩ := Operand.spell_inj bare bare' closes.stops closes'.stops h
      exact ⟨by rw [shown, shown', firsts, wordOf_inj null null' words, seconds], rests⟩
    | like column text kind =>
      exact absurd (begins_inj begins (like_begins column text kind) h).2.1 (wordOf_ne op second).1
    | isIn column values =>
      exact absurd (begins_inj begins (isIn_begins column values) h).2.1 (wordOf_ne op second).2
    | logical op terms => cases plain'
    | not term => cases plain'
    | nonempty select => cases legible'
  | like column text kind =>
    have begins := like_begins column text kind
    cases d with
    | comparison left' op' right' =>
      obtain ⟨first', second', begins', -⟩ := comparison_begins legible'
      exact absurd (begins_inj begins begins' h).2.1.symm (wordOf_ne op' second').1
    | like column' text' kind' =>
      obtain ⟨columns, -, h⟩ := begins_inj begins (like_begins column' text' kind') h
      have noQuote : ∀ {rest}, Closes rest → ∀ c ∈ rest.head?, c ≠ '\x27' :=
        fun closes c mem => by rw [closes c mem]; decide
      obtain ⟨patterns, rests⟩ := Piece.quote_inj (noQuote closes) (noQuote closes') h
      obtain ⟨texts, kinds⟩ := MatchKind.pattern_inj patterns
      exact ⟨by rw [shown, shown, Operand.column.inj columns, texts, ← kinds, texts], rests⟩
    | isIn column' values =>
      exact absurd (begins_inj begins (isIn_begins column' values) h).2.1 (by decide)
    | logical op terms => cases plain'
    | not term => cases plain'
    | nonempty select => cases legible'
  | isIn column values =>
    have begins := isIn_begins column values
    cases d with
    | comparison left' op' right' =>
      obtain ⟨first', second', begins', -⟩ := comparison_begins legible'
      exact absurd (begins_inj begins begins' h).2.1.symm (wordOf_ne op' second').2
    | like column' text' kind' =>
      exact absurd (begins_inj begins (like_begins column' text' kind') h).2.1 (by decide)
    | isIn column' values' =>
      obtain ⟨columns, -, h⟩ := begins_inj begins (isIn_begins column' values') h
      simp only [List.cons_append, List.append_assoc, List.cons.injEq, true_and] at h
      obtain ⟨same, rests⟩ := Parameter.values_inj legible legible' h
      exact ⟨by rw [shown, shown, Operand.column.inj columns, same], rests⟩
    | logical op terms => cases plain'
    | not term => cases plain'
    | nonempty select => cases legible'
  | logical op terms => cases plain
  | not term => cases plain
  | nonempty select => cases legible

/-- Conditions with the same text have the same form. -/
theorem form_eq {c d : Condition} (legible : c.Legible) (legible' : d.Legible)
    {rest more : List Char} (h : spell c.pieces ++ rest = spell d.pieces ++ more) :
    c.form = d.form := by
  obtain ⟨first, tail, text, form⟩ := spell_cons legible
  obtain ⟨first', tail', text', form'⟩ := spell_cons legible'
  rw [text, text'] at h
  rw [← form, ← form', (List.cons.inj h).1]

theorem closes_cons (rest : List Char) : Closes (')' :: rest) := by
  simp [Closes]

/-- The word behind the first term tells how terms are combined. -/
theorem op_eq {op op' : LogicalOp} {term term' : Condition} {terms terms' : List Condition}
    {rest more : List Char}
    (h : furtherText op (term :: terms) ++ rest = furtherText op' (term' :: terms') ++ more) :
    op = op' := by
  rw [furtherText_cons, furtherText_cons] at h
  cases op <;> cases op' <;> first | rfl | cases h

/-- No further term begins where a condition ends. -/
theorem furtherText_ne {op op' : LogicalOp} {term : Condition} {terms : List Condition}
    {rest more : List Char} (closes : Closes rest) :
    furtherText op [] ++ rest ≠ furtherText op' (term :: terms) ++ more := by
  intro h
  have none : furtherText op [] = [] := rfl
  rw [none, List.nil_append, furtherText_cons] at h
  rw [h] at closes
  exact absurd (closes ' ' rfl) (by decide)

theorem exists_two {terms : List Condition} (two : 2 ≤ terms.length) :
    ∃ first second rest, terms = first :: second :: rest := by
  match terms, two with
  | first :: second :: rest, _ => exact ⟨first, second, rest, rfl⟩

mutual

/-- **Conditions can be told from their texts**, as far as these show them, if nothing follows or a
parenthesis closes them. -/
theorem spell_inj : ∀ (c : Condition) {d : Condition}, c.Legible → d.Legible →
    ∀ {rest more : List Char}, Closes rest → Closes more →
      spell c.pieces ++ rest = spell d.pieces ++ more → c.shown = d.shown ∧ rest = more
  | not term, d, legible, legible', rest, more, _, _, h => by
    have form := form_eq legible legible' h
    cases d with
    | not term' =>
      rw [spell_not, spell_not, List.append_assoc, List.append_assoc, List.append_assoc,
        List.append_assoc] at h
      obtain ⟨terms, rests⟩ := spell_inj term (d := term') legible legible' (closes_cons _)
        (closes_cons _) (List.append_cancel_left h)
      exact ⟨by rw [shown, shown, terms], (List.cons.inj rests).2⟩
    | _ => cases form
  | logical op terms, d, legible, legible', rest, more, closes, closes', h => by
    have form := form_eq legible legible' h
    cases d with
    | logical op' terms' =>
      obtain ⟨first, second, others, rfl⟩ := exists_two legible.1
      obtain ⟨first', second', others', rfl⟩ := exists_two legible'.1
      rw [spell_logical, spell_logical] at h
      simp only [List.append_assoc, List.cons_append, List.cons.injEq, true_and] at h
      obtain ⟨firsts, h⟩ := spell_inj first legible.2.1 legible'.2.1 (closes_cons _)
        (closes_cons _) h
      have later := (List.cons.inj h).2
      obtain ⟨seconds, rests⟩ := further_inj (second :: others) legible.2.2 legible'.2.2 closes
        closes' later
      exact ⟨by rw [shown, allShown, firsts, seconds, op_eq later]; rfl, rests⟩
    | _ => cases form
  | comparison left op right, d, legible, legible', rest, more, closes, closes', h =>
    plain_inj legible legible' rfl (form_eq legible legible' h).symm closes closes' h
  | like column text kind, d, legible, legible', rest, more, closes, closes', h =>
    plain_inj legible legible' rfl (form_eq legible legible' h).symm closes closes' h
  | isIn column values, d, legible, legible', rest, more, closes, closes', h =>
    plain_inj legible legible' rfl (form_eq legible legible' h).symm closes closes' h

/-- So can further terms, with the word between them. -/
theorem further_inj : ∀ (terms : List Condition) {terms' : List Condition}, AllLegible terms →
    AllLegible terms' → ∀ {op op' : LogicalOp} {rest more : List Char}, Closes rest → Closes more →
      furtherText op terms ++ rest = furtherText op' terms' ++ more →
      allShown terms = allShown terms' ∧ rest = more
  | [], [], _, _, _, _, _, _, _, _, h => ⟨rfl, h⟩
  | [], term' :: terms', _, _, _, _, _, _, closes, _, h => absurd h (furtherText_ne closes)
  | term :: terms, [], _, _, _, _, _, _, _, closes', h => absurd h.symm (furtherText_ne closes')
  | term :: terms, term' :: terms', legible, legible', op, op', rest, more, closes, closes', h => by
    have ops := op_eq h
    subst ops
    rw [furtherText_cons, furtherText_cons] at h
    simp only [List.append_assoc, List.cons_append, List.cons.injEq, true_and,
      List.append_cancel_left_eq] at h
    obtain ⟨here, h⟩ := spell_inj term legible.1 legible'.1 (closes_cons _) (closes_cons _) h
    obtain ⟨later, rests⟩ := further_inj terms legible.2 legible'.2 closes closes'
      (List.cons.inj h).2
    exact ⟨by rw [allShown, allShown, here, later], rests⟩

end

end Condition

/-! ### Texts of conditions -/

theorem Operand.isNull_shown (a : Operand) : a.shown.isNull = a.isNull := by
  cases a <;> rfl

theorem Operand.spell_shown (a : Operand) : spell a.shown.pieces = spell a.pieces := by
  cases a <;> rfl

theorem MatchKind.pattern_shownFor (text : String) (kind : MatchKind) :
    (kind.shownFor text).pattern text = kind.pattern text := by
  unfold MatchKind.shownFor
  split
  · rename_i empty
    rw [empty.1, empty.2]
    decide
  · rfl

theorem Parameter.spell_values_shown (values : List Parameter) :
    spell (joinPieces ", " ((values.map shown).map (fun p => [.param p])))
      = spell (joinPieces ", " (values.map (fun p => [.param p]))) := by
  cases values with
  | nil => rfl
  | cons p ps =>
    rw [List.map_cons, Parameter.spell_values, Parameter.spell_values, List.flatMap_map]
    rfl

theorem Operand.inline_pieces {a : Operand} (bare : a.IsBare) :
    a.pieces.all Piece.isInline = true := by
  cases a with
  | column c => exact c.inline_pieces
  | parameter p => rfl
  | null => rfl
  | count select => cases bare

/-- Parts on one line may stand on one line with words between them. -/
theorem inline_joinPieces {separator : String} {parts : List (List Piece)}
    (inline : ∀ part ∈ parts, part.all Piece.isInline = true) :
    (joinPieces separator parts).all Piece.isInline = true := by
  refine joinPieces_closed (P := fun pieces => pieces.all Piece.isInline = true)
    (fun first second => ?_) (fun _ => rfl) inline
  rw [List.all_append, List.all_cons, first, second]
  rfl

namespace Condition

mutual

/-- What is shown of a condition has the same text. -/
theorem spell_shown : ∀ c : Condition, spell c.shown.pieces = spell c.pieces
  | comparison left op right => by
    rw [shown]
    split
    · rename_i swapped
      rw [Bool.and_eq_true, Bool.not_eq_true'] at swapped
      simp [Condition.pieces, Operand.isNull_shown, Operand.spell_shown, swapped]
    · rename_i kept
      simp [Condition.pieces, Operand.isNull_shown, Operand.spell_shown, kept]
  | logical op [] => rfl
  | logical op (term :: terms) => by
    rw [shown, allShown, spell_logical, spell_logical, spell_shown term, furtherText_allShown terms]
  | not term => by rw [shown, spell_not, spell_not, spell_shown term]
  | like column text kind => by
    rw [shown, Condition.pieces, MatchKind.pattern_shownFor, Condition.pieces]
    rfl
  | isIn column values => by
    simp only [shown, Condition.pieces, Piece.spell_append, Piece.spell_cons,
      Parameter.spell_values_shown]
    rfl
  | nonempty select => rfl

theorem furtherText_allShown : ∀ (terms : List Condition) (op : LogicalOp),
    furtherText op (allShown terms) = furtherText op terms
  | [], _ => rfl
  | term :: terms, op => by
    rw [allShown, furtherText_cons, furtherText_cons, spell_shown term, furtherText_allShown terms]

end

mutual

/-- A legible condition stands on one line. -/
theorem inline_pieces : ∀ {c : Condition}, c.Legible → c.pieces.all Piece.isInline = true
  | comparison left op right, ⟨bare, bare', _⟩ => by
    rw [Condition.pieces]
    split
    · rw [List.all_append, List.all_cons, Operand.inline_pieces bare, Operand.inline_pieces bare']
      rfl
    · rw [List.all_append, List.all_cons, Operand.inline_pieces bare, Operand.inline_pieces bare']
      rfl
  | logical op terms, legible => by
    rw [Condition.pieces]
    exact inline_joinPieces (inline_termPieces legible.2)
  | not term, legible => by
    have inside : term.pieces.all Piece.isInline = true := inline_pieces (c := term) legible
    rw [Condition.pieces, List.all_append, List.all_cons, inside]
    rfl
  | like column text kind, _ => by
    rw [Condition.pieces, List.all_append, column.inline_pieces]
    rfl
  | isIn column values, _ => by
    have inside :
        (joinPieces ", " (values.map (fun p => [.param p]))).all Piece.isInline = true := by
      refine inline_joinPieces (fun part mem => ?_)
      obtain ⟨p, -, rfl⟩ := List.mem_map.mp mem
      rfl
    rw [Condition.pieces]
    simp only [List.all_append, List.all_cons, column.inline_pieces, inside]
    rfl

theorem inline_termPieces : ∀ {terms : List Condition}, AllLegible terms →
    ∀ part ∈ termPieces terms, part.all Piece.isInline = true
  | [], _, _, mem => by cases mem
  | term :: terms, ⟨legible, others⟩, part, mem => by
    rw [termPieces] at mem
    cases mem with
    | head =>
      rw [List.all_append, List.all_cons, inline_pieces legible]
      rfl
    | tail _ mem => exact inline_termPieces others part mem

end

/-- The text of a legible condition. -/
theorem text_eq {c : Condition} (legible : c.Legible) :
    (Piece.render c.pieces).text = String.ofList (spell c.pieces) :=
  congrArg String.ofList (Piece.charsFrom_of_inline (inline_pieces legible) 0)

/-- **Two conditions have the same text exactly if they show the same**: the same structure of
negations and combinations, the same names, aliases, signs, texts and parameters. -/
theorem text_eq_iff_shown_eq {c d : Condition} (legible : c.Legible) (legible' : d.Legible) :
    (Piece.render c.pieces).text = (Piece.render d.pieces).text ↔ c.shown = d.shown := by
  rw [text_eq legible, text_eq legible', String.ofList_inj]
  constructor
  · intro same
    have nothing : Closes [] := by simp [Closes]
    exact (spell_inj c legible legible' nothing nothing (by simpa using same)).1
  · intro same
    rw [← spell_shown c, same, spell_shown d]

/-- Terms that are grouped differently have different texts; a null on the other side, another
value and another way to a column do not show. -/
theorem text_tells_grouping :
    (Piece.render (logical .and [logical .or [isNull (.inTable "due" .scalar none),
        equals (.inTable "owner" .foreignKey none) ⟨"@p1", .int 7⟩],
        like (.inTable "ti\"tle" .scalar none) "50%" .contains]).pieces).text
      ≠ (Piece.render (logical .or [isNull (.inTable "due" .scalar none),
        logical .and [equals (.inTable "owner" .foreignKey none) ⟨"@p1", .int 7⟩,
        like (.inTable "ti\"tle" .scalar none) "50%" .contains]]).pieces).text
    ∧ (Piece.render (logical .and [isNull (.inTable "due" .scalar (some ⟨1⟩)),
        equals (.inTable "owner" .foreignKey none) ⟨"@p1", .int 7⟩]).pieces).text
      = (Piece.render (logical .and [comparison .null .equal
          (.column (.inSelect (.inTable "end" .scalar (some ⟨2⟩)) (some "due") (some ⟨1⟩))),
        equals (.inTable "owner" .scalar none) ⟨"@p1", .null⟩]).pieces).text := by
  have numbered : ∀ value, Parameter.IsNumbered ⟨"@p1", value⟩ := fun _ =>
    ⟨['1'], by decide, List.all_eq_true.mp (by decide), by simp⟩
  have due : ∀ column, (isNull column).Legible := fun _ => ⟨trivial, trivial, rfl, fun _ => rfl⟩
  have owner : ∀ column value, (equals column ⟨"@p1", value⟩).Legible := fun _ _ =>
    ⟨trivial, numbered _, rfl, nofun⟩
  constructor
  · refine mt (Iff.mp (text_eq_iff_shown_eq ?_ ?_)) nofun
    · exact ⟨by decide, ⟨by decide, due _, owner _ _, trivial⟩, trivial, trivial⟩
    · exact ⟨by decide, due _, ⟨by decide, owner _ _, trivial, trivial⟩, trivial⟩
  · refine Iff.mpr (text_eq_iff_shown_eq ?_ ?_) rfl
    · exact ⟨by decide, due _, owner _ _, trivial⟩
    · exact ⟨by decide, ⟨trivial, trivial, rfl, fun _ => rfl⟩, owner _ _, trivial⟩

end Condition

end ResourceQuery.Sql
