import Mathlib.Data.List.Forall2
import ResourceQuery.Proofs.Json.Spelling

/-!
# The words of written values

Both written forms of a value consist of the same words, and the scanner finds them.  What follows a
number or a name must not go on with it, which is so for separators, brackets and blanks.

## Main Definitions

- `Json.Scans`: the scanner finds some words at the start of a text.
- `Json.tokens`: the words of a value.

## Main Statements

- `Json.scans_quote`: strings are read back.
- `Json.scans_compactChars`, `Json.scans_prettyChars`: the words of the two written forms.
-/

namespace ResourceQuery.Json

open Token

/-! ### Scanning word by word -/

/-- A text that ends the word before it. -/
def Delimits (rest : List Char) : Prop :=
  ∀ c ∈ rest.head?, isNumberChar c = false ∧ c.isAlpha = false

/-- **The scanner finds words at the start of a text**, whatever follows that ends the last of
them. -/
def Scans (text : List Char) (words : List Token) : Prop :=
  ∀ rest, Delimits rest → scan? (text ++ rest) = (words ++ ·) <$> scan? rest

theorem delimits_nil : Delimits [] := by
  simp [Delimits]

theorem delimits_of_isBlank {c : Char} (blank : isBlank c = true) (rest : List Char) :
    Delimits (c :: rest) := by
  rintro _ ⟨⟩
  simp only [isBlank, Bool.or_eq_true, decide_eq_true_eq] at blank
  rcases blank with ((rfl | rfl) | rfl) | rfl <;> decide

theorem delimits_of_ofChar? {c : Char} {token : Token} (found : ofChar? c = some token)
    (rest : List Char) : Delimits (c :: rest) := by
  rintro _ ⟨⟩
  unfold ofChar? at found
  split at found <;> first | decide | cases found

theorem Delimits.append {text rest : List Char} (first : Delimits text) (later : Delimits rest) :
    Delimits (text ++ rest) := by
  cases text with
  | nil => exact later
  | cons c text => exact first

theorem scan?_blank {c : Char} (blank : isBlank c = true) (rest : List Char) :
    scan? (c :: rest) = scan? rest := by
  rw [scan?]
  simp [blank]

theorem scan?_ofChar {c : Char} {token : Token} (found : ofChar? c = some token)
    (rest : List Char) : scan? (c :: rest) = (token :: ·) <$> scan? rest := by
  have notBlank : isBlank c = false := by
    unfold ofChar? at found
    split at found <;> first | decide | cases found
  rw [scan?]
  simp [notBlank, found]

theorem scan?_string {text after : List Char} {parts : List Part}
    (read : parts? text = some (parts, after)) :
    scan? ('"' :: text) = (Token.ofParts parts :: ·) <$> scan? after := by
  have notBlank : isBlank '"' = false := by decide
  have noChar : ofChar? '"' = none := by decide
  rw [scan?]
  simp only [notBlank, noChar, Bool.false_eq_true, if_false, if_true]
  split
  · rename_i none
    rw [read] at none
    cases none
  · rename_i same
    rw [read] at same
    cases same
    cases scan? after <;> rfl

/-- A character that a number or a name goes on with is nothing else. -/
theorem plain_of_not_delimits {c : Char} (goesOn : isNumberChar c = true ∨ c.isAlpha = true) :
    isBlank c = false ∧ ofChar? c = none ∧ c ≠ '"' := by
  have ends {c : Char} (delimits : Delimits [c]) :
      ¬ (isNumberChar c = true ∨ c.isAlpha = true) := by
    simp [delimits c rfl]
  refine ⟨?_, ?_, ?_⟩
  · cases blank : isBlank c with
    | true => exact absurd goesOn (ends (delimits_of_isBlank blank []))
    | false => rfl
  · cases found : ofChar? c with
    | some token => exact absurd goesOn (ends (delimits_of_ofChar? found []))
    | none => rfl
  · rintro rfl
    exact absurd goesOn (by decide)

theorem scan?_name {c : Char} {run rest : List Char} {value : Json} (letter : c.isAlpha = true)
    (letters : ∀ d ∈ run, d.isAlpha = true) (named : ofName? (c :: run) = some value)
    (delimits : Delimits rest) :
    scan? (c :: run ++ rest) = (scalar value :: ·) <$> scan? rest := by
  obtain ⟨taken, dropped⟩ :=
    takeWhile_append_of_stop letters (fun d mem => (delimits d mem).2)
  obtain ⟨notBlank, noChar, notQuote⟩ := plain_of_not_delimits (.inr letter)
  rw [List.cons_append, scan?]
  simp only [notBlank, noChar, notQuote, letter, taken, dropped, named, Bool.false_eq_true,
    if_false, if_true]
  cases scan? rest <;> rfl

/-- A digit is no letter. -/
theorem isAlpha_of_isDigit {c : Char} (digit : c.isDigit = true) : c.isAlpha = false := by
  simp only [Char.isDigit, Bool.and_eq_true, decide_eq_true_eq, ge_iff_le,
    UInt32.le_iff_toNat_le] at digit
  have ranges : c.isAlpha = (decide ('A'.val ≤ c.val ∧ c.val ≤ 'Z'.val)
      || (decide ('a'.val ≤ c.val) && decide (c.val ≤ 'z'.val))) := rfl
  simp only [ranges, Bool.or_eq_false_iff, Bool.and_eq_false_iff, decide_eq_false_iff_not,
    UInt32.le_iff_toNat_le]
  have nine : '9'.val.toNat = 57 := rfl
  have upper : 'A'.val.toNat = 65 := rfl
  have lower : 'a'.val.toNat = 97 := rfl
  omega

theorem scan?_number (s : Spelling) {rest : List Char} (delimits : Delimits rest) :
    scan? (s.chars ++ rest) = (ofNumeral s.numeral :: ·) <$> scan? rest := by
  have spelled := s.spelledNumeral?_chars
  have characters := s.isNumberChar_of_mem
  obtain ⟨c, run, chars, start⟩ := s.chars_eq_cons
  rw [chars] at spelled characters ⊢
  obtain ⟨taken, dropped⟩ := takeWhile_append_of_stop
    (fun d mem => characters d (List.mem_cons_of_mem _ mem)) (fun d mem => (delimits d mem).1)
  obtain ⟨notBlank, noChar, notQuote⟩ :=
    plain_of_not_delimits (.inl (characters c List.mem_cons_self))
  have noLetter : c.isAlpha = false := by
    rcases start with digit | rfl
    · exact isAlpha_of_isDigit digit
    · decide
  rw [List.cons_append, scan?]
  simp only [notBlank, noChar, notQuote, noLetter, taken, dropped, spelled, Bool.false_eq_true,
    if_false]
  cases scan? rest <;> rfl

/-! ### Strings -/

theorem hexValue?_hexDigit : ∀ n < 16, hexValue? (hexDigit n) = some n := by
  decide

theorem parts?_short {letter c : Char} (escape : shortEscape? letter = some c) (rest : List Char) :
    parts? ('\\' :: letter :: rest)
      = (parts? rest).map (fun read => (.char c :: read.1, read.2)) := by
  have other : letter ≠ 'u' := by
    rintro rfl
    simp [shortEscape?] at escape
  rw [parts?, escape]
  · cases parts? rest <;> rfl
  · exact fun _ _ _ _ _ same => absurd same other

theorem parts?_unit {n : Nat} (small : n < 256) (rest : List Char) :
    parts? ('\\' :: 'u' :: '0' :: '0' :: hexDigit (n / 16) :: hexDigit (n % 16) :: rest)
      = (parts? rest).map (fun read => (.unit n :: read.1, read.2)) := by
  have zero : hexValue? '0' = some 0 := by decide
  have unit : unit? '0' '0' (hexDigit (n / 16)) (hexDigit (n % 16)) = some n := by
    simp only [unit?, zero, hexValue?_hexDigit (n / 16) (by omega),
      hexValue?_hexDigit (n % 16) (by omega), bind, Option.bind, pure]
    congr 1
    omega
  rw [parts?, unit]
  cases parts? rest <;> rfl

theorem parts?_plain {c : Char} (quote : c ≠ '"') (backslash : c ≠ '\\') (printed : 32 ≤ c.toNat)
    (rest : List Char) :
    parts? (c :: rest) = (parts? rest).map (fun read => (.char c :: read.1, read.2)) := by
  have allowed : ¬ (c = '\\' ∨ c.toNat < 32) := by
    rintro (same | small)
    · exact backslash same
    · omega
  rw [parts?, if_neg allowed]
  · cases parts? rest <;> rfl
  all_goals simp_all

/-- **A written character is read as one part** of a string, which stands for it again. -/
theorem exists_part (c : Char) :
    ∃ part, (∀ rest, parts? (escapeChar c ++ rest)
        = (parts? rest).map (fun read => (part :: read.1, read.2)))
      ∧ ∀ more, chars? (part :: more) = (chars? more).map (c :: ·) := by
  have char (c : Char) (more : List Part) :
      chars? (.char c :: more) = (chars? more).map (c :: ·) := rfl
  have named {n : Nat} {d : Char} (same : c.toNat = n) (spelled : d.toNat = n) : c = d :=
    Char.toNat_inj.mp (same.trans spelled.symm)
  unfold escapeChar
  split
  · rename_i h
    exact ⟨.char c, parts?_short (by rw [h]; rfl), char c⟩
  split
  · rename_i h
    exact ⟨.char c, parts?_short (by rw [h]; rfl), char c⟩
  split
  · rename_i h
    exact ⟨.char c, parts?_short (by rw [h]; rfl), char c⟩
  split
  · rename_i h
    exact ⟨.char c, parts?_short (by rw [h]; rfl), char c⟩
  split
  · rename_i h
    exact ⟨.char c, parts?_short (by rw [h]; rfl), char c⟩
  split
  · rename_i h
    exact ⟨.char c, parts?_short (by rw [named h (d := '\x08') rfl]; rfl), char c⟩
  split
  · rename_i h
    exact ⟨.char c, parts?_short (by rw [named h (d := '\x0c') rfl]; rfl), char c⟩
  split
  · rename_i small
    refine ⟨.unit c.toNat, parts?_unit (by omega), fun more => ?_⟩
    have whole : isLeading c.toNat = false ∧ isTrailing c.toNat = false := by
      simp only [isLeading, isTrailing, Bool.and_eq_false_iff, decide_eq_false_iff_not]
      omega
    rw [chars?.eq_def]
    simp [whole.1, whole.2]
  · rename_i quote backslash _ _ _ _ _ printed
    exact ⟨.char c, parts?_plain quote backslash (by omega), char c⟩

/-- The parts of a written string stand for its characters. -/
theorem parts?_escaped (text rest : List Char) :
    ∃ parts, parts? (text.flatMap escapeChar ++ '"' :: rest) = some (parts, rest)
      ∧ chars? parts = some text := by
  induction text with
  | nil => exact ⟨[], by simp [parts?], rfl⟩
  | cons c text ih =>
    obtain ⟨parts, read, stands⟩ := ih
    obtain ⟨part, first, back⟩ := exists_part c
    refine ⟨part :: parts, ?_, by rw [back, stands]; rfl⟩
    rw [List.flatMap_cons, List.append_assoc, first, read]
    rfl

/-- **Strings are read back.** -/
theorem scans_quote (text : String) : Scans (quote text) [scalar (.string text)] := by
  intro rest _
  obtain ⟨parts, read, stands⟩ := parts?_escaped text.toList rest
  have same : Token.ofParts parts = scalar (.string text) := by
    simp [Token.ofParts, stands]
  rw [quote, List.cons_append, List.cons_append, List.append_assoc, List.singleton_append,
    scan?_string read, same]
  rfl

/-! ### Words of values -/

/-- Words with commas between them. -/
def commas : List (List Token) → List Token
  | [] => []
  | [words] => words
  | words :: rest => words ++ comma :: commas rest

/-- The word that a number is written as. -/
def Number.word (n : Number) : Token :=
  match spelledNumeral? n.text.toList with
  | some numeral => ofNumeral numeral
  | none => hugeNumber

mutual

/-- The words of a value. -/
def tokens : Json → List Token
  | number n => [n.word]
  | array items => openArray :: commas (itemTokens items) ++ [closeArray]
  | object members => openObject :: commas (memberTokens members) ++ [closeObject]
  | j => [scalar j]

/-- The words of each value of a list. -/
def itemTokens : List Json → List (List Token)
  | [] => []
  | j :: rest => tokens j :: itemTokens rest

/-- The words of each member of a list. -/
def memberTokens : List (String × Json) → List (List Token)
  | [] => []
  | (name, j) :: rest => (scalar (.string name) :: colon :: tokens j) :: memberTokens rest

end

theorem scans_number (n : Number) : Scans n.text.toList [n.word] := by
  intro rest delimits
  obtain ⟨s, chars⟩ := n.exists_spelling
  have word : n.word = ofNumeral s.numeral := by
    simp only [Number.word, ← chars, s.spelledNumeral?_chars]
  rw [← chars, scan?_number s delimits, word]
  rfl

/-! ### Words put together -/

namespace Scans

variable {text more blanks : List Char} {words others : List Token}

theorem nil : Scans [] [] := by
  intro rest _
  cases h : scan? rest <;> simp [h]

/-- Words follow each other where the second text ends the first. -/
theorem append (first : Scans text words) (later : Scans more others) (delimits : Delimits more) :
    Scans (text ++ more) (words ++ others) := by
  intro rest ends
  rw [List.append_assoc, first _ (delimits.append ends), later rest ends]
  cases scan? rest <;> simp

/-- A bracket or separator comes before other words. -/
theorem cons {c : Char} {token : Token} (found : ofChar? c = some token)
    (later : Scans text words) : Scans (c :: text) (token :: words) := by
  intro rest ends
  rw [List.cons_append, scan?_ofChar found, later rest ends]
  cases scan? rest <;> simp

/-- Blanks before words mean nothing. -/
theorem blanks_append (blank : ∀ c ∈ blanks, isBlank c = true) (later : Scans text words) :
    Scans (blanks ++ text) words := by
  induction blanks with
  | nil => exact later
  | cons c blanks ih =>
    rw [List.forall_mem_cons] at blank
    intro rest ends
    rw [List.cons_append, List.cons_append, scan?_blank blank.1]
    exact ih blank.2 rest ends

/-- Parts of a list are scanned one by one. -/
theorem separate {parts : List (List Char)} {wordsOf : List (List Token)} (blanks : List Char)
    (blank : ∀ c ∈ blanks, isBlank c = true) (each : List.Forall₂ Scans parts wordsOf) :
    Scans (Json.separate (',' :: blanks) parts) (commas wordsOf) := by
  induction each with
  | nil => exact nil
  | @cons part words parts wordsOf first rest ih =>
    cases rest with
    | nil => exact first
    | cons second rest =>
      have comma : ofChar? ',' = some comma := by decide
      have later := (blanks_append blank ih).cons comma
      have both := first.append later (delimits_of_ofChar? comma _)
      simpa [Json.separate, commas] using both

/-- Words between brackets. -/
theorem enclosed {opening closing : Char} {first last : Token}
    (opens : ofChar? opening = some first) (closes : ofChar? closing = some last)
    (before after : List Char) (blankBefore : ∀ c ∈ before, isBlank c = true)
    (blankAfter : ∀ c ∈ after, isBlank c = true) (inner : Scans text words) :
    Scans (opening :: (before ++ text ++ (after ++ [closing]))) (first :: words ++ [last]) := by
  have ends : Delimits (after ++ [closing]) := by
    cases after with
    | nil => exact delimits_of_ofChar? closes []
    | cons c after => exact delimits_of_isBlank (blankAfter c List.mem_cons_self) _
  have closed : Scans (after ++ [closing]) [last] :=
    blanks_append blankAfter (cons closes nil)
  rw [List.append_assoc]
  exact cons opens (blanks_append blankBefore (inner.append closed ends))

end Scans

/-! ### The two written forms -/

theorem scans_null : Scans ['n', 'u', 'l', 'l'] [scalar .null] := fun _ delimits =>
  scan?_name (by decide) (by simp) (by decide) delimits

theorem scans_bool : (b : Bool) → Scans (compactChars (.bool b)) [scalar (.bool b)]
  | true => fun _ delimits => scan?_name (by decide) (by simp) (by decide) delimits
  | false => fun _ delimits => scan?_name (by decide) (by simp) (by decide) delimits

/-- A name and a value are the words of a member, blanks between them or not. -/
theorem scans_member (name : String) {text : List Char} {words : List Token} (blanks : List Char)
    (blank : ∀ c ∈ blanks, isBlank c = true) (value : Scans text words) :
    Scans (quote name ++ ':' :: (blanks ++ text)) (scalar (.string name) :: colon :: words) := by
  have found : ofChar? ':' = some colon := by decide
  exact (scans_quote name).append ((Scans.blanks_append blank value).cons found)
    (delimits_of_ofChar? found _)

mutual

/-- **The words of the compact form.** -/
theorem scans_compactChars : (j : Json) → Scans j.compactChars j.tokens
  | .null => scans_null
  | .bool b => scans_bool b
  | .number n => scans_number n
  | .string s => scans_quote s
  | .array items => by
    have inner := Scans.separate [] (by simp) (scans_compactItems items)
    simpa [compactChars, tokens] using
      inner.enclosed (by decide : ofChar? '[' = some openArray)
        (by decide : ofChar? ']' = some closeArray) [] [] (by simp) (by simp)
  | .object members => by
    have inner := Scans.separate [] (by simp) (scans_compactMembers members)
    simpa [compactChars, tokens] using
      inner.enclosed (by decide : ofChar? '\x7b' = some openObject)
        (by decide : ofChar? '\x7d' = some closeObject) [] [] (by simp) (by simp)

theorem scans_compactItems : (items : List Json) →
    List.Forall₂ Scans (compactItems items) (itemTokens items)
  | [] => .nil
  | j :: rest => .cons (scans_compactChars j) (scans_compactItems rest)

theorem scans_compactMembers : (members : List (String × Json)) →
    List.Forall₂ Scans (compactMembers members) (memberTokens members)
  | [] => .nil
  | (name, j) :: rest =>
    .cons (scans_member name [] (by simp) (scans_compactChars j))
      (scans_compactMembers rest)

end

theorem isBlank_lineBreak (level : Nat) : ∀ c ∈ lineBreak level, isBlank c = true := by
  intro c mem
  rcases List.mem_cons.mp mem with rfl | mem
  · decide
  · rw [List.eq_of_mem_replicate mem]
    decide

/-- Parts on lines of their own are scanned one by one. -/
theorem scans_enclose {opening closing : Char} {first last : Token}
    (opens : ofChar? opening = some first) (closes : ofChar? closing = some last) (level : Nat)
    {parts : List (List Char)} {wordsOf : List (List Token)}
    (each : List.Forall₂ Scans parts wordsOf) :
    Scans (enclose opening closing level parts) (first :: commas wordsOf ++ [last]) := by
  cases each with
  | nil => exact Scans.cons opens (Scans.cons closes .nil)
  | cons head rest =>
    have inner := Scans.separate (lineBreak (level + 1)) (isBlank_lineBreak _) (.cons head rest)
    simpa [enclose] using inner.enclosed opens closes (lineBreak (level + 1)) (lineBreak level)
      (isBlank_lineBreak _) (isBlank_lineBreak _)

mutual

/-- **The words of the indented form.** -/
theorem scans_prettyChars (level : Nat) : (j : Json) → Scans (j.prettyChars level) j.tokens
  | .null => scans_null
  | .bool b => scans_bool b
  | .number n => scans_number n
  | .string s => scans_quote s
  | .array items =>
    scans_enclose (by decide) (by decide) level (scans_prettyItems (level + 1) items)
  | .object members =>
    scans_enclose (by decide) (by decide) level (scans_prettyMembers (level + 1) members)

theorem scans_prettyItems (level : Nat) : (items : List Json) →
    List.Forall₂ Scans (prettyItems level items) (itemTokens items)
  | [] => .nil
  | j :: rest => .cons (scans_prettyChars level j) (scans_prettyItems level rest)

theorem scans_prettyMembers (level : Nat) : (members : List (String × Json)) →
    List.Forall₂ Scans (prettyMembers level members) (memberTokens members)
  | [] => .nil
  | (name, j) :: rest =>
    .cons (scans_member name [' '] (by simp [isBlank]) (scans_prettyChars level j))
      (scans_prettyMembers level rest)

end

end ResourceQuery.Json
