import Mathlib.Algebra.Group.Nat.Defs
import ResourceQuery.Json.Printer
import ResourceQuery.Json.Reader

/-!
# Numbers as they are written

Every number of a document is written in a form that the scanner takes as a number again.  Integers
are read back as they were.  Whether other numbers are depends on their digits, which are rounded
twice when they are read.

## Main Definitions

- `Json.Spelling`: sign, digits and power of a number in written form.

## Main Statements

- `Json.Spelling.spelledNumeral?_chars`: a number in written form is a numeral.
- `Decimal.shortest_digits_pos`: the shortest decimal of a positive magnitude is positive.
- `Json.Number.exists_spelling`: every number is written in this form.
- `Json.Number.number?_int`: integers are read back.
-/

namespace ResourceQuery

/-! ### Runs of characters -/

/-- A run of characters that the rest of the text does not go on with. -/
theorem takeWhile_append_of_stop {p : Char → Bool} {run rest : List Char}
    (all : ∀ c ∈ run, p c = true) (stop : ∀ c ∈ rest.head?, p c = false) :
    (run ++ rest).takeWhile p = run ∧ (run ++ rest).dropWhile p = rest := by
  rw [List.takeWhile_append_of_pos all, List.dropWhile_append_of_pos all]
  cases rest with
  | nil => simp
  | cons c rest =>
    have no : p c = false := stop c rfl
    simp [no]

namespace Numeral

theorem spanDigits_append {digits rest : List Char} (all : ∀ c ∈ digits, c.isDigit = true)
    (stop : ∀ c ∈ rest.head?, c.isDigit = false) :
    spanDigits (digits ++ rest) = (digits, rest) := by
  obtain ⟨taken, dropped⟩ := takeWhile_append_of_stop all stop
  rw [spanDigits, taken, dropped]

/-- A text that starts with a digit has no sign. -/
theorem spanSign_of_isDigit {c : Char} {rest : List Char} (digit : c.isDigit = true) :
    spanSign (c :: rest) = (false, c :: rest) := by
  unfold spanSign
  split
  · rename_i same
    cases same
    exact absurd digit (by decide)
  · rename_i same
    cases same
    exact absurd digit (by decide)
  · rfl

@[simp] theorem digitsValue_toDigits (n : Nat) : digitsValue (Nat.toDigits 10 n) = n :=
  Nat.ofDigitChars_ten_toDigits

end Numeral

/-! ### Written numbers -/

namespace Json

open Token (plainWhole spelledNumeral? number?)

/-- **A number in written form**: digits without a superfluous zero in front, a fraction unless it
is empty, and possibly a power of ten with its sign. -/
structure Spelling where
  negative : Bool
  whole : List Char
  fraction : List Char
  power? : Option (Bool × List Char)
  digits : ∀ c ∈ whole ++ fraction, c.isDigit = true
  plain : plainWhole whole = true
  powered : ∀ power ∈ power?, power.2 ≠ [] ∧ ∀ c ∈ power.2, c.isDigit = true

namespace Spelling

variable (s : Spelling)

/-- The characters of the fraction. -/
def fractionChars : List Char :=
  if s.fraction = [] then [] else '.' :: s.fraction

/-- The characters of the power of ten. -/
def powerChars : List Char :=
  match s.power? with
  | none => []
  | some (negative, digits) => 'e' :: (if negative then '-' else '+') :: digits

/-- The characters of a number in written form. -/
def chars : List Char :=
  (if s.negative then ['-'] else []) ++ s.whole ++ s.fractionChars ++ s.powerChars

/-- The numeral that a number in written form spells. -/
def numeral : Numeral where
  negative := s.negative
  whole := s.whole
  fraction? := if s.fraction = [] then none else some s.fraction
  exponent? := s.power?.map (fun power =>
    if power.1 then -(Numeral.digitsValue power.2 : Int) else Numeral.digitsValue power.2)

theorem whole_eq_cons : ∃ c rest, s.whole = c :: rest ∧ c.isDigit = true := by
  have plain := s.plain
  cases whole : s.whole with
  | nil => simp [whole, plainWhole] at plain
  | cons c rest => exact ⟨c, rest, rfl, s.digits c (by simp [whole])⟩

theorem spanSign_chars : Numeral.spanSign s.chars
    = (s.negative, s.whole ++ (s.fractionChars ++ s.powerChars)) := by
  obtain ⟨c, rest, whole, digit⟩ := s.whole_eq_cons
  unfold chars
  cases s.negative with
  | true => simp [Numeral.spanSign]
  | false => simp [whole, Numeral.spanSign_of_isDigit digit]

theorem readExponent?_powerChars :
    Numeral.readExponent? s.powerChars = some (s.numeral.exponent?, []) := by
  unfold powerChars numeral
  cases power : s.power? with
  | none => rfl
  | some p =>
    obtain ⟨negative, digits⟩ := p
    obtain ⟨some, all⟩ := s.powered (negative, digits) power
    have span : Numeral.spanDigits digits = (digits, []) := by
      simpa using @Numeral.spanDigits_append digits [] all (by simp)
    cases digits with
    | nil => exact absurd rfl some
    | cons d ds => cases negative <;> simp [Numeral.readExponent?, Numeral.readPower?,
        Numeral.spanSign, span]

theorem head?_powerChars : ∀ c ∈ s.powerChars.head?, c = 'e' := by
  unfold powerChars
  split <;> simp

/-- A number in written form is read as its numeral. -/
theorem read?_chars : Numeral.read? s.chars = some (s.numeral, []) := by
  obtain ⟨c, rest, whole, -⟩ := s.whole_eq_cons
  have wholeDigits : ∀ c ∈ s.whole, c.isDigit = true := fun c mem =>
    s.digits c (List.mem_append_left _ mem)
  have fractionDigits : ∀ c ∈ s.fraction, c.isDigit = true := fun c mem =>
    s.digits c (List.mem_append_right _ mem)
  have stopPower : ∀ c ∈ s.powerChars.head?, c.isDigit = false := by
    intro c mem
    rw [s.head?_powerChars c mem]
    decide
  have stopFraction : ∀ c ∈ (s.fractionChars ++ s.powerChars).head?, c.isDigit = false := by
    unfold fractionChars
    split
    · exact stopPower
    · simp
  have span : Numeral.spanFraction (s.fractionChars ++ s.powerChars)
      = (s.numeral.fraction?, s.powerChars) := by
    unfold fractionChars numeral
    by_cases none : s.fraction = []
    · simp only [none, if_true, List.nil_append]
      unfold Numeral.spanFraction
      split
      · rename_i rest same
        have := s.head?_powerChars '.' (by simp [same])
        exact absurd this (by decide)
      · rfl
    · simp [none, Numeral.spanFraction, Numeral.spanDigits_append fractionDigits stopPower]
  unfold Numeral.read?
  simp only [s.spanSign_chars, Numeral.spanDigits_append wholeDigits stopFraction, span,
    s.readExponent?_powerChars]
  simp [whole, numeral]

/-- **A number in written form is a numeral.** -/
theorem spelledNumeral?_chars : spelledNumeral? s.chars = some s.numeral := by
  have unsigned : s.chars.head? ≠ some '+' := by
    obtain ⟨c, rest, whole, digit⟩ := s.whole_eq_cons
    unfold chars
    cases s.negative with
    | true => simp
    | false =>
      simp only [Bool.false_eq_true, if_false, whole, List.nil_append, List.cons_append,
        List.head?_cons, ne_eq, Option.some.injEq]
      rintro rfl
      exact absurd digit (by decide)
  have fraction : s.numeral.fraction? ≠ some [] := by
    unfold numeral
    by_cases none : s.fraction = [] <;> simp [none]
  have plain : plainWhole s.numeral.whole = true := s.plain
  unfold spelledNumeral?
  rw [s.read?_chars]
  simp [unsigned, fraction, plain]

/-- All characters of a number in written form can occur in a number. -/
theorem isNumberChar_of_mem : ∀ c ∈ s.chars, Token.isNumberChar c = true := by
  intro c mem
  have digit (h : c.isDigit = true) : Token.isNumberChar c = true := by
    simp [Token.isNumberChar, h]
  simp only [chars, List.mem_append] at mem
  rcases mem with ((mem | mem) | mem) | mem
  · split at mem
    · rw [List.mem_singleton.mp mem]
      decide
    · cases mem
  · exact digit (s.digits c (List.mem_append_left _ mem))
  · unfold fractionChars at mem
    split at mem
    · cases mem
    · rcases List.mem_cons.mp mem with rfl | mem
      · decide
      · exact digit (s.digits c (List.mem_append_right _ mem))
  · unfold powerChars at mem
    split at mem
    · cases mem
    · rename_i negative digits power
      rcases List.mem_cons.mp mem with rfl | mem
      · decide
      · rcases List.mem_cons.mp mem with rfl | mem
        · cases negative <;> decide
        · exact digit ((s.powered _ power).2 c mem)

/-- A number in written form starts with a digit or a minus sign. -/
theorem chars_eq_cons : ∃ c rest, s.chars = c :: rest ∧ (c.isDigit = true ∨ c = '-') := by
  obtain ⟨c, rest, whole, digit⟩ := s.whole_eq_cons
  unfold chars
  cases s.negative with
  | true => exact ⟨'-', _, rfl, .inr rfl⟩
  | false => exact ⟨c, rest ++ s.fractionChars ++ s.powerChars, by simp [whole], .inl digit⟩

end Spelling

end Json

/-! ### Digits of natural numbers -/

theorem isDigit_toDigits (n : Nat) : ∀ c ∈ Nat.toDigits 10 n, c.isDigit = true := fun _ mem =>
  Nat.isDigit_of_mem_toDigits (by decide) (by decide) mem

/-- The first digit of a positive number is not zero. -/
theorem toDigits_eq_cons {n : Nat} (pos : 0 < n) :
    ∃ c rest, Nat.toDigits 10 n = c :: rest ∧ c ≠ '0' := by
  induction n using Nat.strongRecOn with
  | ind n ih =>
    rw [Nat.toDigits_eq_if (by decide)]
    split
    · rename_i small
      have nonzero : ∀ d < 10, 0 < d → Nat.digitChar d ≠ '0' := by decide
      exact ⟨_, [], rfl, nonzero n small pos⟩
    · obtain ⟨c, rest, first, nonzero⟩ := ih (n / 10) (by omega) (by omega)
      exact ⟨c, rest ++ [Nat.digitChar (n % 10)], by rw [first]; rfl, nonzero⟩

/-- Digits that do not start with a zero stand before a point. -/
theorem Json.plainWhole_of_ne {c : Char} {rest : List Char} (nonzero : c ≠ '0') :
    Json.Token.plainWhole (c :: rest) = true := by
  unfold Json.Token.plainWhole
  split
  · rename_i same
    cases same
  · rfl
  · rename_i same
    cases same
    simpa using nonzero

theorem Json.plainWhole_toDigits (n : Nat) :
    Json.Token.plainWhole (Nat.toDigits 10 n) = true := by
  rcases Nat.eq_zero_or_pos n with rfl | pos
  · decide
  · obtain ⟨c, rest, digits, nonzero⟩ := toDigits_eq_cons pos
    rw [digits]
    exact Json.plainWhole_of_ne nonzero

/-! ### The shortest decimal is positive -/

namespace Decimal

/-- Powers of ten below powers of two. -/
theorem ten_pow_le_two_pow {k m : Nat} (bound : 10 * k ≤ 3 * m) : 10 ^ k ≤ 2 ^ m := by
  refine (Nat.pow_le_pow_iff_left (n := 3) (by decide)).mp ?_
  calc (10 ^ k) ^ 3 = (10 ^ 3) ^ k := by rw [← Nat.pow_mul, ← Nat.pow_mul, Nat.mul_comm]
    _ ≤ (2 ^ 10) ^ k := Nat.pow_le_pow_left (by decide) k
    _ = 2 ^ (10 * k) := by rw [← Nat.pow_mul]
    _ ≤ 2 ^ (m * 3) := Nat.pow_le_pow_right (by decide) (by omega)
    _ = (2 ^ m) ^ 3 := by rw [Nat.pow_mul]

/-- Powers of two below powers of ten. -/
theorem two_pow_le_ten_pow {k m : Nat} (bound : 10 * m ≤ 33 * k) : 2 ^ m ≤ 10 ^ k := by
  refine (Nat.pow_le_pow_iff_left (n := 10) (by decide)).mp ?_
  calc (2 ^ m) ^ 10 = 2 ^ (m * 10) := by rw [← Nat.pow_mul]
    _ ≤ 2 ^ (33 * k) := Nat.pow_le_pow_right (by decide) (by omega)
    _ = (2 ^ 33) ^ k := by rw [Nat.pow_mul]
    _ ≤ (10 ^ 10) ^ k := Nat.pow_le_pow_left (by decide) k
    _ = (10 ^ k) ^ 10 := by rw [← Nat.pow_mul, ← Nat.pow_mul, Nat.mul_comm]

theorem nearest?_pos {i : Interval} {tie : Tie} {k : Int} {digits : Nat}
    (found : i.nearest? tie k = some digits) : 0 < digits := by
  have pos {candidate : Nat} (held : i.holds k candidate = true) : 0 < candidate := by
    simp only [Interval.holds, Bool.and_eq_true, decide_eq_true_eq] at held
    exact held.1
  unfold Interval.nearest? at found
  grind

/-- A search finds a positive number if the finest grid has a point below the magnitude. -/
theorem search_digits_pos {i : Interval} {tie : Tie} {steps : Nat} {k : Int}
    (finest : i.unit (k - steps) ≤ i.measure (k - steps) i.value) (unit : 0 < i.unit (k - steps)) :
    0 < (search i tie steps k).digits := by
  induction steps generalizing k with
  | zero =>
    simp only [Int.natCast_zero, Int.sub_zero] at finest unit
    exact Nat.div_pos finest unit
  | succ steps ih =>
    rw [search]
    split
    · rename_i found
      exact nearest?_pos found
    · have same : k - ((steps + 1 : Nat) : Int) = k - 1 - (steps : Int) := by omega
      rw [same] at finest unit
      exact ih finest unit

/-- The bounds of a finite magnitude other than zero. -/
theorem bounds_of_finite {x : Binary64} (finite : x.isFinite = true) (nonzero : x.isZero = false) :
    0 < x.significand ∧ x.significand < 2 ^ 53 ∧ -1074 ≤ x.exponent ∧ x.exponent ≤ 971 := by
  have below : x.index.val < 2047 * 4503599627370496 := of_decide_eq_true finite
  have above : x.index.val ≠ 0 := of_decide_eq_false nonzero
  unfold Binary64.significand Binary64.exponent
  simp only [Binary64.binadeSize]
  by_cases subnormal : x.index.val < 4503599627370496
  · simp only [subnormal, if_true]
    omega
  · simp only [subnormal, if_false]
    omega

/-- **The shortest decimal of a positive magnitude is positive.**  The finest grid that is tried is
far below the magnitude. -/
theorem shortest_digits_pos {x : Binary64} (finite : x.isFinite = true)
    (nonzero : x.isZero = false) (tie : Tie) : 0 < (shortest tie x).digits := by
  obtain ⟨pos, small, low, high⟩ := bounds_of_finite finite nonzero
  have logSmall : Nat.log2 x.significand < 53 := (Nat.log2_lt (by omega)).mpr small
  have logBelow : 2 ^ Nat.log2 x.significand ≤ x.significand := Nat.log2_self_le (by omega)
  unfold shortest
  refine search_digits_pos ?_ (Nat.mul_pos (Nat.pow_pos (by decide)) (Nat.pow_pos (by decide)))
  have grid : powerAbove x - (24 : Nat)
      = ((Nat.log2 x.significand : Int) + x.exponent + 1) * 30103 / 100000 - 22 := by
    unfold powerAbove
    omega
  rw [grid]
  generalize hk : ((Nat.log2 x.significand : Int) + x.exponent + 1) * 30103 / 100000 - 22 = k
  show 2 ^ (-(x.exponent - 2)).toNat * 10 ^ k.toNat
    ≤ 4 * x.significand * 2 ^ (x.exponent - 2).toNat * 10 ^ (-k).toNat
  generalize Nat.log2 x.significand = l at *
  -- Both sides are compared with powers of two and of ten alone.
  have powers : 2 ^ (-(x.exponent - 2)).toNat * 10 ^ k.toNat
      ≤ 2 ^ (l + 2 + (x.exponent - 2).toNat) * 10 ^ (-k).toNat := by
    rcases Int.le_total 0 k with nonneg | neg
    · have tens : 10 ^ k.toNat ≤ 2 ^ (l + x.exponent).toNat := ten_pow_le_two_pow (by omega)
      have none : (-k).toNat = 0 := by omega
      rw [none, Nat.pow_zero, Nat.mul_one]
      calc 2 ^ (-(x.exponent - 2)).toNat * 10 ^ k.toNat
          ≤ 2 ^ (-(x.exponent - 2)).toNat * 2 ^ (l + x.exponent).toNat :=
            Nat.mul_le_mul_left _ tens
        _ = 2 ^ ((-(x.exponent - 2)).toNat + (l + x.exponent).toNat) := (Nat.pow_add ..).symm
        _ ≤ 2 ^ (l + 2 + (x.exponent - 2).toNat) := Nat.pow_le_pow_right (by decide) (by omega)
    · have twos : 2 ^ (-(l + x.exponent)).toNat ≤ 10 ^ (-k).toNat := two_pow_le_ten_pow (by omega)
      have none : k.toNat = 0 := by omega
      rw [none, Nat.pow_zero, Nat.mul_one]
      calc 2 ^ (-(x.exponent - 2)).toNat
          ≤ 2 ^ (l + 2 + (x.exponent - 2).toNat + (-(l + x.exponent)).toNat) :=
            Nat.pow_le_pow_right (by decide) (by omega)
        _ = 2 ^ (l + 2 + (x.exponent - 2).toNat) * 2 ^ (-(l + x.exponent)).toNat := Nat.pow_add ..
        _ ≤ _ := Nat.mul_le_mul_left _ twos
  refine Nat.le_trans powers (Nat.mul_le_mul_right _ ?_)
  rw [Nat.pow_add, Nat.pow_add]
  exact Nat.mul_le_mul_right _ (by omega)

end Decimal

/-! ### All numbers -/

namespace Json

open Token (number?)

theorem isDigit_zeros (n : Nat) : ∀ c ∈ Decimal.Layout.zeros n, c.isDigit = true := by
  intro c mem
  rw [List.eq_of_mem_replicate mem]
  decide

/-- Digits around a point are a number in written form. -/
theorem exists_spelling_positionally {c : Char} {rest : List Char} (exponent : Int)
    (digits : ∀ d ∈ c :: rest, d.isDigit = true) (nonzero : c ≠ '0') :
    ∃ s : Spelling, s.negative = false
      ∧ s.chars = floatLayout.positionally (c :: rest) exponent := by
  unfold Decimal.Layout.positionally
  split
  · refine ⟨⟨false, c :: (rest ++ Decimal.Layout.zeros exponent.toNat), ['0'], none, ?_,
      plainWhole_of_ne nonzero, by simp⟩, rfl, ?_⟩
    · intro d mem
      rw [← List.cons_append, List.mem_append, List.mem_append] at mem
      rcases mem with (mem | mem) | mem
      · exact digits d mem
      · exact isDigit_zeros _ d mem
      · rw [List.mem_singleton.mp mem]
        decide
    · simp [Spelling.chars, Spelling.fractionChars, Spelling.powerChars, floatLayout]
  · rename_i negative
    dsimp only
    generalize hp : (-exponent).toNat = places
    split
    · rename_i fits
      obtain ⟨count, hcount⟩ : ∃ count, (c :: rest).length - places = count + 1 :=
        ⟨(c :: rest).length - places - 1, by omega⟩
      have some : (c :: rest).drop (count + 1) ≠ [] := by
        rw [ne_eq, List.drop_eq_nil_iff, ← hcount]
        omega
      refine ⟨⟨false, (c :: rest).take (count + 1), (c :: rest).drop (count + 1), none, ?_, ?_,
        by simp⟩, rfl, ?_⟩
      · rw [List.take_append_drop]
        exact digits
      · exact plainWhole_of_ne nonzero
      · rw [hcount]
        simp only [Spelling.chars, Spelling.fractionChars, Spelling.powerChars, some]
        simp
    · refine ⟨⟨false, ['0'], Decimal.Layout.zeros (places - (c :: rest).length) ++ c :: rest, none,
        ?_, by decide, by simp⟩, rfl, ?_⟩
      · intro d mem
        rw [List.mem_append, List.mem_append] at mem
        rcases mem with mem | mem | mem
        · rw [List.mem_singleton.mp mem]
          decide
        · exact isDigit_zeros _ d mem
        · exact digits d mem
      · simp [Spelling.chars, Spelling.fractionChars, Spelling.powerChars]

/-- Digits with a power of ten are a number in written form. -/
theorem exists_spelling_scientifically {c : Char} {rest : List Char} (leading : Int)
    (digits : ∀ d ∈ c :: rest, d.isDigit = true) (nonzero : c ≠ '0') :
    ∃ s : Spelling, s.negative = false
      ∧ s.chars = floatLayout.scientifically (c :: rest) leading := by
  refine ⟨⟨false, [c], rest, some (leading < 0, Nat.toDigits 10 leading.natAbs), digits,
    plainWhole_of_ne nonzero, ?_⟩, rfl, ?_⟩
  · rintro power ⟨⟩
    exact ⟨Nat.toDigits_ne_nil, isDigit_toDigits _⟩
  · unfold Decimal.Layout.scientifically Spelling.chars Spelling.fractionChars Spelling.powerChars
    have sign : (floatLayout.signsExponent = true ∧ leading ≥ 0) ↔ ¬ leading < 0 := by
      simp [floatLayout]
    by_cases negative : leading < 0 <;> cases rest <;>
      simp [sign, negative, intText, natText]

/-- The magnitude of a finite number is written as a number without sign. -/
theorem exists_spelling_magnitude {x : Binary64} (finite : x.isFinite = true) :
    ∃ s : Spelling, s.negative = false ∧ s.chars = floatLayout.magnitude x := by
  unfold Decimal.Layout.magnitude
  cases zero : x.isZero with
  | true => exact ⟨⟨false, ['0'], ['0'], none, by simp, by decide, by simp⟩, rfl, rfl⟩
  | false =>
    have pos := Decimal.shortest_digits_pos finite zero floatLayout.tie
    obtain ⟨c, rest, first, nonzero⟩ := toDigits_eq_cons pos
    have digits := isDigit_toDigits (Decimal.shortest floatLayout.tie x).digits
    simp only [Bool.false_eq_true, if_false]
    rw [first] at digits ⊢
    split
    · exact exists_spelling_positionally _ digits nonzero
    · exact exists_spelling_scientifically _ digits nonzero

namespace Number

/-- The written form of an integer. -/
def intSpelling (n : Int) : Spelling where
  negative := n < 0
  whole := Nat.toDigits 10 n.natAbs
  fraction := []
  power? := none
  digits := by simpa using isDigit_toDigits n.natAbs
  plain := plainWhole_toDigits n.natAbs
  powered := by simp

theorem chars_intSpelling (n : Int) : (intSpelling n).chars = (intText n).toList := by
  by_cases negative : n < 0 <;>
    simp [Spelling.chars, Spelling.fractionChars, Spelling.powerChars, intSpelling, intText,
      natText, negative]

/-- **Every number is written in a form that is read as a number.** -/
theorem exists_spelling : (n : Number) → ∃ s : Spelling, s.chars = n.text.toList
  | .int n _ => ⟨intSpelling n, chars_intSpelling n⟩
  | .float x finite => by
    obtain ⟨s, unsigned, chars⟩ := exists_spelling_magnitude finite
    refine ⟨{ s with negative := x.negative }, ?_⟩
    have number : x.isNumber = true := by
      have below : x.index.val < Binary64.infinityIndex := of_decide_eq_true finite
      exact decide_eq_true (Nat.le_of_lt below)
    rw [Spelling.chars, unsigned] at chars
    simp only [Bool.false_eq_true, if_false, List.nil_append] at chars
    simp only [text, Decimal.Layout.write, number, finite, Bool.not_true, Bool.false_eq_true,
      if_false, if_true, String.toList_ofList, ← chars]
    cases x.negative <;> rfl

/-- **Integers are read back.** -/
theorem number?_int (n : Int) (bounds) :
    number? (intSpelling n).numeral = some (.int n bounds) := by
  have value : (if decide (n < 0) = true then -(n.natAbs : Int) else n.natAbs) = n := by
    by_cases negative : n < 0 <;> simp only [negative, decide_true, decide_false] <;> grind
  have whole : (decide (n < 0) && decide ((n.natAbs : Int) = 0)) = false := by
    rw [Bool.and_eq_false_iff, decide_eq_false_iff_not, decide_eq_false_iff_not]
    omega
  simp only [number?, intSpelling, Spelling.numeral, Numeral.digitsValue_toDigits, value, whole]
  rw [dif_pos bounds]
  rfl

end Number

end Json

end ResourceQuery
