import ResourceQuery.Proofs.Decimal.Nearest
import ResourceQuery.Proofs.Json.Spelling

/-!
# Texts that spell numbers

Which texts spell which numbers, said by their parts and the values of these, and that reading a
text finds just the numeral that it spells.

## Main Definitions

- `SpellsInteger`: a text spells an integer.
- `SpellsDecimal`: a text spells a decimal number.
- `SpellsFloat`: a text spells a double-precision number, which may be infinite or no number.
- `Numeral.value`: the number that a numeral stands for.

## Main Statements

- `Numeral.readPower?_eq_some_iff`: the powers of ten that are read are the integers spelled.
- `Numeral.spellsDecimal_of_read?`, `Numeral.exists_read?`: the numerals that are read are the
  decimal numbers spelled.
- `Numeral.isNearest_nearest`: the number computed from a numeral is nearest to its value.
- `Numeral.read?_eq_none`, `Numeral.head?_of_letter`: a word for another value is not read as a
  numeral.
-/

namespace ResourceQuery

/-! ### What texts spell -/

/-- The characters of a sign, which may be left out, and whether it is a minus. -/
inductive SpellsSign : List Char → Bool → Prop
  | absent : SpellsSign [] false
  | plus : SpellsSign ['+'] false
  | minus : SpellsSign ['-'] true

/-- **A text spells an integer**: a sign and at least one digit. -/
inductive SpellsInteger : List Char → ℤ → Prop
  | mk {sign digits : List Char} {negative : Bool} (signed : SpellsSign sign negative)
      (all : ∀ c ∈ digits, c.isDigit = true) (some : digits ≠ []) :
      SpellsInteger (sign ++ digits)
        (if negative then -(Nat.ofDigitChars 10 digits 0 : ℤ) else Nat.ofDigitChars 10 digits 0)

/-- The characters of a power of ten, which may be left out. -/
inductive SpellsPower : List Char → ℤ → Prop
  | absent : SpellsPower [] 0
  | written {mark : Char} {text : List Char} {power : ℤ} (marked : mark = 'e' ∨ mark = 'E')
      (spelled : SpellsInteger text power) : SpellsPower (mark :: text) power

/-- The characters of digits with a point or without, the digits themselves, and how many of them
stand behind the point. -/
inductive SpellsFigures : List Char → List Char → ℕ → Prop
  | whole {digits : List Char} : SpellsFigures digits digits 0
  | pointed {whole fraction : List Char} :
      SpellsFigures (whole ++ '.' :: fraction) (whole ++ fraction) fraction.length

/-- **A text spells a decimal number**: a sign, at least one digit, perhaps with a point before,
between or behind the digits, and a power of ten.  The sign is kept apart, because zero has one
too. -/
inductive SpellsDecimal : List Char → Bool → ℚ → Prop
  | mk {sign text digits exponent : List Char} {negative : Bool} {places : ℕ} {power : ℤ}
      (signed : SpellsSign sign negative) (figures : SpellsFigures text digits places)
      (all : ∀ c ∈ digits, c.isDigit = true) (some : digits ≠ [])
      (scaled : SpellsPower exponent power) :
      SpellsDecimal (sign ++ (text ++ exponent)) negative
        (Nat.ofDigitChars 10 digits 0 * 10 ^ (power - places))

/-- **A text spells a double-precision number**: the one nearest to the decimal number that it
spells, or one that has a word, whose letters may be small or large. -/
inductive SpellsFloat : List Char → Binary64 → Prop
  | decimal {text : List Char} {q : ℚ} {x : Binary64} (spelled : SpellsDecimal text x.negative q)
      (nearest : x.IsNearest q) : SpellsFloat text x
  | infinite {sign word : List Char} {negative : Bool} (signed : SpellsSign sign negative)
      (named : word.map Char.toLower = "inf".toList ∨ word.map Char.toLower = "infinity".toList) :
      SpellsFloat (sign ++ word) (Binary64.infinity.withSign negative)
  | notANumber {sign word : List Char} {negative : Bool} (signed : SpellsSign sign negative)
      (named : word.map Char.toLower = "nan".toList) :
      SpellsFloat (sign ++ word) (Binary64.notANumber.withSign negative)

namespace Numeral

/-! ### Signs and digits -/

/-- What is taken for a sign is one. -/
theorem spellsSign_spanSign (text : List Char) :
    ∃ sign, SpellsSign sign (spanSign text).1 ∧ text = sign ++ (spanSign text).2 := by
  unfold spanSign
  split
  · exact ⟨_, .minus, rfl⟩
  · exact ⟨_, .plus, rfl⟩
  · exact ⟨_, .absent, rfl⟩

/-- A sign is found if what follows does not begin with another one. -/
theorem spanSign_append {sign rest : List Char} {negative : Bool}
    (signed : SpellsSign sign negative) (free : ∀ c ∈ rest.head?, c ≠ '+' ∧ c ≠ '-') :
    spanSign (sign ++ rest) = (negative, rest) := by
  cases signed with
  | absent =>
    rw [List.nil_append]
    unfold spanSign
    split
    · exact absurd rfl (free '-' rfl).2
    · exact absurd rfl (free '+' rfl).1
    · rfl
  | plus => rfl
  | minus => rfl

theorem ne_sign_of_isDigit {c : Char} (digit : c.isDigit = true) : c ≠ '+' ∧ c ≠ '-' := by
  constructor <;> (rintro rfl; exact absurd digit (by decide))

/-- Digits do not begin with a sign. -/
theorem head?_ne_sign {digits : List Char} (all : ∀ c ∈ digits, c.isDigit = true)
    (some : digits ≠ []) (rest : List Char) : ∀ c ∈ (digits ++ rest).head?, c ≠ '+' ∧ c ≠ '-' := by
  cases digits with
  | nil => exact absurd rfl some
  | cons first others =>
    rintro c ⟨rfl⟩
    exact ne_sign_of_isDigit (all first List.mem_cons_self)

theorem spanDigits_eq (text : List Char) : text = (spanDigits text).1 ++ (spanDigits text).2 :=
  (List.takeWhile_append_dropWhile).symm

theorem isDigit_spanDigits (text : List Char) : ∀ c ∈ (spanDigits text).1, c.isDigit = true :=
  List.all_eq_true.mp List.all_takeWhile

theorem spanDigits_of_isDigit {digits : List Char} (all : ∀ c ∈ digits, c.isDigit = true) :
    spanDigits digits = (digits, []) := by
  have stop : ∀ c ∈ ([] : List Char).head?, c.isDigit = false := by simp
  have span := spanDigits_append all stop
  rwa [List.append_nil] at span

/-! ### Powers of ten -/

/-- **The powers of ten that are read are the integers spelled.** -/
theorem readPower?_eq_some_iff {text : List Char} {power : ℤ} :
    readPower? text = some (power, []) ↔ SpellsInteger text power := by
  constructor
  · intro h
    obtain ⟨sign, signed, split⟩ := spellsSign_spanSign text
    unfold readPower? at h
    generalize spanSign text = parts at h signed split
    obtain ⟨negative, rest⟩ := parts
    dsimp only at h split
    have digits := spanDigits_eq rest
    have all := isDigit_spanDigits rest
    generalize spanDigits rest = run at h digits all
    obtain ⟨run, others⟩ := run
    cases run with
    | nil => cases h
    | cons first others' =>
      cases h
      rw [split, digits, List.append_nil]
      exact .mk signed all (List.cons_ne_nil _ _)
  · rintro ⟨signed, all, some⟩
    rename_i sign digits negative
    have free := head?_ne_sign all some []
    rw [List.append_nil] at free
    unfold readPower?
    rw [spanSign_append signed free]
    dsimp only
    rw [spanDigits_of_isDigit all]
    cases digits with
    | nil => exact absurd rfl some
    | cons first others => rfl

/-- What is read behind the digits is a power of ten. -/
theorem spellsPower_of_readExponent? {text : List Char} {power? : Option ℤ}
    (h : readExponent? text = some (power?, [])) : SpellsPower text (power?.getD 0) := by
  unfold readExponent? at h
  split at h
  · obtain ⟨⟨power, rest⟩, read, h⟩ := Option.map_eq_some_iff.mp h
    cases h
    exact .written (.inl rfl) (readPower?_eq_some_iff.mp read)
  · obtain ⟨⟨power, rest⟩, read, h⟩ := Option.map_eq_some_iff.mp h
    cases h
    exact .written (.inr rfl) (readPower?_eq_some_iff.mp read)
  · cases h
    exact .absent

/-- A power of ten is read. -/
theorem exists_readExponent? {text : List Char} {power : ℤ} (h : SpellsPower text power) :
    ∃ power?, readExponent? text = some (power?, []) ∧ power?.getD 0 = power := by
  cases h with
  | absent => exact ⟨none, rfl, rfl⟩
  | written marked spelled =>
    refine ⟨some power, ?_, rfl⟩
    rcases marked with rfl | rfl
    · simp [readExponent?, readPower?_eq_some_iff.mpr spelled]
    · simp [readExponent?, readPower?_eq_some_iff.mpr spelled]

/-- A power of ten goes on neither with a digit nor with a point. -/
theorem head?_of_spellsPower {text : List Char} {power : ℤ} (h : SpellsPower text power) :
    ∀ c ∈ text.head?, c.isDigit = false ∧ c ≠ '.' := by
  cases h with
  | absent => simp
  | written marked _ =>
    rintro c ⟨rfl⟩
    rcases marked with rfl | rfl <;> decide

/-! ### Decimal numbers -/

/-- The number that a numeral stands for, without its sign. -/
def value (n : Numeral) : ℚ :=
  Nat.ofDigitChars 10 (n.whole ++ n.fraction?.getD []) 0
    * 10 ^ (n.exponent?.getD 0 - ((n.fraction?.getD []).length : ℤ))

/-- A numeral is read part by part. -/
theorem read?_eq_some_iff {text rest : List Char} {n : Numeral} :
    read? text = some (n, rest) ↔ ∃ unsigned behind tail,
      spanSign text = (n.negative, unsigned) ∧ spanDigits unsigned = (n.whole, behind)
        ∧ spanFraction behind = (n.fraction?, tail) ∧ n.whole ++ n.fraction?.getD [] ≠ []
        ∧ readExponent? tail = some (n.exponent?, rest) := by
  have empty : ∀ (whole : List Char) (fraction? : Option (List Char)),
      (whole.isEmpty && (fraction?.getD []).isEmpty) = true
        ↔ ¬ whole ++ fraction?.getD [] ≠ [] := by simp
  constructor
  · intro h
    rcases signed : spanSign text with ⟨negative, unsigned⟩
    rcases digits : spanDigits unsigned with ⟨whole, behind⟩
    rcases fraction : spanFraction behind with ⟨fraction?, tail⟩
    simp only [read?, signed, digits, fraction] at h
    split at h
    · cases h
    · rename_i some
      rw [empty, not_not] at some
      obtain ⟨⟨exponent?, rest⟩, power, h⟩ := Option.bind_eq_some_iff.mp h
      cases h
      exact ⟨unsigned, behind, tail, rfl, digits, fraction, some, power⟩
  · rintro ⟨unsigned, behind, tail, signed, digits, fraction, some, power⟩
    simp only [read?, signed, digits, fraction]
    rw [if_neg ((empty _ _).not.mpr (not_not.mpr some)), power]
    rfl

/-- **A text that is read as a numeral spells its value.** -/
theorem spellsDecimal_of_read? {text : List Char} {n : Numeral} (h : read? text = some (n, [])) :
    SpellsDecimal text n.negative n.value := by
  obtain ⟨negative, whole, fraction?, exponent?⟩ := n
  obtain ⟨unsigned, behind, tail, signed, digits, fraction, some, power⟩ := read?_eq_some_iff.mp h
  obtain ⟨sign, spelled, begins⟩ := spellsSign_spanSign text
  have run := spanDigits_eq unsigned
  have all := isDigit_spanDigits unsigned
  rw [signed] at spelled begins
  rw [digits] at run all
  have scaled := spellsPower_of_readExponent? power
  unfold spanFraction at fraction
  split at fraction
  · rename_i others
    obtain ⟨rfl, rfl⟩ := Prod.mk.inj fraction
    have parts : text = sign ++ ((whole ++ '.' :: (spanDigits others).1)
        ++ (spanDigits others).2) := by
      rw [begins, run, List.append_assoc, List.cons_append, ← spanDigits_eq]
    rw [parts]
    exact .mk spelled .pointed
      (List.forall_mem_append.mpr ⟨all, isDigit_spanDigits others⟩) some scaled
  · obtain ⟨rfl, rfl⟩ := Prod.mk.inj fraction
    rw [begins, run]
    simp only [Option.getD_none, List.append_nil, ne_eq] at some
    have spells := SpellsDecimal.mk spelled .whole all some scaled
    simpa [value] using spells

/-- Without a point there is no fraction. -/
theorem spanFraction_of_head? {text : List Char} (stop : ∀ c ∈ text.head?, c ≠ '.') :
    spanFraction text = (none, text) := by
  unfold spanFraction
  split
  · exact absurd rfl (stop '.' rfl)
  · rfl

/-- **A text that spells a decimal number is read as a numeral of this value.** -/
theorem exists_read? {text : List Char} {negative : Bool} {q : ℚ}
    (h : SpellsDecimal text negative q) :
    ∃ n : Numeral, read? text = some (n, []) ∧ n.negative = negative ∧ n.value = q := by
  obtain @⟨sign, text, digits, exponent, _, places, power, signed, figures, all, some, scaled⟩ := h
  obtain ⟨power?, read, rfl⟩ := exists_readExponent? scaled
  have stop := head?_of_spellsPower scaled
  cases figures with
  | whole =>
    refine ⟨⟨negative, text, none, power?⟩, read?_eq_some_iff.mpr
      ⟨text ++ exponent, exponent, exponent, ?_, ?_, ?_, ?_, read⟩, rfl, by simp [value]⟩
    · exact spanSign_append signed (head?_ne_sign all some exponent)
    · exact spanDigits_append all (fun c mem => (stop c mem).1)
    · exact spanFraction_of_head? (fun c mem => (stop c mem).2)
    · simpa using some
  | @pointed whole fraction =>
    obtain ⟨allWhole, allFraction⟩ := List.forall_mem_append.mp all
    refine ⟨⟨negative, whole, fraction, power?⟩,
      read?_eq_some_iff.mpr ⟨whole ++ '.' :: fraction ++ exponent, '.' :: (fraction ++ exponent),
        exponent, spanSign_append signed ?_, ?_, ?_, some, read⟩, rfl, rfl⟩
    · cases whole with
      | nil =>
        rintro c ⟨rfl⟩
        decide
      | cons first others =>
        rw [List.append_assoc]
        exact head?_ne_sign allWhole (List.cons_ne_nil _ _) _
    · rw [List.append_assoc]
      refine spanDigits_append allWhole ?_
      rintro c ⟨rfl⟩
      decide
    · rw [spanFraction, spanDigits_append allFraction (fun c mem => (stop c mem).1)]

/-- **The number computed from a numeral is nearest to its value.** -/
theorem isNearest_nearest (n : Numeral) : n.nearest.IsNearest n.value :=
  (isNearest_nearestMagnitude _ _).withSign n.negative

/-! ### Words -/

/-- A text that begins neither with a digit nor with a point behind its sign is not read. -/
theorem read?_eq_none {sign word : List Char} {negative : Bool} (signed : SpellsSign sign negative)
    (begins : ∀ c ∈ word.head?, (c ≠ '+' ∧ c ≠ '-') ∧ c.isDigit = false ∧ c ≠ '.') :
    read? (sign ++ word) = none := by
  rw [Option.eq_none_iff_forall_ne_some]
  rintro ⟨n, rest⟩ h
  obtain ⟨unsigned, behind, tail, hsign, hdigits, hfraction, some, -⟩ := read?_eq_some_iff.mp h
  rw [spanSign_append signed (fun c mem => (begins c mem).1)] at hsign
  obtain ⟨-, rfl⟩ := Prod.mk.inj hsign
  have none := spanDigits_append (List.forall_mem_nil _) (fun c mem => (begins c mem).2.1)
  rw [List.nil_append, hdigits] at none
  obtain ⟨whole, rfl⟩ := Prod.mk.inj none
  rw [spanFraction_of_head? (fun c mem => (begins c mem).2.2)] at hfraction
  obtain ⟨fraction, -⟩ := Prod.mk.inj hfraction
  rw [whole, ← fraction] at some
  exact some rfl

theorem toLower_of_isDigit {c : Char} (digit : c.isDigit = true) : c.toLower = c := by
  refine dif_neg fun upper => ?_
  have above : ('A' : Char).toNat ≤ c.toNat := UInt32.le_iff_toNat_le.mp upper.1
  exact absurd (above.trans (Char.isDigit_iff_toNat.mp digit).2) (by decide)

/-- A word that begins with one of these letters does not begin like a numeral. -/
theorem head?_of_letter {word others : List Char} {first : Char}
    (named : word.map Char.toLower = first :: others) (letter : first = 'i' ∨ first = 'n') :
    ∀ c ∈ word.head?, (c ≠ '+' ∧ c ≠ '-') ∧ c.isDigit = false ∧ c ≠ '.' := by
  cases word with
  | nil => cases named
  | cons c rest =>
    obtain ⟨rfl, -⟩ := List.cons.inj named
    rintro c ⟨rfl⟩
    have spared : ∀ d : Char, d.toLower = d → d ≠ 'i' → d ≠ 'n' → c ≠ d := by
      rintro d same notI notN rfl
      rw [same] at letter
      exact letter.elim notI notN
    refine ⟨⟨spared _ rfl (by decide) (by decide), spared _ rfl (by decide) (by decide)⟩, ?_,
      spared _ rfl (by decide) (by decide)⟩
    rw [Bool.eq_false_iff]
    intro digit
    rw [toLower_of_isDigit digit] at letter
    rcases letter with rfl | rfl <;> exact absurd digit (by decide)

end Numeral

end ResourceQuery
