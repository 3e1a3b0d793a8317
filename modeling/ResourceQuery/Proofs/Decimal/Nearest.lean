import Mathlib.Algebra.Order.Field.Power
import Mathlib.Data.Rat.Cast.Order
import Mathlib.Tactic.FieldSimp
import Mathlib.Tactic.Linarith
import Mathlib.Tactic.Ring
import ResourceQuery.Decimal.Numeral

/-!
# The nearest double-precision number

A fraction that is no double-precision number is represented by the one nearest to it.  This file
says so with exact distances, and that the numbers computed from fractions and from decimal digits
are the nearest ones.

## Main Definitions

- `Binary64.magnitude`: the exact value of a number without its sign.
- `Binary64.IsNearest`: no number is nearer to a fraction.
- `Binary64.Rounds`: an integer is the rounding of a fraction.

## Main Statements

- `Binary64.IsNearest.index_eq`: there is one nearest number, up to its sign.
- `Binary64.isNearest_ofRatio`: the number computed from a fraction is nearest to it.
- `Numeral.isNearest_nearestMagnitude`: so is the number computed from decimal digits.

## Design Notes

Infinity takes part as the power of two that comes next after the finite numbers, as if the
exponents went on.  So what is too large for a finite number needs no rule of its own: it is nearer
to infinity.
-/

namespace ResourceQuery

namespace Binary64

/-! ### Magnitudes -/

/-- The exact value of a number without its sign. -/
def magnitude (x : Binary64) : ℚ :=
  x.significand * 2 ^ x.exponent

/-- **A number is nearest to a fraction**, signs apart: no number is nearer, and if another one is
equally near, it is the one whose significand is even. -/
structure IsNearest (q : ℚ) (x : Binary64) : Prop where
  isNumber : x.isNumber = true
  closest : ∀ y : Binary64, y.isNumber = true → |q - x.magnitude| ≤ |q - y.magnitude|
  even : ∀ y : Binary64, y.isNumber = true → |q - x.magnitude| = |q - y.magnitude| →
    y.magnitude ≠ x.magnitude → x.significand % 2 = 0

theorem binadeSize_eq : (binadeSize : ℚ) = 2 ^ (52 : ℤ) := by
  norm_num [binadeSize]

theorem significand_lt (x : Binary64) : x.significand < 2 * binadeSize := by
  unfold significand binadeSize
  split <;> omega

theorem le_exponent (x : Binary64) : -1074 ≤ x.exponent := by
  unfold exponent binadeSize
  split <;> omega

theorem binadeSize_le_significand {x : Binary64} (above : -1074 < x.exponent) :
    binadeSize ≤ x.significand := by
  unfold exponent significand binadeSize at *
  split <;> omega

theorem significand_mod_two (x : Binary64) : x.significand % 2 = x.index.val % 2 := by
  unfold significand binadeSize
  split <;> omega

/-- Numbers are ordered by their exponents first, and by their significands then. -/
theorem exponent_lt_or_of_index_lt {x y : Binary64} (lt : x.index.val < y.index.val) :
    x.exponent < y.exponent ∨ x.exponent = y.exponent ∧ x.significand < y.significand := by
  unfold exponent significand binadeSize
  split <;> split <;> omega

/-- A number with a smaller exponent lies below all significands with their highest bit set. -/
theorem magnitude_lt_of_exponent_lt {x : Binary64} {s : ℤ} (lt : x.exponent < s) :
    x.magnitude < binadeSize * 2 ^ s := by
  have small : (x.significand : ℚ) < 2 * binadeSize := mod_cast x.significand_lt
  have power : (2 : ℚ) ^ (x.exponent + 1) ≤ 2 ^ s := zpow_le_zpow_right₀ (by norm_num) (by omega)
  calc x.magnitude < 2 * binadeSize * 2 ^ x.exponent := by
        unfold magnitude
        gcongr
    _ = binadeSize * 2 ^ (x.exponent + 1) := by
        rw [zpow_add_one₀ (by norm_num)]
        ring
    _ ≤ binadeSize * 2 ^ s := by gcongr

/-- **Magnitudes are numbered in ascending order.** -/
theorem magnitude_lt_of_index_lt {x y : Binary64} (lt : x.index.val < y.index.val) :
    x.magnitude < y.magnitude := by
  rcases exponent_lt_or_of_index_lt lt with above | ⟨same, less⟩
  · have full : (binadeSize : ℚ) ≤ y.significand :=
      mod_cast binadeSize_le_significand (x.le_exponent.trans_lt above)
    calc x.magnitude < binadeSize * 2 ^ y.exponent := magnitude_lt_of_exponent_lt above
      _ ≤ y.significand * 2 ^ y.exponent := by gcongr
  · have less : (x.significand : ℚ) < y.significand := mod_cast less
    unfold magnitude
    rw [← same]
    gcongr

theorem magnitude_le_of_index_le {x y : Binary64} (le : x.index.val ≤ y.index.val) :
    x.magnitude ≤ y.magnitude := by
  rcases Nat.lt_or_eq_of_le le with lt | same
  · exact (magnitude_lt_of_index_lt lt).le
  · unfold magnitude significand exponent
    rw [same]

/-- Between numbers that are not neighbours there is another number. -/
theorem exists_between {x y : Binary64} (apart : x.index.val + 1 < y.index.val)
    (number : y.isNumber = true) :
    ∃ z : Binary64, z.isNumber = true ∧ x.magnitude < z.magnitude
      ∧ z.magnitude < y.magnitude := by
  have bound := y.index.isLt
  simp only [isNumber, decide_eq_true_eq] at number ⊢
  exact ⟨⟨false, ⟨x.index.val + 1, by omega⟩⟩, by dsimp only; omega,
    magnitude_lt_of_index_lt (Nat.lt_succ_self _), magnitude_lt_of_index_lt apart⟩

/-! ### Nearest numbers -/

/-- Of two nearest numbers the second is not the greater one: they would be neighbours at the same
distance, and only one of them has an even significand. -/
theorem IsNearest.index_le {q : ℚ} {x y : Binary64} (hx : IsNearest q x) (hy : IsNearest q y) :
    y.index.val ≤ x.index.val := by
  by_contra lt
  rw [not_le] at lt
  have less := magnitude_lt_of_index_lt lt
  have tie : |q - x.magnitude| = |q - y.magnitude| :=
    le_antisymm (hx.closest y hy.isNumber) (hy.closest x hx.isNumber)
  -- Numbers at the same distance lie on both sides.
  have middle : q - x.magnitude = y.magnitude - q := by
    rcases abs_eq_abs.mp tie with same | opposite
    · linarith
    · linarith
  have evenx := hx.even y hy.isNumber tie less.ne'
  have eveny := hy.even x hx.isNumber tie.symm less.ne
  rw [significand_mod_two] at evenx eveny
  obtain ⟨z, number, above, below⟩ := exists_between (show x.index.val + 1 < y.index.val by omega)
    hy.isNumber
  have nearest := hx.closest z number
  rw [abs_of_nonneg (by linarith : (0 : ℚ) ≤ q - x.magnitude)] at nearest
  rcases abs_cases (q - z.magnitude) with ⟨eq, -⟩ | ⟨eq, -⟩ <;> linarith

/-- **There is one nearest number**, up to its sign. -/
theorem IsNearest.index_eq {q : ℚ} {x y : Binary64} (hx : IsNearest q x) (hy : IsNearest q y) :
    x.index = y.index :=
  Fin.ext (le_antisymm (hy.index_le hx) (hx.index_le hy))

/-- Nearest numbers of one sign are the same. -/
theorem IsNearest.unique {q : ℚ} {x y : Binary64} (hx : IsNearest q x) (hy : IsNearest q y)
    (signed : x.negative = y.negative) : x = y := by
  obtain ⟨negative, index⟩ := x
  obtain ⟨negative', index'⟩ := y
  obtain rfl : negative = negative' := signed
  obtain rfl : index = index' := hx.index_eq hy
  rfl

/-! ### Rounding -/

/-- **An integer is the rounding of a fraction**: it is at most one half away from it, and even if
it is just that. -/
structure Rounds (r : ℚ) (m : ℕ) : Prop where
  near : |r - m| ≤ 1 / 2
  even : |r - m| = 1 / 2 → m % 2 = 0

theorem rounds_down {k : ℕ} {f : ℚ} (nonneg : 0 ≤ f) (half : f ≤ 1 / 2)
    (even : f = 1 / 2 → k % 2 = 0) : Rounds (k + f) k := by
  have gap : |(k : ℚ) + f - k| = f := by rw [add_sub_cancel_left, abs_of_nonneg nonneg]
  exact ⟨by rwa [gap], fun tie => even (by rwa [gap] at tie)⟩

theorem rounds_up {k : ℕ} {f : ℚ} (half : 1 / 2 ≤ f) (le : f ≤ 1)
    (odd : f = 1 / 2 → k % 2 = 1) : Rounds (k + f) (k + 1 : ℕ) := by
  have gap : |(k : ℚ) + f - (k + 1 : ℕ)| = 1 - f := by
    rw [abs_of_nonpos (by push_cast; linarith)]
    push_cast
    ring
  refine ⟨by rw [gap]; linarith, fun tie => ?_⟩
  rw [gap] at tie
  have := odd (by linarith)
  omega

/-- A fraction is rounded by its rest, which is compared with one half. -/
theorem rounds_roundDiv (num : ℕ) {den : ℕ} (pos : 0 < den) :
    Rounds (num / den) (roundDiv num den) := by
  have hden : (0 : ℚ) < den := mod_cast pos
  have parts : (num : ℚ) / den = (num / den : ℕ) + (num % den : ℕ) / den := by
    field_simp
    exact_mod_cast (Nat.div_add_mod num den).symm
  have nonneg : (0 : ℚ) ≤ (num % den : ℕ) / den := div_nonneg (Nat.cast_nonneg _) hden.le
  have lt : ((num % den : ℕ) : ℚ) / den < 1 := by
    rw [div_lt_iff₀ hden, one_mul]
    exact_mod_cast Nat.mod_lt _ pos
  have tied : ((num % den : ℕ) : ℚ) / den = 1 / 2 → 2 * (num % den) = den := by
    intro tie
    rw [div_eq_div_iff hden.ne' (by norm_num)] at tie
    norm_cast at tie
    omega
  rw [parts]
  unfold roundDiv
  dsimp only
  split_ifs with up
  · refine rounds_up ?_ lt.le fun tie => ?_
    · rw [div_le_div_iff₀ (by norm_num) hden]
      norm_cast
      omega
    · have := tied tie
      omega
  · refine rounds_down nonneg ?_ fun tie => ?_
    · rw [div_le_div_iff₀ hden (by norm_num)]
      norm_cast
      omega
    · have := tied tie
      omega

/-- No other integer is nearer than the rounding of a fraction. -/
theorem Rounds.closest {r : ℚ} {m : ℕ} (h : Rounds r m) (c : ℕ) :
    |r - m| ≤ |r - c| ∧ (|r - m| = |r - c| → c ≠ m → m % 2 = 0) := by
  by_cases same : c = m
  · rw [same]
    exact ⟨le_rfl, fun _ ne => absurd rfl ne⟩
  · have apart : (1 : ℚ) ≤ |(m : ℚ) - c| := by
      have : (1 : ℤ) ≤ |(m : ℤ) - c| := Int.one_le_abs (by omega)
      exact_mod_cast this
    have triangle : |(m : ℚ) - c| ≤ |r - m| + |r - c| := by
      have := abs_sub_le (m : ℚ) r c
      rwa [abs_sub_comm (m : ℚ) r] at this
    refine ⟨by linarith [h.near], fun tie _ => h.even ?_⟩
    linarith [h.near]

theorem Rounds.le {r : ℚ} {m n : ℕ} (h : Rounds r m) (le : r ≤ n) : m ≤ n := by
  by_contra lt
  have next : (n : ℚ) + 1 ≤ m := by exact_mod_cast not_le.mp lt
  linarith [neg_le_of_abs_le h.near]

theorem Rounds.ge {r : ℚ} {m n : ℕ} (h : Rounds r m) (le : n ≤ r) : n ≤ m := by
  by_contra lt
  have next : (m : ℚ) + 1 ≤ n := by exact_mod_cast not_le.mp lt
  linarith [le_of_abs_le h.near]

/-- A magnitude is a multiple of a power of two, or less than all significands with their highest
bit set that are multiplied with it. -/
theorem magnitude_multiple_or_lt (x : Binary64) (s : ℤ) :
    (∃ c : ℕ, x.magnitude = c * 2 ^ s) ∨ (-1074 < s ∧ x.magnitude < binadeSize * 2 ^ s) := by
  rcases lt_or_ge x.exponent s with lt | ge
  · exact .inr ⟨x.le_exponent.trans_lt lt, magnitude_lt_of_exponent_lt lt⟩
  · refine .inl ⟨x.significand * 2 ^ (x.exponent - s).toNat, ?_⟩
    have power : (2 : ℚ) ^ x.exponent = 2 ^ (x.exponent - s).toNat * 2 ^ s := by
      rw [← zpow_natCast, ← zpow_add₀ (by norm_num)]
      congr 1
      omega
    rw [magnitude, power]
    push_cast
    ring

/-- A fraction is divided by a power of two without negative exponents. -/
theorem mul_pow_div_mul_pow (num den : ℕ) (s : ℤ) :
    ((num * Nat.pow 2 (-s).toNat : ℕ) : ℚ) / (den * Nat.pow 2 s.toNat : ℕ)
      = num / den / 2 ^ s := by
  have power : (2 : ℚ) ^ s * 2 ^ (-s).toNat = 2 ^ s.toNat := by
    rw [← zpow_natCast, ← zpow_natCast, ← zpow_add₀ (by norm_num)]
    congr 1
    omega
  have pos : (0 : ℚ) < 2 ^ (-s).toNat := by positivity
  simp only [Nat.pow_eq, Nat.cast_mul, Nat.cast_pow, Nat.cast_ofNat]
  rw [← power, div_div, ← mul_assoc, mul_div_mul_right _ _ pos.ne']

theorem log2_bounds {n : ℕ} (pos : 0 < n) :
    (2 : ℚ) ^ (Nat.log2 n : ℤ) ≤ n ∧ (n : ℚ) < 2 ^ ((Nat.log2 n : ℤ) + 1) := by
  constructor
  · rw [zpow_natCast]
    exact_mod_cast Nat.log2_self_le pos.ne'
  · exact_mod_cast Nat.lt_log2_self

/-- A fraction lies between the power of two that is found for it and the next one. -/
theorem floorLog_bounds {num den : ℕ} (hnum : 0 < num) (hden : 0 < den) :
    (2 : ℚ) ^ floorLog num den ≤ num / den ∧ (num / den : ℚ) < 2 ^ (floorLog num den + 1) := by
  have pos : (0 : ℚ) < den := mod_cast hden
  obtain ⟨low, high⟩ := log2_bounds hnum
  obtain ⟨low', high'⟩ := log2_bounds hden
  have test : (num * Nat.pow 2 (-((Nat.log2 num : ℤ) - Nat.log2 den)).toNat
      ≥ den * Nat.pow 2 ((Nat.log2 num : ℤ) - Nat.log2 den).toNat)
      ↔ (2 : ℚ) ^ ((Nat.log2 num : ℤ) - Nat.log2 den) ≤ num / den := by
    have positive : (0 : ℚ) < (den * Nat.pow 2 ((Nat.log2 num : ℤ) - Nat.log2 den).toNat : ℕ) := by
      exact_mod_cast Nat.mul_pos hden (Nat.pow_pos (by norm_num))
    rw [← one_le_div₀ (by positivity), ← mul_pow_div_mul_pow, one_le_div₀ positive, Nat.cast_le]
  unfold floorLog
  dsimp only
  split_ifs with reached
  · refine ⟨test.mp reached, ?_⟩
    rw [div_lt_iff₀ pos]
    calc (num : ℚ) < 2 ^ ((Nat.log2 num : ℤ) + 1) := high
      _ = 2 ^ ((Nat.log2 num : ℤ) - Nat.log2 den + 1) * 2 ^ (Nat.log2 den : ℤ) := by
          rw [← zpow_add₀ (by norm_num)]
          congr 1
          omega
      _ ≤ _ := by gcongr
  · rw [test, not_le] at reached
    rw [sub_add_cancel]
    refine ⟨?_, reached⟩
    rw [le_div_iff₀ pos]
    calc (2 : ℚ) ^ ((Nat.log2 num : ℤ) - Nat.log2 den - 1) * den
        ≤ 2 ^ ((Nat.log2 num : ℤ) - Nat.log2 den - 1) * 2 ^ ((Nat.log2 den : ℤ) + 1) := by gcongr
      _ = 2 ^ (Nat.log2 num : ℤ) := by
          rw [← zpow_add₀ (by norm_num)]
          congr 1
          omega
      _ ≤ num := low

/-! ### The nearest number -/

theorem index_ofIndex {i : ℕ} (le : i ≤ infinityIndex) : (ofIndex i).index.val = i :=
  Nat.min_eq_left le

/-- **A significand and a power of two are found at their index.**  A significand that rounding has
made too large by one stands for half of it with the next power. -/
theorem magnitude_ofIndex {s : ℤ} {m : ℕ} (least : -1074 ≤ s) (most : s < 972)
    (le : m ≤ 2 * binadeSize) (full : s = -1074 ∨ binadeSize ≤ m) :
    (ofIndex ((s + 1074).toNat * binadeSize + m)).magnitude = m * 2 ^ s
      ∧ (ofIndex ((s + 1074).toNat * binadeSize + m)).significand % 2 = m % 2 := by
  obtain ⟨k, rfl⟩ : ∃ k : ℕ, s = k - 1074 := ⟨(s + 1074).toNat, by omega⟩
  rw [sub_add_cancel, Int.toNat_natCast]
  have index : (ofIndex (k * binadeSize + m)).index.val = k * binadeSize + m :=
    index_ofIndex (by unfold infinityIndex binadeSize at *; omega)
  rw [significand_mod_two, index]
  refine ⟨?_, by unfold binadeSize; omega⟩
  rcases Nat.lt_or_eq_of_le le with lt | rfl
  · have anatomy : (ofIndex (k * binadeSize + m)).significand = m
        ∧ (ofIndex (k * binadeSize + m)).exponent = k - 1074 := by
      unfold significand exponent
      rw [index]
      unfold binadeSize at *
      split <;> omega
    rw [magnitude, anatomy.1, anatomy.2]
  · have anatomy : (ofIndex (k * binadeSize + 2 * binadeSize)).significand = binadeSize
        ∧ (ofIndex (k * binadeSize + 2 * binadeSize)).exponent = k - 1074 + 1 := by
      unfold significand exponent
      rw [index]
      unfold binadeSize at *
      split <;> omega
    rw [magnitude, anatomy.1, anatomy.2, zpow_add_one₀ (by norm_num)]
    push_cast
    ring

theorem isNumber_ofIndex (i : ℕ) : (ofIndex i).isNumber = true := by
  simp [isNumber, ofIndex]

/-- **A number whose significand is the rounding of a fraction is nearest to it.**  Numbers with
smaller exponents are no nearer, because all of them lie below the significands with their highest
bit set. -/
theorem isNearest_of_rounds {q : ℚ} {s : ℤ} {m : ℕ} {x : Binary64} (number : x.isNumber = true)
    (value : x.magnitude = m * 2 ^ s) (parity : x.significand % 2 = m % 2)
    (rounds : Rounds (q / 2 ^ s) m) (full : s = -1074 ∨ binadeSize * 2 ^ s ≤ q) :
    IsNearest q x := by
  have two : (0 : ℚ) < 2 ^ s := by positivity
  have scaled : ∀ c : ℕ, |q - c * 2 ^ s| = |q / 2 ^ s - c| * 2 ^ s := by
    intro c
    rw [← abs_of_pos two, ← abs_mul, abs_of_pos two]
    congr 1
    field_simp
  have multiple : ∀ c : ℕ, |q - x.magnitude| ≤ |q - c * 2 ^ s|
      ∧ (|q - x.magnitude| = |q - c * 2 ^ s| → c ≠ m → m % 2 = 0) := by
    intro c
    obtain ⟨closest, even⟩ := rounds.closest c
    rw [value, scaled, scaled]
    refine ⟨by gcongr, fun tie ne => even (mul_right_cancel₀ two.ne' tie) ne⟩
  have smaller : ∀ y : Binary64, -1074 < s → y.magnitude < binadeSize * 2 ^ s →
      |q - x.magnitude| < |q - y.magnitude| := by
    intro y above lt
    have le := full.resolve_left above.ne'
    calc |q - x.magnitude| ≤ |q - binadeSize * 2 ^ s| := (multiple binadeSize).1
      _ = q - binadeSize * 2 ^ s := abs_of_nonneg (by linarith)
      _ < q - y.magnitude := by linarith
      _ ≤ |q - y.magnitude| := le_abs_self _
  refine ⟨number, fun y _ => ?_, fun y _ tie ne => ?_⟩
  · rcases y.magnitude_multiple_or_lt s with ⟨c, hc⟩ | ⟨above, lt⟩
    · rw [hc]
      exact (multiple c).1
    · exact (smaller y above lt).le
  · rcases y.magnitude_multiple_or_lt s with ⟨c, hc⟩ | ⟨above, lt⟩
    · rw [hc] at tie ne
      rw [parity]
      refine (multiple c).2 tie fun same => ne ?_
      rw [same, value]
    · exact absurd tie (smaller y above lt).ne

theorem magnitude_infinity : infinity.magnitude = 2 ^ (1024 : ℤ) := by
  have anatomy : infinity.significand = 2 ^ 52 ∧ infinity.exponent = 972 := by decide
  rw [magnitude, anatomy.1, anatomy.2, Nat.cast_pow, Nat.cast_ofNat, ← zpow_natCast,
    ← zpow_add₀ (by norm_num)]
  norm_num

theorem magnitude_le_infinity {x : Binary64} (number : x.isNumber = true) :
    x.magnitude ≤ 2 ^ (1024 : ℤ) := by
  rw [← magnitude_infinity]
  refine magnitude_le_of_index_le ?_
  rw [infinity, index_ofIndex le_rfl]
  simpa [isNumber] using number

/-- What lies beyond the numbers is nearest to infinity. -/
theorem isNearest_infinity {q : ℚ} (beyond : 2 ^ (1024 : ℤ) ≤ q) : IsNearest q infinity := by
  have distance : ∀ y : Binary64, y.isNumber = true → |q - y.magnitude| = q - y.magnitude :=
    fun y number => abs_of_nonneg (by linarith [magnitude_le_infinity number])
  have number : infinity.isNumber = true := isNumber_ofIndex _
  refine ⟨number, fun y hy => ?_, fun y hy tie ne => ?_⟩
  · rw [distance _ number, distance y hy, magnitude_infinity]
    linarith [magnitude_le_infinity hy]
  · rw [distance _ number, distance y hy] at tie
    exact absurd (by linarith) ne

theorem magnitude_eq_zero_or_le (x : Binary64) :
    x.magnitude = 0 ∨ 2 ^ (-1074 : ℤ) ≤ x.magnitude := by
  rcases Nat.eq_zero_or_pos x.significand with zero | pos
  · rw [magnitude, zero, Nat.cast_zero, zero_mul]
    exact .inl rfl
  · have one : (1 : ℚ) ≤ x.significand := mod_cast pos
    have power : (2 : ℚ) ^ (-1074 : ℤ) ≤ 2 ^ x.exponent :=
      zpow_le_zpow_right₀ (by norm_num) x.le_exponent
    refine .inr ?_
    calc (2 : ℚ) ^ (-1074 : ℤ) = 1 * 2 ^ (-1074 : ℤ) := (one_mul _).symm
      _ ≤ x.significand * 2 ^ x.exponent := by gcongr

/-- What is less than half of the least positive number is nearest to zero. -/
theorem isNearest_zero {q : ℚ} (nonneg : 0 ≤ q) (small : q < 2 ^ (-1075 : ℤ)) :
    IsNearest q (ofIndex 0) := by
  have zero : (ofIndex 0).magnitude = 0 := by
    have anatomy : (ofIndex 0).significand = 0 := by decide
    rw [magnitude, anatomy, Nat.cast_zero, zero_mul]
  have double : (2 : ℚ) ^ (-1074 : ℤ) = 2 * 2 ^ (-1075 : ℤ) := by
    rw [← zpow_one_add₀ (by norm_num)]
    norm_num
  refine ⟨isNumber_ofIndex 0, fun y _ => ?_, fun _ _ _ _ => by decide⟩
  rw [zero, sub_zero, abs_of_nonneg nonneg]
  rcases y.magnitude_eq_zero_or_le with none | some
  · rw [none, sub_zero]
    exact le_abs_self q
  · refine le_trans ?_ (neg_le_abs _)
    linarith

theorem ofIndex_of_infinityIndex_le {i : ℕ} (le : infinityIndex ≤ i) : ofIndex i = infinity := by
  unfold infinity ofIndex
  simp only [Nat.min_eq_right le, Nat.min_self]

/-- **The power of two that is chosen for a fraction** leaves a significand with all its bits, or is
the least one. -/
theorem scale_bounds {num den : ℕ} (hnum : 0 < num) (hden : 0 < den) {s : ℤ}
    (chosen : s = max (floorLog num den - 52) (-1074)) :
    (s = -1074 ∨ binadeSize * 2 ^ s ≤ (num / den : ℚ))
      ∧ (num / den : ℚ) < 2 * binadeSize * 2 ^ s := by
  obtain ⟨low, high⟩ := floorLog_bounds hnum hden
  rw [binadeSize_eq]
  constructor
  · by_cases least : s = -1074
    · exact .inl least
    · refine .inr (le_trans (le_of_eq ?_) low)
      rw [← zpow_add₀ (by norm_num)]
      congr 1
      omega
  · refine lt_of_lt_of_le high ?_
    rw [← zpow_one_add₀ (by norm_num), ← zpow_add₀ (by norm_num)]
    exact zpow_le_zpow_right₀ (by norm_num) (by omega)

/-- **The number that is computed from a fraction is nearest to it.** -/
theorem isNearest_ofRatio (num : ℕ) {den : ℕ} (pos : 0 < den) :
    IsNearest (num / den) (ofRatio num den) := by
  unfold ofRatio
  split_ifs with zero
  · subst zero
    exact isNearest_zero (by simp) (by simp)
  dsimp only
  generalize chosen : max (floorLog num den - 52) (-1074) = s
  have rounds : Rounds (num / den / 2 ^ s)
      (roundDiv (num * Nat.pow 2 (-s).toNat) (den * Nat.pow 2 s.toNat)) := by
    rw [← mul_pow_div_mul_pow]
    exact rounds_roundDiv _ (Nat.mul_pos pos (Nat.pow_pos (by norm_num)))
  generalize roundDiv (num * Nat.pow 2 (-s).toNat) (den * Nat.pow 2 s.toNat) = m at rounds
  obtain ⟨full, bounded⟩ := scale_bounds (Nat.pos_of_ne_zero zero) pos chosen.symm
  have two : (0 : ℚ) < 2 ^ s := by positivity
  have le : m ≤ 2 * binadeSize := by
    refine rounds.le ?_
    rw [div_le_iff₀ two]
    exact_mod_cast bounded.le
  have ge : s = -1074 ∨ binadeSize ≤ m := by
    refine full.imp_right fun full => rounds.ge ?_
    rwa [le_div_iff₀ two]
  rcases lt_or_ge s 972 with most | beyond
  · obtain ⟨value, parity⟩ := magnitude_ofIndex (by omega) most le ge
    exact isNearest_of_rounds (isNumber_ofIndex _) value parity rounds full
  · have infinite : infinityIndex ≤ (s + 1074).toNat * binadeSize + m := by
      have := ge.resolve_left (by omega)
      unfold infinityIndex binadeSize at *
      omega
    rw [ofIndex_of_infinityIndex_le infinite]
    refine isNearest_infinity (le_trans ?_ (full.resolve_left (by omega)))
    rw [binadeSize_eq, ← zpow_add₀ (by norm_num)]
    exact zpow_le_zpow_right₀ (by norm_num) (by omega)

/-- Signs make no difference. -/
theorem IsNearest.withSign {q : ℚ} {x : Binary64} (h : IsNearest q x) (negative : Bool) :
    IsNearest q (x.withSign negative) :=
  ⟨h.isNumber, h.closest, h.even⟩

/-- The number computed from an integer is nearest to it. -/
theorem isNearest_ofInt (n : ℤ) : IsNearest |(n : ℚ)| (ofInt n) := by
  have nearest := isNearest_ofRatio n.natAbs Nat.one_pos
  rw [Nat.cast_one, div_one, Nat.cast_natAbs, Int.cast_abs] at nearest
  exact nearest.withSign _

end Binary64

/-! ### Decimal digits -/

namespace Numeral

open Binary64 (IsNearest)

/-- A number lies between the powers of ten that have as many digits as it, and one more. -/
theorem toDigits_bounds {n : ℕ} (pos : 0 < n) :
    (10 : ℚ) ^ (((Nat.toDigits 10 n).length : ℤ) - 1) ≤ n
      ∧ (n : ℚ) < 10 ^ ((Nat.toDigits 10 n).length : ℤ) := by
  obtain ⟨k, length⟩ : ∃ k, (Nat.toDigits 10 n).length = k + 1 :=
    Nat.exists_eq_add_one.mpr Nat.length_toDigits_pos
  have upper : n < 10 ^ (k + 1) :=
    (Nat.length_toDigits_le_iff (by norm_num) (Nat.succ_pos k)).mp length.le
  have lower : 10 ^ k ≤ n := by
    rcases Nat.eq_zero_or_pos k with rfl | positive
    · exact pos
    · by_contra less
      have := (Nat.length_toDigits_le_iff (by norm_num) positive).mpr (not_le.mp less)
      omega
  rw [length]
  push_cast
  rw [add_sub_cancel_right]
  exact ⟨by exact_mod_cast lower, by exact_mod_cast upper⟩

/-- **The magnitude that is computed from digits and an exponent is nearest to them.**  Beyond the
powers of ten that are tried there are no numbers but zero and infinity. -/
theorem isNearest_nearestMagnitude (digits : ℕ) (exponent : ℤ) :
    IsNearest (digits * 10 ^ exponent) (nearestMagnitude digits exponent) := by
  have power : (0 : ℚ) < 10 ^ exponent := by positivity
  unfold nearestMagnitude
  dsimp only
  split_ifs with zero large small
  · subst zero
    exact Binary64.isNearest_zero (by simp) (by simp)
  · obtain ⟨lower, -⟩ := toDigits_bounds (Nat.pos_of_ne_zero zero)
    refine Binary64.isNearest_infinity ?_
    have far : 2 ^ 1024 ≤ 10 ^ 310 := by decide +kernel
    calc (2 : ℚ) ^ (1024 : ℤ) ≤ 10 ^ (310 : ℤ) := by exact_mod_cast far
      _ ≤ 10 ^ (((Nat.toDigits 10 digits).length : ℤ) - 1 + exponent) :=
          zpow_le_zpow_right₀ (by norm_num) (by omega)
      _ = 10 ^ (((Nat.toDigits 10 digits).length : ℤ) - 1) * 10 ^ exponent :=
          zpow_add₀ (by norm_num) _ _
      _ ≤ digits * 10 ^ exponent := by gcongr
  · obtain ⟨-, upper⟩ := toDigits_bounds (Nat.pos_of_ne_zero zero)
    refine Binary64.isNearest_zero (by positivity) ?_
    have far : 2 ^ 1075 ≤ 10 ^ 331 := by decide +kernel
    calc (digits : ℚ) * 10 ^ exponent
        < 10 ^ ((Nat.toDigits 10 digits).length : ℤ) * 10 ^ exponent := by gcongr
      _ = 10 ^ (((Nat.toDigits 10 digits).length : ℤ) + exponent) :=
          (zpow_add₀ (by norm_num) _ _).symm
      _ ≤ 10 ^ (-331 : ℤ) := zpow_le_zpow_right₀ (by norm_num) (by omega)
      _ ≤ 2 ^ (-1075 : ℤ) := by
          rw [zpow_neg, zpow_neg]
          exact inv_anti₀ (by positivity) (by exact_mod_cast far)
  · have pos : 0 < Nat.pow 10 (-exponent).toNat := Nat.pow_pos (by norm_num)
    have nearest := Binary64.isNearest_ofRatio (digits * Nat.pow 10 exponent.toNat) pos
    have same : ((digits * Nat.pow 10 exponent.toNat : ℕ) : ℚ) / (Nat.pow 10 (-exponent).toNat : ℕ)
        = digits * 10 ^ exponent := by
      simp only [Nat.pow_eq, Nat.cast_mul, Nat.cast_pow, Nat.cast_ofNat]
      rw [div_eq_iff (by positivity), mul_assoc, ← zpow_natCast, ← zpow_natCast,
        ← zpow_add₀ (by norm_num)]
      congr 2
      omega
    rwa [same] at nearest

end Numeral

end ResourceQuery
