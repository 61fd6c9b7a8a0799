import ProximityLab.Number.Binary64
import Mathlib.Algebra.Order.Archimedean.Basic
import Mathlib.Algebra.Order.Field.Power
import Mathlib.Data.Rat.Cast.Order
import Mathlib.Tactic.FieldSimp
import Mathlib.Tactic.Linarith
import Mathlib.Tactic.NormNum
import Mathlib.Tactic.Positivity
import Mathlib.Tactic.Ring

/-!
# Which quotients round to a number

The magnitude of a finite double is `significand * 2 ^ exponent`, here as an exact rational
(`Binary64.value`). `Binary64.RoundsTo x v` says that `v` lies in the interval around the magnitude
of `x` whose quotients have `x` as their nearest double; the ends belong to it when the significand
is even.

* `roundDiv_eq`: a quotient within half a unit of a whole number is rounded to that number.
* `roundRatio_eq`: a quotient in the interval of `x` is rounded to `x`.
* `ofDecimal_eq`: so is a decimal.
-/

namespace ProximityLab

/-- A whole number is what a quotient is rounded to that is less than half a unit away, or half a
unit if the number is even. -/
theorem roundDiv_eq {num den m : Nat} (hden : 0 < den) (hlow : 2 * m * den ≤ 2 * num + den)
    (hhigh : 2 * num ≤ 2 * m * den + den)
    (hends : m % 2 = 1 → 2 * m * den ≠ 2 * num + den ∧ 2 * num ≠ 2 * m * den + den) :
    roundDiv num den = m := by
  have hdiv := Nat.div_add_mod num den
  have hmod := Nat.mod_lt num hden
  unfold roundDiv
  dsimp only
  generalize num / den = q at hdiv
  generalize num % den = r at hdiv hmod
  have hq : q = m ∨ q + 1 = m := by
    have hle : q ≤ m := by
      by_contra hlt
      have := Nat.mul_le_mul_right den (show m + 1 ≤ q by omega)
      nlinarith
    have hge : m ≤ q + 1 := by
      by_contra hlt
      have := Nat.mul_le_mul_right den (show q + 2 ≤ m by omega)
      nlinarith
    omega
  obtain rfl | rfl := hq
  · have hr : 2 * r ≤ den := by nlinarith
    have hhalf : 2 * r = den → q % 2 = 0 := fun h => by
      by_contra hodd
      exact (hends (by omega)).2 (by rw [← hdiv]; nlinarith)
    split <;> [rfl; split <;> [omega; (split <;> omega)]]
  · have hr : den ≤ 2 * r := by nlinarith
    have hhalf : 2 * r = den → (q + 1) % 2 = 0 := fun h => by
      by_contra hodd
      exact (hends (by omega)).1 (by rw [← hdiv]; nlinarith)
    split <;> [omega; split <;> [rfl; (split <;> omega)]]

/-! ## Powers -/

/-- A power as a quotient of two powers with natural exponents, one of which is one. -/
theorem zpow_eq_div (b : ℚ) (e : Int) : b ^ e = b ^ e.toNat / b ^ (-e).toNat := by
  obtain ⟨k, rfl | rfl⟩ := e.eq_nat_or_neg
  · simp
  · simp

namespace Binary64

/-- The magnitude of a finite number. -/
def value (x : Binary64) : ℚ := x.significand * 2 ^ x.exponent

/-- Half a unit of the significand, or a quarter below a power of two, where numbers lie closer. -/
def gapBelow (x : Binary64) : ℚ := if x.fraction = 0 ∧ 1 < x.exponentBits then 1 / 4 else 1 / 2

/-- The quotient has this number as its nearest one. -/
structure RoundsTo (x : Binary64) (v : ℚ) : Prop where
  low : (x.significand - x.gapBelow) * 2 ^ x.exponent ≤ v
  high : v ≤ (x.significand + 1 / 2) * 2 ^ x.exponent
  /-- The ends belong to the interval if the significand is even. -/
  ends : x.significand % 2 = 1 →
    (x.significand - x.gapBelow) * 2 ^ x.exponent ≠ v ∧ v ≠ (x.significand + 1 / 2) * 2 ^ x.exponent

/-! ## The parts of a word -/

variable {x : Binary64}

theorem fraction_lt (x : Binary64) : x.fraction < 0x10000000000000 := Nat.mod_lt _ (by decide)

theorem exponentBits_lt_of_isFinite (h : x.isFinite = true) : x.exponentBits < 2047 := by
  have hlt : x.exponentBits < 0x800 := Nat.mod_lt _ (by decide)
  have hne : x.exponentBits ≠ 2047 := by simpa [isFinite] using h
  omega

theorem isNaN_of_isFinite (h : x.isFinite = true) : x.isNaN = false := by
  have hne : x.exponentBits ≠ 2047 := (exponentBits_lt_of_isFinite h).ne
  simp [isNaN, hne]

theorem magnitude_eq_bits (x : Binary64) :
    x.magnitude = x.exponentBits * 0x10000000000000 + x.fraction := by
  unfold magnitude exponentBits fraction
  omega

/-- The word is a count of multiples of the grid power: a carry out of the fraction moves to the
next power. -/
theorem magnitude_eq (x : Binary64) :
    x.magnitude = (x.exponent + 1074).toNat * 0x10000000000000 + x.significand := by
  rw [magnitude_eq_bits, exponent, significand]
  by_cases h : x.exponentBits = 0
  · simp [h]
  · have hcount : ((x.exponentBits : Int) - 1075 + 1074).toNat = x.exponentBits - 1 := by omega
    rw [if_neg h, if_neg h, hcount]
    omega

theorem ofMagnitude_self (x : Binary64) : ofMagnitude x.negative x.magnitude = x := by
  obtain ⟨b⟩ := x
  have hlt := b.isLt
  simp only [ofMagnitude, negative, magnitude, mk.injEq, BitVec.msb_eq_decide]
  apply BitVec.eq_of_toNat_eq
  rw [BitVec.toNat_ofNat]
  split <;> rename_i h <;> simp at h <;> omega

theorem significand_lt (x : Binary64) : x.significand < 2 ^ 53 := by
  have := x.fraction_lt
  unfold significand
  split <;> omega

theorem le_exponent (x : Binary64) : -1074 ≤ x.exponent := by
  unfold exponent
  split <;> omega

theorem exponent_le (h : x.isFinite = true) : x.exponent ≤ 971 := by
  have := exponentBits_lt_of_isFinite h
  unfold exponent
  split <;> omega

/-- A number that is not counted in multiples of the least power has all its 53 bits. -/
theorem le_significand (h : -1074 < x.exponent) : 2 ^ 52 ≤ x.significand := by
  unfold exponent at h
  unfold significand
  split at h <;> simp_all

theorem significand_pos (h : x.magnitude ≠ 0) : 0 < x.significand := by
  have hbits := x.magnitude_eq_bits
  unfold significand
  split <;> omega

theorem gapBelow_le (x : Binary64) : x.gapBelow ≤ 1 / 2 := by
  unfold gapBelow
  split <;> norm_num

theorem gapBelow_pos (x : Binary64) : 1 / 4 ≤ x.gapBelow := by
  unfold gapBelow
  split <;> norm_num

/-- Where the gap is narrow the significand is the least one with 53 bits. -/
theorem gapBelow_eq (x : Binary64) :
    x.gapBelow = 1 / 2 ∨ x.gapBelow = 1 / 4 ∧ x.significand = 2 ^ 52 := by
  unfold gapBelow significand
  split <;> rename_i h
  · right
    rw [if_neg (by omega)]
    simp [h.1]
  · left
    rfl

/-- Below a power of two above the least the gap is narrow. -/
theorem gapBelow_of_significand (hx : -1074 < x.exponent) (h : x.significand = 2 ^ 52) :
    x.gapBelow = 1 / 4 := by
  unfold exponent at hx
  unfold significand at h
  split at hx
  · omega
  · rw [if_neg (by omega)] at h
    exact if_pos ⟨by omega, by omega⟩

/-! ## Rounding on a grid -/

/-- Counting on a grid takes one quotient, with the grid power on one of its sides. -/
theorem roundDiv_grid_eq (num den : Nat) (e : Int) :
    (if 0 ≤ e then roundDiv num (den * Nat.pow 2 e.toNat)
      else roundDiv (num * Nat.pow 2 (-e).toNat) den) =
        roundDiv (num * 2 ^ (-e).toNat) (den * 2 ^ e.toNat) := by
  split
  · rw [show (-e).toNat = 0 by omega, pow_zero, mul_one]
    rfl
  · rw [show e.toNat = 0 by omega, pow_zero, mul_one]
    rfl

/-- A quotient in multiples of the grid power. -/
theorem div_eq_grid (num : Nat) {den : Nat} (hden : 0 < den) (e : Int) :
    (num / den : ℚ) = ((num * 2 ^ (-e).toNat : Nat) : ℚ) / ((den * 2 ^ e.toNat : Nat) : ℚ) *
      2 ^ e := by
  have hd : (0 : ℚ) < den := by exact_mod_cast hden
  rw [zpow_eq_div]
  push_cast
  field_simp

/-- A quotient less than half a multiple of the grid power away from a multiple is rounded to it. -/
theorem roundDiv_grid {num den m : Nat} {e : Int} (hden : 0 < den)
    (hlow : (m - 1 / 2 : ℚ) * 2 ^ e ≤ num / den) (hhigh : (num / den : ℚ) ≤ (m + 1 / 2) * 2 ^ e)
    (hends : m % 2 = 1 →
      (m - 1 / 2 : ℚ) * 2 ^ e ≠ num / den ∧ (num / den : ℚ) ≠ (m + 1 / 2) * 2 ^ e) :
    (if 0 ≤ e then roundDiv num (den * Nat.pow 2 e.toNat)
      else roundDiv (num * Nat.pow 2 (-e).toNat) den) = m := by
  have hgrid : (0 : ℚ) < 2 ^ e := by positivity
  have hquot := div_eq_grid num hden e
  have hB : (0 : ℚ) < ((den * 2 ^ e.toNat : Nat) : ℚ) := by positivity
  rw [roundDiv_grid_eq]
  rw [hquot] at hlow hhigh hends
  generalize num * 2 ^ (-e).toNat = A at hlow hhigh hends
  generalize den * 2 ^ e.toNat = B at hB hlow hhigh hends
  replace hlow := (le_div_iff₀ hB).1 (le_of_mul_le_mul_right hlow hgrid)
  replace hhigh := (div_le_iff₀ hB).1 (le_of_mul_le_mul_right hhigh hgrid)
  refine roundDiv_eq (by exact_mod_cast hB) ?_ ?_ fun hodd => ⟨fun h => ?_, fun h => ?_⟩
  · have h : (2 * m * B : ℚ) ≤ 2 * A + B := by linarith
    exact_mod_cast h
  · have h : (2 * A : ℚ) ≤ 2 * m * B + B := by linarith
    exact_mod_cast h
  · have h : (2 * m * B : ℚ) = 2 * A + B := by exact_mod_cast h
    refine (hends hodd).1 ?_
    rw [show (m - 1 / 2 : ℚ) = A / B by field_simp; linarith]
  · have h : (2 * A : ℚ) = 2 * m * B + B := by exact_mod_cast h
    refine (hends hodd).2 ?_
    rw [show (m + 1 / 2 : ℚ) = A / B by field_simp; linarith]

/-- The count of bits of a natural number, in powers of two. -/
theorem log2_bounds {n : Nat} (h : n ≠ 0) :
    (2 : ℚ) ^ (n.log2 : Int) ≤ n ∧ (n : ℚ) < 2 ^ (n.log2 + 1 : Int) := by
  constructor
  · rw [zpow_natCast]
    exact_mod_cast Nat.log2_self_le h
  · have hlt : (n : ℚ) < (2 : ℚ) ^ (n.log2 + 1) := by exact_mod_cast Nat.lt_log2_self
    exact_mod_cast hlt

/-- Comparing a quotient with a power of two takes natural numbers only. -/
theorem two_zpow_le_div_iff {num den : Nat} (hden : den ≠ 0) (e : Int) :
    (2 : ℚ) ^ e ≤ num / den ↔ den * 2 ^ e.toNat ≤ num * 2 ^ (-e).toNat := by
  have hpos : (0 : ℚ) < den := by positivity
  rw [zpow_eq_div, div_le_div_iff₀ (by positivity) hpos, mul_comm (_ ^ e.toNat)]
  exact_mod_cast Iff.rfl

/-- The difference of the counts of bits is an estimate of a quotient's power of two: that power or
the next. -/
theorem log2_sub_bounds {num den : Nat} (hnum : num ≠ 0) (hden : den ≠ 0) :
    (2 : ℚ) ^ ((num.log2 : Int) - den.log2 - 1) < num / den ∧
      (num / den : ℚ) < 2 ^ ((num.log2 : Int) - den.log2 + 1) := by
  obtain ⟨hn, hn'⟩ := log2_bounds hnum
  obtain ⟨hd, hd'⟩ := log2_bounds hden
  have hpos : (0 : ℚ) < den := by positivity
  constructor
  · rw [lt_div_iff₀ hpos]
    calc (2 : ℚ) ^ ((num.log2 : Int) - den.log2 - 1) * den
        < 2 ^ ((num.log2 : Int) - den.log2 - 1) * 2 ^ ((den.log2 : Int) + 1) :=
          mul_lt_mul_of_pos_left hd' (by positivity)
      _ = 2 ^ (num.log2 : Int) := by
          rw [← zpow_add₀ two_ne_zero]
          congr 1
          omega
      _ ≤ _ := hn
  · rw [div_lt_iff₀ hpos]
    calc (num : ℚ) < 2 ^ ((num.log2 : Int) + 1) := hn'
      _ = 2 ^ ((num.log2 : Int) - den.log2 + 1) * 2 ^ (den.log2 : Int) := by
          rw [← zpow_add₀ two_ne_zero]
          congr 1
          omega
      _ ≤ _ := mul_le_mul_of_nonneg_left hd (by positivity)

/-- The grid power of a quotient between two powers of two. -/
theorem gridExponent_eq {num den : Nat} {l : Int} (hnum : num ≠ 0) (hden : den ≠ 0)
    (hlow : (2 : ℚ) ^ l ≤ num / den) (hhigh : (num / den : ℚ) < 2 ^ (l + 1)) :
    gridExponent num den = max (-1074) (l - 52) := by
  obtain ⟨hgt, hlt⟩ := log2_sub_bounds hnum hden
  have hle : l < (num.log2 : Int) - den.log2 + 1 :=
    (zpow_lt_zpow_iff_right₀ one_lt_two).1 (hlow.trans_lt hlt)
  have hge : (num.log2 : Int) - den.log2 - 1 < l + 1 :=
    (zpow_lt_zpow_iff_right₀ one_lt_two).1 (hgt.trans hhigh)
  unfold gridExponent
  dsimp only
  generalize (num.log2 : Int) - den.log2 = estimate at hle hge
  have hreached : (if 0 ≤ estimate then decide (den * Nat.pow 2 estimate.toNat ≤ num)
      else decide (den ≤ num * Nat.pow 2 (-estimate).toNat)) =
        decide ((2 : ℚ) ^ estimate ≤ num / den) := by
    rw [Bool.eq_iff_iff, decide_eq_true_iff, two_zpow_le_div_iff hden]
    split
    · simp [show (-estimate).toNat = 0 by omega]
    · simp [show estimate.toNat = 0 by omega]
  rw [hreached]
  by_cases h : (2 : ℚ) ^ estimate ≤ num / den
  · have : estimate < l + 1 := (zpow_lt_zpow_iff_right₀ one_lt_two).1 (h.trans_lt hhigh)
    rw [if_pos (decide_eq_true h)]
    omega
  · have : l < estimate := (zpow_lt_zpow_iff_right₀ one_lt_two).1 (hlow.trans_lt (not_le.1 h))
    rw [if_neg (by simpa using h)]
    omega

/-! ## Rounding to the nearest number -/

/-- A quotient between two neighbouring grid points of a power, the upper end excluded, is counted
on the grid of that power. -/
theorem roundRatio_grid {num den q : Nat} {e : Int} (negative : Bool) (hnum : num ≠ 0)
    (hden : den ≠ 0) (he : gridExponent num den = e) (hlow : (q - 1 / 2 : ℚ) * 2 ^ e ≤ num / den)
    (hhigh : (num / den : ℚ) ≤ (q + 1 / 2) * 2 ^ e)
    (hends : q % 2 = 1 →
      (q - 1 / 2 : ℚ) * 2 ^ e ≠ num / den ∧ (num / den : ℚ) ≠ (q + 1 / 2) * 2 ^ e) :
    roundRatio negative num den =
      ofMagnitude negative (min ((e + 1074).toNat * 0x10000000000000 + q) infiniteMagnitude) := by
  unfold roundRatio
  rw [if_neg hnum]
  dsimp only
  rw [he, roundDiv_grid (Nat.pos_of_ne_zero hden) hlow hhigh hends]

theorem magnitude_lt_infinite (h : x.isFinite = true) : x.magnitude < infiniteMagnitude := by
  have hbits := x.magnitude_eq_bits
  have hlt := exponentBits_lt_of_isFinite h
  have hfrac := x.fraction_lt
  unfold infiniteMagnitude
  omega

/-- A quotient that is not below the significands of the grid power of a number has that grid
power. -/
theorem gridExponent_of_roundsTo {num den : Nat} (hnum : num ≠ 0) (hden : den ≠ 0)
    (h : x.RoundsTo (num / den))
    (hlow : (2 : ℚ) ^ (x.exponent + 52) ≤ num / den ∨ x.exponent = -1074) :
    gridExponent num den = x.exponent := by
  have hhigh : (num / den : ℚ) < 2 ^ (x.exponent + 52 + 1) := by
    have hm : (x.significand : ℚ) + 1 ≤ 2 ^ 53 := by exact_mod_cast x.significand_lt
    calc (num / den : ℚ) ≤ (x.significand + 1 / 2) * 2 ^ x.exponent := h.high
      _ < 2 ^ 53 * 2 ^ x.exponent := mul_lt_mul_of_pos_right (by linarith) (by positivity)
      _ = 2 ^ (x.exponent + 52 + 1) := by
          rw [add_assoc, zpow_add₀ two_ne_zero, mul_comm]
          rfl
  have hle := x.le_exponent
  by_cases hlow' : (2 : ℚ) ^ (x.exponent + 52) ≤ num / den
  · rw [gridExponent_eq hnum hden hlow' hhigh]
    omega
  · have hleast := hlow.resolve_left hlow'
    -- a quotient below all of them is counted in multiples of the least power
    obtain ⟨l, hl, hl'⟩ := exists_mem_Ico_zpow (x := (num / den : ℚ)) (by positivity) one_lt_two
    have hlt : l < x.exponent + 52 :=
      (zpow_lt_zpow_iff_right₀ one_lt_two).1 (hl.trans_lt (not_le.1 hlow'))
    rw [gridExponent_eq hnum hden hl hl']
    omega

/-- A number that is the nearest one of something below the significands of its grid power is a
power of two. -/
theorem RoundsTo.significand_eq {v : ℚ} (h : x.RoundsTo v) (hexp : -1074 < x.exponent)
    (hbelow : v < 2 ^ 52 * 2 ^ x.exponent) : x.significand = 2 ^ 52 := by
  have hlt : (x.significand - x.gapBelow : ℚ) < 2 ^ 52 :=
    lt_of_mul_lt_mul_right (h.low.trans_lt hbelow) (by positivity)
  have hlt : (x.significand : ℚ) < 2 ^ 52 + 1 := by linarith [x.gapBelow_le]
  have hlt : x.significand < 2 ^ 52 + 1 := by exact_mod_cast hlt
  have := le_significand hexp
  omega

/-- Below a power of two the grid is finer, and the power is the upper end of the finer grid. -/
theorem roundRatio_below (hx : x.isFinite = true) {num den : Nat} (hnum : num ≠ 0) (hden : den ≠ 0)
    (h : x.RoundsTo (num / den)) (hexp : -1074 < x.exponent)
    (hbelow : (num / den : ℚ) < 2 ^ 52 * 2 ^ x.exponent) :
    roundRatio x.negative num den = x := by
  have hs := h.significand_eq hexp hbelow
  have hhalf : (2 : ℚ) ^ x.exponent = 2 * 2 ^ (x.exponent - 1) := by
    rw [← zpow_one_add₀ two_ne_zero]
    congr 1
    omega
  have hfine : (0 : ℚ) < 2 ^ (x.exponent - 1) := by positivity
  have hv := h.low
  rw [hs, gapBelow_of_significand hexp hs, hhalf] at hv
  rw [hhalf] at hbelow
  push_cast at hv
  have hgrid : gridExponent num den = x.exponent - 1 := by
    have hl : (2 : ℚ) ^ (x.exponent + 51) ≤ num / den := by
      rw [show x.exponent + 51 = 52 + (x.exponent - 1) by omega, zpow_add₀ two_ne_zero]
      refine le_trans ?_ hv
      norm_num
      linarith
    have hl' : (num / den : ℚ) < 2 ^ (x.exponent + 51 + 1) := by
      rw [show x.exponent + 51 + 1 = 53 + (x.exponent - 1) by omega, zpow_add₀ two_ne_zero]
      refine hbelow.trans_le (le_of_eq ?_)
      norm_num
      ring
    rw [gridExponent_eq hnum hden hl hl']
    omega
  rw [roundRatio_grid (q := 2 ^ 53) x.negative hnum hden hgrid ?_ ?_ (by norm_num)]
  · have hcount : (x.exponent - 1 + 1074).toNat * 0x10000000000000 + 2 ^ 53 = x.magnitude := by
      rw [magnitude_eq, hs]
      omega
    rw [hcount, min_eq_left (magnitude_lt_infinite hx).le, ofMagnitude_self]
  · push_cast
    linarith
  · push_cast
    linarith

/-- A quotient that has a number as its nearest one is rounded to that number. -/
theorem roundRatio_eq (hx : x.isFinite = true) (hm : x.magnitude ≠ 0) {num den : Nat}
    (hden : den ≠ 0) (h : x.RoundsTo (num / den)) : roundRatio x.negative num den = x := by
  have hpos : (0 : ℚ) < 2 ^ x.exponent := by positivity
  have hsig : (1 : ℚ) ≤ x.significand := by exact_mod_cast significand_pos hm
  have hnum : num ≠ 0 := by
    rintro rfl
    have := h.low
    have := x.gapBelow_le
    simp only [Nat.cast_zero, zero_div] at *
    nlinarith
  by_cases hlow : (2 : ℚ) ^ (x.exponent + 52) ≤ num / den ∨ x.exponent = -1074
  · have hends : x.significand % 2 = 1 → x.gapBelow = 1 / 2 := fun hodd => by
      obtain hgap | ⟨-, hs⟩ := x.gapBelow_eq
      · exact hgap
      · rw [hs] at hodd
        exact absurd hodd (by decide)
    rw [roundRatio_grid x.negative hnum hden (gridExponent_of_roundsTo hnum hden h hlow) ?_ h.high
      ?_, ← magnitude_eq, min_eq_left (magnitude_lt_infinite hx).le, ofMagnitude_self]
    · exact (mul_le_mul_of_nonneg_right (by linarith [x.gapBelow_le]) hpos.le).trans h.low
    · intro hodd
      have := h.ends hodd
      rwa [hends hodd] at this
  · obtain ⟨hbelow, hleast⟩ := not_or.1 hlow
    rw [not_le, zpow_add₀ two_ne_zero, mul_comm] at hbelow
    exact roundRatio_below hx hnum hden h (lt_of_le_of_ne x.le_exponent (Ne.symm hleast)) hbelow

/-! ## Decimals -/

/-- The count of decimal digits, in powers of ten. -/
theorem decimalLength_bounds {n : Nat} (h : n ≠ 0) :
    10 ^ (decimalLength n - 1) ≤ n ∧ n < 10 ^ decimalLength n ∧ 0 < decimalLength n := by
  have hpos : 0 < decimalLength n := Nat.length_toDigits_pos
  have hle {k : Nat} (hk : 0 < k) : decimalLength n ≤ k ↔ n < 10 ^ k :=
    Nat.length_toDigits_le_iff (by decide) hk
  refine ⟨?_, (hle hpos).1 le_rfl, hpos⟩
  by_cases hone : decimalLength n = 1
  · rw [hone]
    exact Nat.pos_of_ne_zero h
  · by_contra hlt
    have := (hle (show 0 < decimalLength n - 1 by omega)).2 (not_le.1 hlt)
    omega

theorem two_pow_le_ten_pow : (2 : ℚ) ^ 1023 ≤ 10 ^ 308 :=
  calc (2 : ℚ) ^ 1023 = (2 ^ 93) ^ 11 := by rw [← pow_mul]
    _ ≤ (10 ^ 28) ^ 11 := pow_le_pow_left₀ (by positivity) (by norm_num) 11
    _ = 10 ^ 308 := by rw [← pow_mul]

/-- All quotients that round to a number other than zero are within the powers of ten that are
multiplied out. -/
theorem RoundsTo.bounds {v : ℚ} (hx : x.isFinite = true) (hm : x.magnitude ≠ 0) (h : x.RoundsTo v) :
    (10 : ℚ) ^ (-331 : Int) ≤ v ∧ v < 10 ^ (310 : Int) := by
  constructor
  · have hsig : (1 : ℚ) ≤ x.significand := by exact_mod_cast significand_pos hm
    have hpow : (2 : ℚ) ^ (-1074 : Int) ≤ 2 ^ x.exponent :=
      zpow_le_zpow_right₀ one_le_two x.le_exponent
    have hleast : (10 : ℚ) ^ (-331 : Int) ≤ 1 / 2 * 2 ^ (-1074 : Int) := by
      have hpow : (2 : ℚ) ^ 1075 ≤ 10 ^ 331 :=
        calc (2 : ℚ) ^ 1075 = 2 ^ 1023 * 2 ^ 52 := by rw [← pow_add]
          _ ≤ 10 ^ 308 * 10 ^ 23 :=
            mul_le_mul two_pow_le_ten_pow (by norm_num) (by positivity) (by positivity)
          _ = 10 ^ 331 := by rw [← pow_add]
      calc (10 : ℚ) ^ (-331 : Int) = (10 ^ 331)⁻¹ := by rw [zpow_neg]; rfl
        _ ≤ (2 ^ 1075)⁻¹ := inv_anti₀ (by positivity) hpow
        _ = 1 / 2 * 2 ^ (-1074 : Int) := by
            rw [zpow_neg, pow_succ', mul_inv, one_div]
            rfl
    calc (10 : ℚ) ^ (-331 : Int) ≤ 1 / 2 * 2 ^ (-1074 : Int) := hleast
      _ ≤ (x.significand - x.gapBelow) * 2 ^ x.exponent :=
          mul_le_mul (by linarith [x.gapBelow_le]) hpow (by positivity)
          (by linarith [x.gapBelow_le])
      _ ≤ v := h.low
  · have hsig : (x.significand : ℚ) + 1 ≤ 2 ^ 53 := by exact_mod_cast x.significand_lt
    have hpow : (2 : ℚ) ^ x.exponent ≤ 2 ^ (971 : Int) :=
      zpow_le_zpow_right₀ one_le_two (exponent_le hx)
    calc v ≤ (x.significand + 1 / 2) * 2 ^ x.exponent := h.high
      _ ≤ 2 ^ 53 * 2 ^ (971 : Int) := mul_le_mul (by linarith) hpow (by positivity) (by positivity)
      _ = 2 * 2 ^ 1023 := by
          rw [← pow_succ', zpow_ofNat, ← pow_add]
      _ ≤ 2 * 10 ^ 308 := mul_le_mul_of_nonneg_left two_pow_le_ten_pow (by norm_num)
      _ < 10 ^ 2 * 10 ^ 308 := mul_lt_mul_of_pos_right (by norm_num) (by positivity)
      _ = 10 ^ (310 : Int) := by
          rw [zpow_ofNat, ← pow_add]

/-- A decimal that has a number as its nearest one is rounded to that number. -/
theorem ofDecimal_eq (hx : x.isFinite = true) (hm : x.magnitude ≠ 0) {digits : Nat} {power : Int}
    (h : x.RoundsTo (digits * 10 ^ power)) : ofDecimal x.negative digits power = x := by
  obtain ⟨hlow, hhigh⟩ := h.bounds hx hm
  have hdigits : digits ≠ 0 := by
    rintro rfl
    exact absurd hlow (by norm_num)
  obtain ⟨hlen, hlen', hone⟩ := decimalLength_bounds hdigits
  have hten : (0 : ℚ) < 10 ^ power := by positivity
  have htop : ¬ 310 < (decimalLength digits : Int) + power := fun hlt => by
    have hle : (10 : ℚ) ^ ((decimalLength digits - 1 : Nat) : Int) ≤ digits := by
      exact_mod_cast hlen
    have : (10 : ℚ) ^ (310 : Int) ≤ digits * 10 ^ power :=
      calc (10 : ℚ) ^ (310 : Int) ≤ 10 ^ (((decimalLength digits - 1 : Nat) : Int) + power) :=
            zpow_le_zpow_right₀ (by norm_num) (by omega)
        _ ≤ _ := by
            rw [zpow_add₀ (by norm_num)]
            exact mul_le_mul_of_nonneg_right hle hten.le
    linarith
  have hbottom : ¬ (decimalLength digits : Int) + power < -330 := fun hlt => by
    have hle : (digits : ℚ) < 10 ^ (decimalLength digits : Int) := by exact_mod_cast hlen'
    have : (digits * 10 ^ power : ℚ) < 10 ^ (-331 : Int) :=
      calc (digits * 10 ^ power : ℚ) < 10 ^ ((decimalLength digits : Int) + power) := by
            rw [zpow_add₀ (by norm_num)]
            exact mul_lt_mul_of_pos_right hle hten
        _ ≤ _ := zpow_le_zpow_right₀ (by norm_num) (by omega)
    linarith
  unfold ofDecimal
  rw [if_neg hdigits]
  dsimp only
  rw [if_neg htop, if_neg hbottom]
  split
  · rename_i hpower
    refine roundRatio_eq hx hm one_ne_zero ?_
    obtain ⟨k, rfl⟩ := Int.eq_ofNat_of_zero_le hpower
    simpa using h
  · rename_i hpower
    obtain ⟨k, hk⟩ := Int.eq_ofNat_of_zero_le (show 0 ≤ -power by omega)
    obtain rfl : power = -(k : Int) := by omega
    refine roundRatio_eq hx hm (pow_ne_zero _ (by decide)) ?_
    simpa [div_eq_mul_inv] using h

end Binary64

end ProximityLab
