import ProximityLab.Proofs.Number.Whole

/-!
# Values of rounded quotients and products

What a quotient is rounded to, as an exact rational, and how far that is from the quotient:

- **Whole numbers** (`roundDiv_congr`, `le_roundDiv`, `roundDiv_le_of_le`): rounding depends on the
  quotient alone, and does not move past a whole number.
- **Doubles** (`value_roundRatio`, `roundRatio_error`): a quotient between two powers of two is
  rounded to a multiple of the grid power, and that is within `2 ^ -53` of it in proportion.
- **Products** (`value_mul`, `mul_error`): the same for the product of two numbers without a sign.
  `mul_near` is a coarse bound for products of a moderate size.
- **Units** (`scaled_le`, `le_scaled`): a number in smaller units does not move past a whole number
  either.
-/

namespace ProximityLab

/-! ## Rounding to whole numbers -/

variable {num den : Nat}

theorem roundDiv_one (n : Nat) : roundDiv n 1 = n := by simp [roundDiv, Nat.mod_one]

/-- A whole number that is not above a quotient is not above what it is rounded to. -/
theorem le_roundDiv {m : Nat} (hden : 0 < den) (h : m * den ≤ num) : m ≤ roundDiv num den := by
  have hle : m ≤ num / den := (Nat.le_div_iff_mul_le hden).2 h
  unfold roundDiv
  dsimp only
  split <;> [omega; split <;> [omega; (split <;> omega)]]

/-- A whole number that is not below a quotient is not below what it is rounded to. -/
theorem roundDiv_le_of_le {m : Nat} (hden : 0 < den) (h : num ≤ m * den) :
    roundDiv num den ≤ m := by
  rcases h.eq_or_lt with rfl | hlt
  · have hmod : m * den % den = 0 := Nat.mul_mod_left m den
    have hdiv : m * den / den = m := Nat.mul_div_cancel m hden
    rw [roundDiv, hmod, hdiv, if_pos (by omega)]
  · have hdiv : num / den < m := (Nat.div_lt_iff_lt_mul hden).2 hlt
    exact (Binary64.roundDiv_le num den).trans hdiv

theorem roundDiv_bounds (num : Nat) (hden : 0 < den) :
    2 * roundDiv num den * den ≤ 2 * num + den ∧ 2 * num ≤ 2 * roundDiv num den * den + den := by
  have hdiv := Nat.div_add_mod num den
  have hmod := Nat.mod_lt num hden
  unfold roundDiv
  dsimp only
  generalize num / den = q at hdiv
  generalize num % den = r at hdiv hmod
  have hup : 2 * (q + 1) * den = 2 * (den * q) + 2 * den := by ring
  have hdown : 2 * q * den = 2 * (den * q) := by ring
  generalize den * q = p at hdiv hup hdown
  split <;> [omega; split <;> [omega; (split <;> omega)]]

/-- A quotient is at most half a unit away from what it is rounded to. -/
theorem roundDiv_error (num : Nat) (hden : 0 < den) :
    |(roundDiv num den : ℚ) - num / den| ≤ 1 / 2 := by
  obtain ⟨habove, hbelow⟩ := roundDiv_bounds num hden
  have hd : (0 : ℚ) < den := by exact_mod_cast hden
  have habove : (2 * roundDiv num den * den : ℚ) ≤ 2 * num + den := by exact_mod_cast habove
  have hbelow : (2 * num : ℚ) ≤ 2 * roundDiv num den * den + den := by exact_mod_cast hbelow
  have hlow : (roundDiv num den - 1 / 2 : ℚ) ≤ num / den := (le_div_iff₀ hd).2 (by linarith)
  have hhigh : (num / den : ℚ) ≤ roundDiv num den + 1 / 2 := (div_le_iff₀ hd).2 (by linarith)
  exact abs_le.2 ⟨by linarith, by linarith⟩

theorem roundDiv_mul_right {k : Nat} (hk : 0 < k) (num den : Nat) :
    roundDiv (num * k) (den * k) = roundDiv num den := by
  have hless : 2 * (num % den * k) < den * k ↔ 2 * (num % den) < den := by
    rw [← mul_assoc]
    exact Nat.mul_lt_mul_right hk
  have hmore : den * k < 2 * (num % den * k) ↔ den < 2 * (num % den) := by
    rw [← mul_assoc]
    exact Nat.mul_lt_mul_right hk
  unfold roundDiv
  simp only [Nat.mul_div_mul_right _ _ hk, Nat.mul_mod_mul_right, hless, hmore]

/-- Rounding depends on the quotient alone. -/
theorem roundDiv_congr {a b : Nat} (hden : 0 < den) (hb : 0 < b) (h : (num / den : ℚ) = a / b) :
    roundDiv num den = roundDiv a b := by
  have hd : (den : ℚ) ≠ 0 := by positivity
  have hb' : (b : ℚ) ≠ 0 := by positivity
  have hcross : num * b = a * den := by exact_mod_cast (div_eq_div_iff hd hb').1 h
  calc roundDiv num den = roundDiv (num * b) (den * b) := (roundDiv_mul_right hb num den).symm
    _ = roundDiv (a * den) (b * den) := by rw [hcross, Nat.mul_comm den b]
    _ = roundDiv a b := roundDiv_mul_right hden a b

namespace Binary64

/-! ## Words with all their bits -/

/-- The number of a word in front of which the power of two is counted, with all 53 bits. -/
theorem ofMagnitude_spec {k q : Nat} (hk : k ≤ 2045) (hlow : 2 ^ 52 ≤ q) (hhigh : q < 2 ^ 53) :
    (ofMagnitude false (k * 0x10000000000000 + q)).isFinite = true ∧
      (ofMagnitude false (k * 0x10000000000000 + q)).value = q * 2 ^ ((k : Int) - 1074) := by
  obtain ⟨-, hmagnitude⟩ := ofMagnitude_parts (m := k * 0x10000000000000 + q) (by omega)
  generalize ofMagnitude false (k * 0x10000000000000 + q) = x at hmagnitude
  have hparts := x.magnitude_eq_bits
  have hfraction := x.fraction_lt
  have hbits : x.exponentBits = k + 1 := by omega
  have hsignificand : x.significand = q := by
    rw [significand, hbits, if_neg (by omega)]
    omega
  have hexponent : x.exponent = (k : Int) - 1074 := by
    rw [exponent, hbits, if_neg (by omega)]
    omega
  constructor
  · rw [isFinite, hbits]
    exact bne_iff_ne.2 (by omega)
  · rw [value, hsignificand, hexponent]

/-- A carry out of the 53 bits doubles the power of two. -/
theorem ofMagnitude_carry {k q : Nat} (hk : k ≤ 2044) (hlow : 2 ^ 52 ≤ q) (hhigh : q ≤ 2 ^ 53) :
    (ofMagnitude false (k * 0x10000000000000 + q)).isFinite = true ∧
      (ofMagnitude false (k * 0x10000000000000 + q)).value = q * 2 ^ ((k : Int) - 1074) := by
  rcases hhigh.eq_or_lt with rfl | hhigh
  · have hnext : k * 0x10000000000000 + 2 ^ 53 = (k + 1) * 0x10000000000000 + 2 ^ 52 := by omega
    obtain ⟨hfinite, hvalue⟩ :=
      ofMagnitude_spec (k := k + 1) (q := 2 ^ 52) (by omega) le_rfl (by decide)
    rw [hnext]
    refine ⟨hfinite, hvalue.trans ?_⟩
    rw [show ((k + 1 : Nat) : Int) - 1074 =
      1 + ((k : Int) - 1074) by push_cast; ring, zpow_one_add₀ two_ne_zero]
    push_cast
    ring
  · exact ofMagnitude_spec (by omega) hlow hhigh

/-! ## Quotients -/

variable {l : Int}

/-- A quotient between two powers of two is rounded on the grid of the lower one. -/
theorem value_roundRatio (hden : 0 < den) {a b : Nat} (hb : 0 < b) (hl : -1022 ≤ l) (hl' : l ≤ 1022)
    (hlow : (2 : ℚ) ^ l ≤ num / den) (hhigh : (num / den : ℚ) < 2 ^ (l + 1))
    (hgrid : (num / den : ℚ) = a / b * 2 ^ (l - 52)) :
    (roundRatio false num den).isFinite = true ∧
      (roundRatio false num den).value = roundDiv a b * 2 ^ (l - 52) ∧ 2 ^ 52 ≤ roundDiv a b := by
  have hpower : (0 : ℚ) < 2 ^ (l - 52) := by positivity
  have hb' : (0 : ℚ) < b := by exact_mod_cast hb
  have hnum : num ≠ 0 := by
    rintro rfl
    have hpos : (0 : ℚ) < 2 ^ l := by positivity
    simp only [Nat.cast_zero, zero_div] at hlow
    linarith
  have hquotient : ((num * 2 ^ (-(l - 52)).toNat : Nat) / (den * 2 ^ (l - 52).toNat : Nat) : ℚ) =
      a / b := by
    apply mul_right_cancel₀ hpower.ne'
    rw [← div_eq_grid num hden, hgrid]
  have hround := roundDiv_congr (by positivity) hb hquotient
  -- the quotient in multiples of the grid power has 53 bits
  have hleast : 2 ^ 52 ≤ roundDiv a b := by
    apply le_roundDiv hb
    rw [hgrid, show l = 52 + (l - 52) by omega, zpow_add₀ two_ne_zero, add_sub_cancel_left] at hlow
    have hle := (le_div_iff₀ hb').1 (le_of_mul_le_mul_right hlow hpower)
    exact_mod_cast hle
  have hmost : roundDiv a b ≤ 2 ^ 53 := by
    apply roundDiv_le_of_le hb
    rw [hgrid, show l + 1 = 53 + (l - 52) by omega, zpow_add₀ two_ne_zero] at hhigh
    have hlt := (div_lt_iff₀ hb').1 (lt_of_mul_lt_mul_right hhigh hpower.le)
    exact_mod_cast hlt.le
  have hcount : ((l - 52 + 1074).toNat : Int) - 1074 = l - 52 := by omega
  have hword : roundRatio false num den =
      ofMagnitude false ((l - 52 + 1074).toNat * 0x10000000000000 + roundDiv a b) := by
    unfold roundRatio
    rw [if_neg hnum]
    dsimp only
    rw [gridExponent_eq hnum hden.ne' hlow hhigh, max_eq_right (by omega), roundDiv_grid_eq, hround]
    congr 1
    apply Nat.min_eq_left
    unfold infiniteMagnitude
    omega
  obtain ⟨hfinite, hvalue⟩ := ofMagnitude_carry (k := (l - 52 + 1074).toNat) (by omega) hleast hmost
  rw [hword]
  exact ⟨hfinite, by rw [hvalue, hcount], hleast⟩

/-- What a quotient is rounded to is within `2 ^ -53` of it in proportion, unless it is too small
for all 53 bits. -/
theorem roundRatio_error (hden : 0 < den) (hlow : num = 0 ∨ (2 : ℚ) ^ (-1022 : Int) ≤ num / den)
    (hhigh : (num / den : ℚ) < 2 ^ (1022 : Int)) :
    (roundRatio false num den).isFinite = true ∧
      |(roundRatio false num den).value - num / den| ≤ 2 ^ (-53 : Int) * (num / den) := by
  rcases hlow with rfl | hlow
  · have hzero : roundRatio false 0 den = ofMagnitude false 0 := if_pos rfl
    have hparts : (ofMagnitude false 0).isFinite = true ∧
      (ofMagnitude false 0).significand = 0 := by decide
    rw [hzero, value, hparts.2]
    simp [hparts.1]
  · have hpos : (0 : ℚ) < num / den := lt_of_lt_of_le (by positivity) hlow
    obtain ⟨l, hl, hl'⟩ := exists_mem_Ico_zpow hpos one_lt_two
    have hleast : -1022 < l + 1 := (zpow_lt_zpow_iff_right₀ one_lt_two).1 (hlow.trans_lt hl')
    have hmost : l < 1022 := (zpow_lt_zpow_iff_right₀ one_lt_two).1 (hl.trans_lt hhigh)
    have hgrid := div_eq_grid num hden (l - 52)
    have hb : 0 < den * 2 ^ (l - 52).toNat := by positivity
    obtain ⟨hfinite, hvalue, -⟩ := value_roundRatio hden hb (by omega) (by omega) hl hl' hgrid
    have hhalf := roundDiv_error (num * 2 ^ (-(l - 52)).toNat) hb
    refine ⟨hfinite, ?_⟩
    rw [hvalue]
    generalize num * 2 ^ (-(l - 52)).toNat = a at hgrid hhalf
    generalize den * 2 ^ (l - 52).toNat = b at hgrid hhalf
    -- half a multiple of the grid power, which is small in proportion to the power of two below the
    -- quotient
    calc |roundDiv a b * 2 ^ (l - 52) - (num / den : ℚ)|
        = |(roundDiv a b : ℚ) - a / b| * 2 ^ (l - 52) := by
          rw [hgrid, ← sub_mul, abs_mul, abs_of_pos (by positivity : (0 : ℚ) < 2 ^ (l - 52))]
      _ ≤ 1 / 2 * 2 ^ (l - 52) := mul_le_mul_of_nonneg_right hhalf (by positivity)
      _ = 2 ^ (-53 : Int) * 2 ^ l := by
          rw [show l - 52 = l + (-52) by ring, zpow_add₀ two_ne_zero]
          norm_num
          ring
      _ ≤ 2 ^ (-53 : Int) * (num / den) := mul_le_mul_of_nonneg_left hl (by positivity)

/-- A natural number with at most 53 bits is a double. -/
theorem value_ofNat {n : Nat} (h : n < 2 ^ 53) : (ofNat n).value = n := by
  rcases Nat.eq_zero_or_pos n with rfl | hpos
  · have hparts : (ofNat 0).significand = 0 := by decide
    simp [value, hparts]
  · have hn : n ≠ 0 := by omega
    have hlog : n.log2 < 53 := (Nat.log2_lt hn).2 h
    obtain ⟨hlow, hhigh⟩ := log2_bounds hn
    have hpower : ((2 ^ (52 - n.log2) : Nat) : ℚ) * 2 ^ ((n.log2 : Int) - 52) = 1 := by
      rw [Nat.cast_pow, Nat.cast_ofNat, ← zpow_natCast, ← zpow_add₀ two_ne_zero]
      rw [show ((52 - n.log2 : Nat) : Int) + ((n.log2 : Int) - 52) = 0 by omega, zpow_zero]
    have hgrid : (n / (1 : Nat) : ℚ) =
        (n * 2 ^ (52 - n.log2) : Nat) / (1 : Nat) * 2 ^ ((n.log2 : Int) - 52) := by
      rw [Nat.cast_one, div_one, div_one, Nat.cast_mul, mul_assoc, hpower, mul_one]
    obtain ⟨-, hvalue, -⟩ := value_roundRatio one_pos one_pos (by omega) (by omega)
      (by simpa using hlow) (by simpa using hhigh) hgrid
    rw [ofNat, hvalue, roundDiv_one, Nat.cast_mul, mul_assoc, hpower, mul_one]

/-! ## Products -/

variable {x y : Binary64}

/-- A product is rounded once. -/
theorem mul_eq (x y : Binary64) : ∃ num den : Nat, 0 < den ∧ (num / den : ℚ) = x.value * y.value ∧
    x.mul y = roundRatio (x.negative != y.negative) num den := by
  have hvalue : x.value * y.value =
      (x.significand * y.significand : Nat) * 2 ^ (x.exponent + y.exponent) := by
    rw [value, value, zpow_add₀ two_ne_zero]
    push_cast
    ring
  rw [mul, roundScaled, hvalue, zpow_eq_div]
  split
  · rename_i h
    refine ⟨_, 1, one_pos, ?_, rfl⟩
    rw [show (-(x.exponent + y.exponent)).toNat = 0 by omega]
    simp
  · rename_i h
    refine ⟨_, Nat.pow 2 (-(x.exponent + y.exponent)).toNat, Nat.pow_pos (by decide), ?_, rfl⟩
    rw [show (x.exponent + y.exponent).toNat = 0 by omega]
    simp [div_eq_mul_inv]

theorem negative_mul (hx : x.negative = false) (hy : y.negative = false) :
    (x.mul y).negative = false := by
  obtain ⟨num, den, -, -, heq⟩ := mul_eq x y
  rw [heq, hx, hy]
  exact (roundRatio_parts num den).1

/-- A product between two powers of two is rounded on the grid of the lower one. -/
theorem value_mul (hx : x.negative = false) (hy : y.negative = false) {v : ℚ}
    (hv : x.value * y.value = v) {a b : Nat} (hb : 0 < b) (hl : -1022 ≤ l) (hl' : l ≤ 1022)
    (hlow : (2 : ℚ) ^ l ≤ v) (hhigh : v < 2 ^ (l + 1)) (hgrid : v = a / b * 2 ^ (l - 52)) :
    (x.mul y).isFinite = true ∧ (x.mul y).value = roundDiv a b * 2 ^ (l - 52) ∧
      2 ^ 52 ≤ roundDiv a b := by
  obtain ⟨num, den, hden, hquotient, heq⟩ := mul_eq x y
  rw [← hv, ← hquotient] at hlow hhigh hgrid
  rw [heq, hx, hy]
  exact value_roundRatio hden hb hl hl' hlow hhigh hgrid

/-- A product is within `2 ^ -53` of the exact one in proportion. -/
theorem mul_error (hx : x.negative = false) (hy : y.negative = false)
    (hlow : x.value * y.value = 0 ∨ (2 : ℚ) ^ (-1022 : Int) ≤ x.value * y.value)
    (hhigh : x.value * y.value < 2 ^ (1022 : Int)) :
    (x.mul y).isFinite = true ∧
      |(x.mul y).value - x.value * y.value| ≤ 2 ^ (-53 : Int) * (x.value * y.value) := by
  obtain ⟨num, den, hden, hquotient, heq⟩ := mul_eq x y
  rw [← hquotient] at hlow hhigh ⊢
  rw [heq, hx, hy]
  refine roundRatio_error hden (hlow.imp_left fun hzero => ?_) hhigh
  have hden' : (den : ℚ) ≠ 0 := by positivity
  exact_mod_cast (div_eq_zero_iff.1 hzero).resolve_right hden'

/-- A coarse bound for products that are neither small nor large. -/
theorem mul_near (hx : x.negative = false) (hy : y.negative = false)
    (hlow : x.value * y.value = 0 ∨ 1 / 2 ≤ x.value * y.value)
    (hhigh : x.value * y.value ≤ 2 ^ 65) :
    (x.mul y).isFinite = true ∧
      |(x.mul y).value - x.value * y.value| ≤ 1 / 16 * (x.value * y.value) := by
  have hleast : (2 : ℚ) ^ (-1022 : Int) ≤ 1 / 2 :=
    calc (2 : ℚ) ^ (-1022 : Int) ≤ 2 ^ (-1 : Int) := zpow_le_zpow_right₀ one_le_two (by decide)
      _ = 1 / 2 := by norm_num
  have hmost : (2 : ℚ) ^ 65 < 2 ^ (1022 : Int) := by
    rw [← zpow_natCast]
    exact zpow_lt_zpow_right₀ one_lt_two (by decide)
  have hnonneg : 0 ≤ x.value * y.value := by
    rcases hlow with h | h
    · exact h.ge
    · linarith
  obtain ⟨hfinite, herror⟩ := mul_error hx hy (hlow.imp_right hleast.trans) (hhigh.trans_lt hmost)
  exact ⟨hfinite, herror.trans (mul_le_mul_of_nonneg_right (by norm_num) hnonneg)⟩

/-! ## Smaller units -/

variable {m : Nat} (unit : Nat)

/-- What is not above a whole number is not above it in smaller units. -/
theorem scaled_le (h : x.value ≤ m) : x.scaled unit ≤ m * unit := by
  have hden := Nat.pos_of_ne_zero x.ratio_den_ne_zero
  have hden' : (0 : ℚ) < x.ratio.2 := by exact_mod_cast hden
  rw [← ratio_eq, div_le_iff₀ hden'] at h
  have hle : x.ratio.1 ≤ m * x.ratio.2 := by exact_mod_cast h
  apply roundDiv_le_of_le hden
  rw [Nat.mul_right_comm]
  exact Nat.mul_le_mul_right unit hle

/-- What is not below a whole number is not below it in smaller units. -/
theorem le_scaled (h : m ≤ x.value) : m * unit ≤ x.scaled unit := by
  have hden := Nat.pos_of_ne_zero x.ratio_den_ne_zero
  have hden' : (0 : ℚ) < x.ratio.2 := by exact_mod_cast hden
  rw [← ratio_eq, le_div_iff₀ hden'] at h
  have hle : m * x.ratio.2 ≤ x.ratio.1 := by exact_mod_cast h
  apply le_roundDiv hden
  rw [Nat.mul_right_comm]
  exact Nat.mul_le_mul_right unit hle

end Binary64

end ProximityLab
