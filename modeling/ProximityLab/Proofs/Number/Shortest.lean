import ProximityLab.Number.Shortest
import ProximityLab.Proofs.Number.Rounding

/-!
# Shortest decimals read back

`Binary64.shortest` looks for a decimal in the rounding interval of a number on grids of one to
seventeen digits. On the last grid there always is one: its step is narrower than the interval
(`neighbour?_isSome`). So what is found rounds to the number (`roundsTo_shortest`).
-/

namespace ProximityLab

namespace Decimal

/-- The number that a decimal denotes. -/
def value (d : Decimal) : ℚ := d.digits * 10 ^ d.power

variable {num den : Nat}

theorem le_iff (d : Decimal) (hden : den ≠ 0) : d.le num den = true ↔ d.value ≤ num / den := by
  have hpos : (0 : ℚ) < den := by positivity
  have hcross : d.value ≤ num / den ↔
      d.digits * 10 ^ d.power.toNat * den ≤ num * 10 ^ (-d.power).toNat := by
    rw [value, zpow_eq_div, mul_div_assoc', div_le_div_iff₀ (by positivity) hpos]
    exact_mod_cast Iff.rfl
  rw [hcross]
  unfold le
  split
  · simp [show (-d.power).toNat = 0 by omega]
  · simp [show d.power.toNat = 0 by omega]

theorem ge_iff (d : Decimal) (hden : den ≠ 0) : d.ge num den = true ↔ num / den ≤ d.value := by
  have hpos : (0 : ℚ) < den := by positivity
  have hcross : num / den ≤ d.value ↔
      num * 10 ^ (-d.power).toNat ≤ d.digits * 10 ^ d.power.toNat * den := by
    rw [value, zpow_eq_div, mul_div_assoc', div_le_div_iff₀ hpos (by positivity)]
    exact_mod_cast Iff.rfl
  rw [hcross]
  unfold ge
  split
  · simp [show (-d.power).toNat = 0 by omega]
  · simp [show d.power.toNat = 0 by omega]

theorem value_trimZeros (n : Nat) (d : Decimal) : (d.trimZeros n).value = d.value := by
  induction n generalizing d with
  | zero => rfl
  | succ n ih =>
    unfold trimZeros
    split
    · rename_i h
      have hdigits : (d.digits : ℚ) = (d.digits / 10 : Nat) * 10 := by
        exact_mod_cast (Nat.div_mul_cancel (Nat.dvd_of_mod_eq_zero h.1)).symm
      rw [ih, value, value, hdigits, zpow_add₀ (by norm_num)]
      ring
    · rfl

theorem le_power_trimZeros (n : Nat) (d : Decimal) : d.power ≤ (d.trimZeros n).power := by
  induction n generalizing d with
  | zero => exact le_rfl
  | succ n ih =>
    unfold trimZeros
    split
    · exact (Int.le_add_one le_rfl).trans (ih _)
    · exact le_rfl

end Decimal

namespace Binary64

variable {x : Binary64}

/-! ## The rounding interval -/

theorem contains_iff (hm : x.magnitude ≠ 0) (d : Decimal) :
    x.roundingInterval.contains d = true ↔ x.RoundsTo d.value := by
  have hsig := significand_pos hm
  have hden : Nat.pow 2 (-(x.exponent - 2)).toNat ≠ 0 := pow_ne_zero _ (by decide)
  -- the ends are given in quarters of a unit of the significand
  have hends (a : Nat) : ((a * Nat.pow 2 (x.exponent - 2).toNat : Nat) : ℚ) /
      (Nat.pow 2 (-(x.exponent - 2)).toNat : Nat) = a / 4 * 2 ^ x.exponent := by
    have hpow := zpow_eq_div 2 (x.exponent - 2)
    rw [zpow_sub₀ two_ne_zero] at hpow
    simp only [Nat.pow_eq, Nat.cast_mul, Nat.cast_pow, Nat.cast_ofNat]
    rw [mul_div_assoc, ← hpow]
    norm_num
    ring
  have hlow : ((4 * x.significand - (if x.fraction = 0 ∧ 1 < x.exponentBits then 1 else 2) : Nat) :
      ℚ) / 4 = x.significand - x.gapBelow := by
    unfold gapBelow
    split <;> rw [Nat.cast_sub (by omega)] <;> push_cast <;> ring
  have hhigh : ((4 * x.significand + 2 : Nat) : ℚ) / 4 = x.significand + 1 / 2 := by
    push_cast
    ring
  have hodd : x.significand % 2 = 1 ↔ ¬ (x.significand % 2 == 0) = true := by
    rw [beq_iff_eq]
    omega
  unfold Interval.contains roundingInterval
  dsimp only
  split
  · rename_i heven
    rw [Bool.and_eq_true, d.ge_iff hden, d.le_iff hden, hends, hends, hlow, hhigh]
    exact ⟨fun h => ⟨h.1, h.2, fun ho => absurd heven (hodd.1 ho)⟩, fun h => ⟨h.low, h.high⟩⟩
  · rename_i heven
    rw [Bool.and_eq_true, Bool.not_eq_true', Bool.not_eq_true', ← Bool.not_eq_true,
      ← Bool.not_eq_true, d.le_iff hden, d.ge_iff hden, hends, hends, hlow, hhigh, not_le, not_le]
    refine ⟨fun h => ⟨h.1.le, h.2.le, fun _ => ⟨h.1.ne, h.2.ne⟩⟩, fun h => ?_⟩
    obtain ⟨hne, hne'⟩ := h.ends (hodd.2 heven)
    exact ⟨lt_of_le_of_ne h.low hne, lt_of_le_of_ne h.high hne'⟩

/-- What is strictly between the ends rounds to the number. -/
theorem RoundsTo.of_between {v : ℚ} (hlow : (x.significand - x.gapBelow) * 2 ^ x.exponent < v)
    (hhigh : v < (x.significand + 1 / 2) * 2 ^ x.exponent) : x.RoundsTo v :=
  ⟨hlow.le, hhigh.le, fun _ => ⟨hlow.ne, hhigh.ne⟩⟩

/-! ## Neighbours on a decimal grid -/

theorem ratio_eq (x : Binary64) : (x.ratio.1 / x.ratio.2 : ℚ) = x.value := by
  have hpow := zpow_eq_div 2 x.exponent
  unfold ratio value
  split
  · rename_i h
    rw [hpow, show (-x.exponent).toNat = 0 by omega]
    simp
  · rename_i h
    rw [hpow, show x.exponent.toNat = 0 by omega]
    simp [div_eq_mul_inv]

theorem ratio_den_ne_zero (x : Binary64) : x.ratio.2 ≠ 0 := by
  unfold ratio
  split
  · exact one_ne_zero
  · exact pow_ne_zero _ (by decide)

variable {i : Interval} {num den : Nat} {power : Int}

/-- The neighbour that is chosen lies in the interval and on the grid. -/
theorem neighbour?_spec {d : Decimal} (h : neighbour? i num den power = some d) :
    i.contains d = true ∧ d.power = power := by
  unfold neighbour? at h
  dsimp only at h
  generalize (if 0 ≤ power then num / (den * Nat.pow 10 power.toNat)
    else num * Nat.pow 10 (-power).toNat / den) = floor at h
  split at h
  · cases h
  · cases h
    exact ⟨by assumption, rfl⟩
  · cases h
    exact ⟨by assumption, rfl⟩
  · split at h
    · cases h
      exact ⟨by assumption, rfl⟩
    · split at h
      · cases h
        exact ⟨by assumption, rfl⟩
      · split at h <;> cases h <;> exact ⟨by assumption, rfl⟩

/-- The count of grid steps up to a quotient. -/
theorem floor_spec (num : Nat) (hden : den ≠ 0) (power : Int) {n : Nat}
    (hn : (if 0 ≤ power then num / (den * Nat.pow 10 power.toNat)
      else num * Nat.pow 10 (-power).toNat / den) = n) :
    (n * 10 ^ power : ℚ) ≤ num / den ∧ (num / den : ℚ) < (n + 1) * 10 ^ power := by
  have hfloor : num * 10 ^ (-power).toNat / (den * 10 ^ power.toNat) = n := by
    rw [← hn]
    split
    · simp [show (-power).toNat = 0 by omega]
    · simp [show power.toNat = 0 by omega]
  have hB : 0 < den * 10 ^ power.toNat := by positivity
  have hlow := Nat.div_mul_le_self (num * 10 ^ (-power).toNat) (den * 10 ^ power.toNat)
  have hhigh := Nat.lt_mul_div_succ (num * 10 ^ (-power).toNat) hB
  rw [hfloor] at hlow hhigh
  have hpos : (0 : ℚ) < den := by positivity
  rw [zpow_eq_div, mul_div_assoc', mul_div_assoc', div_le_div_iff₀ (by positivity) hpos,
    div_lt_div_iff₀ hpos (by positivity)]
  constructor
  · have h : (n * (den * 10 ^ power.toNat) : ℚ) ≤ num * 10 ^ (-power).toNat := by
      exact_mod_cast hlow
    linarith
  · have h : (num * 10 ^ (-power).toNat : ℚ) < den * 10 ^ power.toNat * (n + 1) := by
      exact_mod_cast hhigh
    linarith

/-- There is a neighbour unless the two decimals around the quotient are outside of the interval. -/
theorem neighbour?_isSome (hden : den ≠ 0)
    (h : ∀ n : Nat, (n * 10 ^ power : ℚ) ≤ num / den → (num / den : ℚ) < (n + 1) * 10 ^ power →
      i.contains ⟨n, power⟩ = true ∨ i.contains ⟨n + 1, power⟩ = true) :
    (neighbour? i num den power).isSome = true := by
  unfold neighbour?
  generalize hn : (if 0 ≤ power then num / (den * Nat.pow 10 power.toNat)
    else num * Nat.pow 10 (-power).toNat / den) = n
  obtain ⟨hlow, hhigh⟩ := floor_spec num hden power hn
  have hone := h n hlow hhigh
  dsimp only
  split
  · simp_all
  · rfl
  · rfl
  · split
    · rfl
    · split
      · rfl
      · split <;> rfl

/-- On a grid whose step is narrower than the interval of a number, one of the two decimals around
it lies in the interval. -/
theorem contains_of_narrow (hm : x.magnitude ≠ 0)
    (hstep : (10 : ℚ) ^ power < (x.gapBelow + 1 / 2) * 2 ^ x.exponent) {n : Nat}
    (hlow : (n * 10 ^ power : ℚ) ≤ x.value) (hhigh : x.value < (n + 1) * 10 ^ power) :
    x.roundingInterval.contains ⟨n, power⟩ = true ∨
      x.roundingInterval.contains ⟨n + 1, power⟩ = true := by
  have hpos : (0 : ℚ) < 2 ^ x.exponent := by positivity
  have hgap := x.gapBelow_pos
  rw [contains_iff hm, contains_iff hm]
  unfold value at hlow hhigh
  by_cases h : (x.significand - x.gapBelow) * 2 ^ x.exponent < (n * 10 ^ power : ℚ)
  · left
    refine .of_between h (hlow.trans_lt ?_)
    linarith
  · -- the lower decimal is too far below, so the upper one is close enough above
    right
    refine .of_between ?_ ?_
    · simp only [Decimal.value, Nat.cast_add, Nat.cast_one]
      refine lt_of_lt_of_le ?_ hhigh.le
      nlinarith
    · simp only [Decimal.value, Nat.cast_add, Nat.cast_one]
      rw [not_lt] at h
      linarith

/-- The power of ten above a quotient is not more than ten times too large. -/
theorem ten_zpow_decimalTop_le (hnum : num ≠ 0) (hden : den ≠ 0) :
    (10 : ℚ) ^ (decimalTop num den - 1) ≤ num / den := by
  have hpos : (0 : ℚ) < den := by positivity
  rw [le_div_iff₀ hpos]
  unfold decimalTop
  split
  · rename_i hle
    have hquot : num / den ≠ 0 := (Nat.div_pos hle (Nat.pos_of_ne_zero hden)).ne'
    obtain ⟨hlen, -, hone⟩ := decimalLength_bounds hquot
    have h := (Nat.mul_le_mul_right den hlen).trans (Nat.div_mul_le_self num den)
    rw [show (decimalLength (num / den) : Int) - 1 =
      ((decimalLength (num / den) - 1 : Nat) : Int) by omega, zpow_natCast]
    exact_mod_cast h
  · rename_i hlt
    have hquot : den / num ≠ 0 := (Nat.div_pos (by omega) (Nat.pos_of_ne_zero hnum)).ne'
    obtain ⟨hlen, hlen', hone⟩ := decimalLength_bounds hquot
    dsimp only
    split
    · rename_i heq
      rw [show (2 : Int) - decimalLength (den / num) - 1 =
          -((decimalLength (den / num) - 1 : Nat) : Int) by omega,
        zpow_neg, zpow_natCast, inv_mul_le_iff₀ (by positivity)]
      have h : den ≤ 10 ^ (decimalLength (den / num) - 1) * num := by
        rw [mul_comm]
        exact heq.ge
      exact_mod_cast h
    · rw [show (1 : Int) - decimalLength (den / num) - 1 =
          -(decimalLength (den / num) : Int) by omega,
        zpow_neg, zpow_natCast, inv_mul_le_iff₀ (by positivity)]
      have h := (Nat.lt_mul_of_div_lt hlen' (Nat.pos_of_ne_zero hnum)).le
      exact_mod_cast h

/-! ## The shortest decimal -/

/-- The step of a grid of seventeen digits is narrower than the interval of a number. -/
theorem step_narrow (hm : x.magnitude ≠ 0) :
    (10 : ℚ) ^ (decimalTop x.ratio.1 x.ratio.2 - 17) < (x.gapBelow + 1 / 2) * 2 ^ x.exponent := by
  have hpos : (0 : ℚ) < 2 ^ x.exponent := by positivity
  have hnum : x.ratio.1 ≠ 0 := by
    have hsig := (significand_pos hm).ne'
    unfold ratio
    split
    · exact mul_ne_zero hsig (pow_ne_zero _ (by decide))
    · exact hsig
  have htop := ten_zpow_decimalTop_le hnum x.ratio_den_ne_zero
  rw [ratio_eq, value] at htop
  have hstep : (10 : ℚ) ^ (decimalTop x.ratio.1 x.ratio.2 - 17) ≤
      x.significand * 2 ^ x.exponent / 10 ^ 16 := by
    rw [le_div_iff₀ (by positivity)]
    refine le_trans (le_of_eq ?_) htop
    rw [← zpow_natCast, ← zpow_add₀ (by norm_num)]
    congr 1
    norm_num
    ring
  have hsig : (x.significand : ℚ) + 1 ≤ 2 ^ 53 := by exact_mod_cast x.significand_lt
  refine hstep.trans_lt ?_
  rw [div_lt_iff₀ (by positivity)]
  obtain hgap | ⟨hgap, hs⟩ := x.gapBelow_eq
  · rw [hgap]
    nlinarith
  · rw [hgap, hs]
    norm_num
    nlinarith

/-- The shortest decimal is a neighbour on one of the grids, without the zeros at its end. -/
theorem exists_shortest (hm : x.magnitude ≠ 0) : ∃ n < 17, ∃ d, x.shortest = d.trimZeros 20 ∧
    neighbour? x.roundingInterval x.ratio.1 x.ratio.2 (decimalTop x.ratio.1 x.ratio.2 -
      (n + 1 : Nat)) = some d := by
  have hlast : (neighbour? x.roundingInterval x.ratio.1 x.ratio.2
      (decimalTop x.ratio.1 x.ratio.2 - (16 + 1 : Nat))).isSome = true := by
    refine neighbour?_isSome x.ratio_den_ne_zero fun n hlow hhigh => ?_
    rw [ratio_eq] at hlow hhigh
    exact contains_of_narrow hm (step_narrow hm) hlow hhigh
  unfold shortest
  dsimp only
  split
  · rename_i d hd
    obtain ⟨n, hmem, hn⟩ := List.exists_of_findSome?_eq_some hd
    exact ⟨n, List.mem_range.1 hmem, d, rfl, hn⟩
  · rename_i hnone
    have := List.findSome?_eq_none_iff.1 hnone 16 (by simp)
    rw [this] at hlast
    cases hlast

/-- The shortest decimal of a number rounds to it. -/
theorem roundsTo_shortest (hm : x.magnitude ≠ 0) : x.RoundsTo x.shortest.value := by
  obtain ⟨n, -, d, hd, hn⟩ := exists_shortest hm
  rw [hd, Decimal.value_trimZeros]
  exact (contains_iff hm d).1 (neighbour?_spec hn).1

/-- It has at most seventeen digits. -/
theorem le_power_shortest (hm : x.magnitude ≠ 0) :
    decimalTop x.ratio.1 x.ratio.2 - 17 ≤ x.shortest.power := by
  obtain ⟨n, hlt, d, hd, hn⟩ := exists_shortest hm
  have hpower := (neighbour?_spec hn).2
  have htrim := d.le_power_trimZeros 20
  rw [hd]
  omega

end Binary64

end ProximityLab
