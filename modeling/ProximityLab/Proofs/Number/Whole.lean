import ProximityLab.Number.FloatReader
import ProximityLab.Proofs.Number.Numeral

/-!
# Large whole numbers in floating point

A whole number that is too large for an integer type is kept as the nearest double, and its text is
that of the double.

- **Doubles** (`le_exponent_ofNat`, `isFinite_ofNat`): from `2 ^ 63` on the nearest double is a
  whole number itself, and up to 1023 bits it is finite.
- **Text** (`render_ofNat`): it is written with the digits of the whole number that its shortest
  decimal denotes (`Decimal.whole`), which ends with two zeros.
- **Reading** (`ofText?_toDigits`): digits without a point denote the double that is nearest to
  their number.
-/

namespace ProximityLab

/-- The whole number that a decimal denotes, if its power is not negative. -/
def Decimal.whole (d : Decimal) : Nat := d.digits * 10 ^ d.power.toNat

theorem Decimal.whole_eq_value {d : Decimal} (h : 0 ≤ d.power) : (d.whole : ℚ) = d.value := by
  obtain ⟨k, hk⟩ := Int.eq_ofNat_of_zero_le h
  rw [whole, value, hk]
  simp

namespace Numeral

/-- Zeros behind the digits of a positive number multiply it. -/
theorem toDigits_mul_pow {n : Nat} (h : n ≠ 0) (k : Nat) :
    Nat.toDigits 10 (n * 10 ^ k) = Nat.toDigits 10 n ++ List.replicate k '0' := by
  induction k with
  | zero => simp
  | succ k ih =>
    have hpos : 0 < n * 10 ^ k := Nat.mul_pos (Nat.pos_of_ne_zero h) (by positivity)
    have hstep : n * 10 ^ (k + 1) = n * 10 ^ k * 10 := by rw [pow_succ, mul_assoc]
    rw [hstep, Nat.toDigits_of_base_le (by decide) (by omega), Nat.mul_div_cancel _ (by decide), ih,
      Nat.mul_mod_left, List.append_assoc, List.replicate_succ']
    rfl

variable {ds : List Char}

/-- Digits spell no word. -/
theorem ofList_ne_word (h : ∀ c ∈ ds, isDigit c = true) {w : String}
    (hw : w.toList.all isDigit = false) :
    String.ofList ds ≠ w := by
  rintro rfl
  rw [String.toList_ofList, List.all_eq_true.2 h] at hw
  exact Bool.noConfusion hw

theorem le_nine_of_isDigit {c : Char} (h : isDigit c = true) : c.toNat ≤ 57 :=
  of_decide_eq_true (Bool.and_eq_true_iff.1 h).2

theorem toLower_of_isDigit {c : Char} (h : isDigit c = true) : c.toLower = c :=
  dif_neg fun hupper => absurd hupper.1 (not_le.2 ((le_nine_of_isDigit h).trans_lt (by decide)))

theorem splitSign_of_digits (h : ∀ c ∈ ds, isDigit c = true) : splitSign ds = (false, ds) := by
  unfold splitSign
  split
  · exact absurd (h '-' List.mem_cons_self) (by decide)
  · exact absurd (h '+' List.mem_cons_self) (by decide)
  · rfl

theorem ofUnsigned?_toDigits (n : Nat) :
    ofUnsigned? false (Nat.toDigits 10 n) = some (ofNat n) := by
  have hall : takeDigits (Nat.toDigits 10 n ++ []) = (Nat.toDigits 10 n, []) :=
    takeDigits_append (fun _ => isDigit_of_mem_toDigits) nofun
  rw [List.append_nil] at hall
  simp [ofUnsigned?, hall, Nat.toDigits_ne_nil, readPower?, ofNat]

end Numeral

namespace Binary64

/-! ## Doubles -/

/-- The parts of a word without a sign. -/
theorem ofMagnitude_parts {m : Nat} (h : m < 0x8000000000000000) :
    (ofMagnitude false m).negative = false ∧ (ofMagnitude false m).magnitude = m := by
  have hbits : (ofMagnitude false m).bits.toNat = m := by
    rw [ofMagnitude, if_neg Bool.false_ne_true, BitVec.toNat_ofNat]
    omega
  refine ⟨?_, ?_⟩
  · rw [negative, BitVec.msb_eq_decide, hbits]
    simpa using h
  · rw [magnitude, hbits]
    omega

/-- What a quotient is rounded to has no sign, unless it is asked for. -/
theorem roundRatio_parts (num den : Nat) :
    (roundRatio false num den).negative = false ∧
      (roundRatio false num den).magnitude ≤ infiniteMagnitude := by
  have hinfinite : infiniteMagnitude < 0x8000000000000000 := by decide
  rw [roundRatio]
  split
  · obtain ⟨hnegative, hmagnitude⟩ := ofMagnitude_parts (m := 0) (by decide)
    exact ⟨hnegative, hmagnitude.trans_le (Nat.zero_le _)⟩
  · obtain ⟨hnegative, hmagnitude⟩ := ofMagnitude_parts ((Nat.min_le_right _ _).trans_lt hinfinite)
    exact ⟨hnegative, hmagnitude.trans_le (Nat.min_le_right _ _)⟩

theorem ofNat_parts (n : Nat) :
    (ofNat n).negative = false ∧ (ofNat n).magnitude ≤ infiniteMagnitude :=
  roundRatio_parts n 1

/-- The word that is nearest to a large whole number counts the power of two in front of it. -/
theorem magnitude_ofNat {n : Nat} (h : 2 ^ 63 ≤ n) :
    (ofNat n).magnitude =
      min ((n.log2 + 1022) * 0x10000000000000 + roundDiv n (2 ^ (n.log2 - 52)))
      infiniteMagnitude := by
  have hn : n ≠ 0 := by omega
  have hlog : 63 ≤ n.log2 := (Nat.le_log2 hn).2 h
  have hgrid : gridExponent n 1 = (n.log2 : Int) - 52 := by
    obtain ⟨hlow, hhigh⟩ := log2_bounds hn
    rw [gridExponent_eq (l := n.log2) hn one_ne_zero (by simpa using hlow) (by simpa using hhigh)]
    omega
  have hinfinite : infiniteMagnitude < 0x8000000000000000 := by decide
  have hcount : ((n.log2 : Int) - 52 + 1074).toNat = n.log2 + 1022 := by omega
  have hpower : 1 * Nat.pow 2 ((n.log2 : Int) - 52).toNat = 2 ^ (n.log2 - 52) := by
    rw [Nat.one_mul, show ((n.log2 : Int) - 52).toNat = n.log2 - 52 by omega]
    rfl
  rw [ofNat, roundRatio, if_neg hn]
  dsimp only
  rw [hgrid, hcount, if_pos (by omega), hpower,
    (ofMagnitude_parts ((Nat.min_le_right _ _).trans_lt hinfinite)).2]

theorem le_magnitude_ofNat {n : Nat} (h : 2 ^ 63 ≤ n) :
    min ((n.log2 + 1022) * 0x10000000000000) infiniteMagnitude ≤ (ofNat n).magnitude := by
  rw [magnitude_ofNat h]
  exact min_le_min_right _ (Nat.le_add_right _ _)

theorem roundDiv_le (num den : Nat) : roundDiv num den ≤ num / den + 1 := by
  unfold roundDiv
  dsimp only
  split
  · omega
  · split
    · omega
    · split <;> omega

/-- Only what has more than 1023 bits is infinite. -/
theorem isFinite_ofNat {n : Nat} (h : 2 ^ 63 ≤ n) (hlog : n.log2 < 1023) :
    (ofNat n).isFinite = true := by
  have hquotient : n / 2 ^ (n.log2 - 52) < 2 ^ 53 := by
    rw [Nat.div_lt_iff_lt_mul (by positivity), ← pow_add]
    have hlow : 63 ≤ n.log2 := (Nat.le_log2 (by omega)).2 h
    rw [show 53 + (n.log2 - 52) = n.log2 + 1 by omega]
    exact Nat.lt_log2_self
  have hround := roundDiv_le n (2 ^ (n.log2 - 52))
  have hmagnitude : (ofNat n).magnitude < infiniteMagnitude := by
    rw [magnitude_ofNat h]
    refine (Nat.min_le_left _ _).trans_lt ?_
    unfold infiniteMagnitude
    omega
  rw [magnitude_eq_bits] at hmagnitude
  have hbits : (ofNat n).exponentBits ≠ 2047 := by
    unfold infiniteMagnitude at hmagnitude
    omega
  simpa [isFinite] using hbits

/-- From `2 ^ 63` on a finite double is a whole number. -/
theorem le_exponent_ofNat {n : Nat} (h : 2 ^ 63 ≤ n) (hfinite : (ofNat n).isFinite = true) :
    10 ≤ (ofNat n).exponent := by
  have hlog : 63 ≤ n.log2 := (Nat.le_log2 (by omega)).2 h
  have hle := le_magnitude_ofNat h
  have hlt := magnitude_lt_infinite hfinite
  have hbits := (ofNat n).magnitude_eq_bits
  have hfraction := (ofNat n).fraction_lt
  unfold exponent
  split <;> omega

theorem le_decimalTop {m : Nat} (h : 10 ^ 18 ≤ m) : 19 ≤ decimalTop m 1 := by
  obtain ⟨-, hlt, -⟩ := decimalLength_bounds (n := m) (by omega)
  have hlength := (Nat.pow_lt_pow_iff_right (by decide)).1 (h.trans_lt hlt)
  rw [decimalTop, if_pos (by omega), Nat.div_one]
  omega

/-- It has nineteen digits, so its shortest decimal, which has seventeen, is a multiple of a
hundred. -/
theorem le_power_shortest_ofNat {n : Nat} (h : 2 ^ 63 ≤ n) (hfinite : (ofNat n).isFinite = true) :
    (ofNat n).magnitude ≠ 0 ∧ 2 ≤ (ofNat n).shortest.power := by
  have hexponent := le_exponent_ofNat h hfinite
  have hsignificand := le_significand (x := ofNat n) (by omega)
  have hmagnitude : (ofNat n).magnitude ≠ 0 := by
    rw [magnitude_eq]
    omega
  have hlarge : 10 ^ 18 ≤ (ofNat n).significand * 2 ^ (ofNat n).exponent.toNat :=
    calc 10 ^ 18 ≤ 2 ^ 52 * 2 ^ 10 := by norm_num
      _ ≤ _ := Nat.mul_le_mul hsignificand (Nat.pow_le_pow_right (by decide) (by omega))
  have hratio : (ofNat n).ratio = ((ofNat n).significand * 2 ^ (ofNat n).exponent.toNat, 1) := by
    rw [ratio, if_pos (by omega)]
    rfl
  have hpower := le_power_shortest hmagnitude
  have htop : 19 ≤ decimalTop (ofNat n).ratio.1 (ofNat n).ratio.2 := by
    rw [hratio]
    exact le_decimalTop hlarge
  exact ⟨hmagnitude, by omega⟩

/-! ## Text -/

/-- A large whole number is written as the whole number that is its shortest decimal. -/
theorem render_ofNat {n : Nat} (h : 2 ^ 63 ≤ n) (hfinite : (ofNat n).isFinite = true) :
    FloatStyle.plain.render (ofNat n) = toString (ofNat n).shortest.whole := by
  obtain ⟨hmagnitude, hpower⟩ := le_power_shortest_ofNat h hfinite
  have hdigits := shortest_digits_ne_zero hfinite hmagnitude
  have hnan := isNaN_of_isFinite hfinite
  have hnumeral : FloatStyle.plain.numeral (ofNat n) =
      ⟨false, Nat.toDigits 10 (ofNat n).shortest.whole, [], none⟩ := by
    rw [FloatStyle.numeral, if_neg hmagnitude, (ofNat_parts n).1, Decimal.whole,
      Numeral.toDigits_mul_pow hdigits]
    exact if_pos (by omega)
  rw [FloatStyle.render, hnan, if_neg Bool.false_ne_true, if_pos hfinite, hnumeral, Numeral.text]
  simp [Numeral.chars, Nat.repr]

theorem hundred_dvd_whole {n : Nat} (h : 2 ^ 63 ≤ n) (hfinite : (ofNat n).isFinite = true) :
    100 ∣ (ofNat n).shortest.whole := by
  obtain ⟨-, hpower⟩ := le_power_shortest_ofNat h hfinite
  exact Dvd.dvd.mul_left (pow_dvd_pow 10 (show 2 ≤ (ofNat n).shortest.power.toNat by omega)) _

/-! ## Reading -/

theorem ofDecimal_zero (n : Nat) : ofDecimal false n 0 = ofNat n := by
  unfold ofDecimal
  split
  · rename_i h
    rw [h]
    rfl
  · dsimp only
    rename_i hn
    split
    · rename_i htop
      have hlarge : 2 ^ 1025 ≤ n := by
        obtain ⟨hle, -⟩ := decimalLength_bounds hn
        obtain ⟨k, hk⟩ : ∃ k, decimalLength n - 1 = 62 * 5 + k := ⟨decimalLength n - 311, by omega⟩
        calc 2 ^ 1025 = (2 ^ 205) ^ 5 := by rw [← pow_mul]
          _ ≤ (10 ^ 62) ^ 5 := Nat.pow_le_pow_left (by norm_num) 5
          _ ≤ (10 ^ 62) ^ 5 * 10 ^ k := Nat.le_mul_of_pos_right _ (by positivity)
          _ = 10 ^ (decimalLength n - 1) := by rw [hk, pow_add, pow_mul]
          _ ≤ n := hle
      have hinfinite : (ofNat n).magnitude = infiniteMagnitude := by
        have hlog := (Nat.le_log2 hn).2 hlarge
        have hle := le_magnitude_ofNat ((Nat.pow_le_pow_right (by decide) (by decide)).trans hlarge)
        refine Nat.le_antisymm (ofNat_parts n).2 (hle.trans' (le_min ?_ le_rfl))
        exact Nat.mul_le_mul_right _ (by omega)
      rw [← hinfinite]
      conv => lhs; rw [← (ofNat_parts n).1, ofMagnitude_self]
    · rw [if_neg (by omega), if_pos le_rfl]
      exact congrArg (roundRatio false · 1) (Nat.mul_one n)

/-- Digits without a point denote the double that is nearest to their number. -/
theorem ofText?_toDigits (n : Nat) : ofText? (Nat.toDigits 10 n) = some (ofNat n) := by
  have hdigits : ∀ c ∈ Nat.toDigits 10 n, Numeral.isDigit c = true :=
    fun c => Numeral.isDigit_of_mem_toDigits
  have hlower : (Nat.toDigits 10 n).map Char.toLower = Nat.toDigits 10 n :=
    (List.map_congr_left fun c hc => Numeral.toLower_of_isDigit (hdigits c hc)).trans
    (List.map_id _)
  have hword {w : String} (hw : w.toList.all Numeral.isDigit = false) :
      String.ofList (Nat.toDigits 10 n) ≠ w :=
    Numeral.ofList_ne_word hdigits hw
  have hvalue : (Numeral.ofNat n).toBinary64 = ofNat n := by
    rw [Numeral.toBinary64, Numeral.ofNat, List.append_nil, Numeral.valueOf_toDigits]
    exact ofDecimal_zero n
  have hinf : String.ofList (Nat.toDigits 10 n) ≠ "inf" := hword (by decide)
  have hinfinity : String.ofList (Nat.toDigits 10 n) ≠ "infinity" := hword (by decide)
  have hnan : String.ofList (Nat.toDigits 10 n) ≠ "nan" := hword (by decide)
  simp [ofText?, Numeral.splitSign_of_digits hdigits, hlower, hinf, hinfinity, hnan,
    Numeral.ofUnsigned?_toDigits, hvalue]

/-- The whole number that is written for a large whole number is read as the same double. -/
theorem ofNat_whole {n : Nat} (h : 2 ^ 63 ≤ n) (hfinite : (ofNat n).isFinite = true) :
    ofNat (ofNat n).shortest.whole = ofNat n := by
  obtain ⟨hmagnitude, hpower⟩ := le_power_shortest_ofNat h hfinite
  have hrounds := roundsTo_shortest hmagnitude
  rw [← Decimal.whole_eq_value (by omega), ← mul_one ((ofNat n).shortest.whole : ℚ),
    ← zpow_zero (10 : ℚ)] at hrounds
  have hread := ofDecimal_eq hfinite hmagnitude hrounds
  rw [(ofNat_parts n).1, ofDecimal_zero] at hread
  exact hread

end Binary64

end ProximityLab
