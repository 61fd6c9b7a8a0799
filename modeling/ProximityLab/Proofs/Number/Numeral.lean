import ProximityLab.Number.FloatText
import ProximityLab.Proofs.Number.Shortest

/-!
# Numbers read back from their text

- `Numeral.Proper`: a numeral as documents write it, without zeros in front.
- `toInt?_ofInt`: the text of an integer denotes that integer.
- `toBinary64_numeral`: the text of a finite double denotes that double, in every style in which
  whole numbers have at most zeros behind the point.
-/

namespace ProximityLab

namespace Numeral

/-! ## Digits -/

theorem valueOf_eq_ofDigitChars (ds : List Char) : valueOf ds = Nat.ofDigitChars 10 ds 0 := rfl

@[simp] theorem valueOf_toDigits (n : Nat) : valueOf (Nat.toDigits 10 n) = n :=
  Nat.ofDigitChars_ten_toDigits

theorem toString_inj {m n : Nat} : toString m = toString n ↔ m = n := by
  refine ⟨fun h => ?_, fun h => congrArg toString h⟩
  rw [← valueOf_toDigits m, ← valueOf_toDigits n]
  exact congrArg valueOf (String.ofList_injective h)

theorem valueOf_append_zeros (ds : List Char) (k : Nat) :
    valueOf (ds ++ List.replicate k '0') = valueOf ds * 10 ^ k := by
  simp only [valueOf_eq_ofDigitChars]
  rw [Nat.ofDigitChars_append, Nat.ofDigitChars_replicate_zero, Nat.mul_comm]

theorem valueOf_zeros_append (k : Nat) (ds : List Char) :
    valueOf (List.replicate k '0' ++ ds) = valueOf ds := by
  simp only [valueOf_eq_ofDigitChars]
  rw [Nat.ofDigitChars_append, Nat.ofDigitChars_replicate_zero, Nat.mul_zero]

@[simp] theorem valueOf_paddedDigits (width n : Nat) : valueOf (paddedDigits width n) = n := by
  rw [paddedDigits, valueOf_zeros_append, valueOf_toDigits]

theorem isDigit_of_mem_toDigits {n : Nat} {c : Char} (h : c ∈ Nat.toDigits 10 n) :
    isDigit c = true :=
  Nat.isDigit_of_mem_toDigits (by decide) (by decide) h

/-- A number is written with digits only. -/
theorem not_mem_toString {c : Char} (h : isDigit c = false) (n : Nat) :
    c ∉ (toString n).toList := by
  intro hc
  have hmem : c ∈ Nat.toDigits 10 n := by simpa [Nat.repr] using hc
  rw [isDigit_of_mem_toDigits hmem] at h
  exact Bool.noConfusion h

theorem isDigit_of_mem_paddedDigits {width n : Nat} {c : Char} (h : c ∈ paddedDigits width n) :
    isDigit c = true := by
  rcases List.mem_append.1 h with h | h
  · obtain ⟨-, rfl⟩ := List.mem_replicate.1 h
    rfl
  · exact isDigit_of_mem_toDigits h

/-- The first digit of a positive number is no zero. -/
theorem head?_toDigits_ne_zero {n : Nat} (h : n ≠ 0) : (Nat.toDigits 10 n).head? ≠ some '0' := by
  induction n using Nat.strong_induction_on with
  | _ n ih =>
    by_cases hlt : n < 10
    · rw [Nat.toDigits_of_lt_base hlt]
      simpa using h
    · have hhead : (Nat.toDigits 10 n).head? = (Nat.toDigits 10 (n / 10)).head? := by
        rw [Nat.toDigits_of_base_le (by decide) (by omega),
          List.head?_append_of_ne_nil _ Nat.toDigits_ne_nil]
      rw [hhead]
      exact ih (n / 10) (by omega) (by omega)

/-- Reading digits stops where they end. -/
theorem takeDigits_append {ds rest : List Char} (hds : ∀ c ∈ ds, isDigit c = true)
    (hrest : ∀ c ∈ rest.head?, isDigit c = false) : takeDigits (ds ++ rest) = (ds, rest) := by
  have hnone : rest.takeWhile isDigit = [] ∧ rest.dropWhile isDigit = rest := by
    cases rest with
    | nil => simp
    | cons c cs =>
      have := hrest c rfl
      simp [this]
  rw [takeDigits, List.takeWhile_append_of_pos hds, List.dropWhile_append_of_pos hds, hnone.1,
    hnone.2, List.append_nil]

/-! ## Numerals of documents -/

/-- Digits with no zero in front of others. -/
structure LeadingDigits (ds : List Char) : Prop where
  digits : ∀ c ∈ ds, isDigit c = true
  ne_nil : ds ≠ []
  head : ds = ['0'] ∨ ds.head? ≠ some '0'

theorem leadingDigits_toDigits (n : Nat) : LeadingDigits (Nat.toDigits 10 n) := by
  refine ⟨fun c => isDigit_of_mem_toDigits, Nat.toDigits_ne_nil, ?_⟩
  by_cases h : n = 0
  · left
    rw [h]
    rfl
  · exact .inr (head?_toDigits_ne_zero h)

/-- Digits may follow those of a positive number. -/
theorem LeadingDigits.append {ds es : List Char} (h : LeadingDigits ds)
    (hhead : ds.head? ≠ some '0') (hes : ∀ c ∈ es, isDigit c = true) :
    LeadingDigits (ds ++ es) := by
  refine ⟨fun c hc => (List.mem_append.1 hc).elim (h.digits c) (hes c), ?_, ?_⟩
  · exact List.append_ne_nil_of_left_ne_nil h.ne_nil es
  · right
    rwa [List.head?_append_of_ne_nil _ h.ne_nil]

/-- A numeral as documents write it. -/
structure Proper (n : Numeral) : Prop where
  whole : LeadingDigits n.whole
  fraction : ∀ c ∈ n.fraction, isDigit c = true

theorem proper_ofNat (n : Nat) : (ofNat n).Proper := ⟨leadingDigits_toDigits n, by simp [ofNat]⟩

theorem proper_ofInt (i : Int) : (ofInt i).Proper := ⟨leadingDigits_toDigits _, by simp [ofInt]⟩

theorem toInt?_ofInt (i : Int) : (ofInt i).toInt? = some i := by
  unfold toInt? ofInt
  simp only [isWhole, List.isEmpty_nil, Option.isNone_none, Bool.and_self, if_true,
    valueOf_toDigits, decide_eq_true_eq]
  split
  · rw [if_neg (by omega)]
    congr 1
    omega
  · congr 1
    omega

theorem toInt?_ofNat (n : Nat) : (ofNat n).toInt? = some (n : Int) := by
  simp [toInt?, ofNat, isWhole]

/-- The number that a numeral denotes, without its sign. -/
def magnitude (n : Numeral) : ℚ :=
  valueOf (n.whole ++ n.fraction) * 10 ^ (n.exponent.getD 0 - n.fraction.length)

/-- A numeral denotes the double that is nearest to its number. -/
theorem toBinary64_eq {x : Binary64} (hx : x.isFinite = true) (hm : x.magnitude ≠ 0) {n : Numeral}
    (hsign : n.negative = x.negative) (h : x.RoundsTo n.magnitude) : n.toBinary64 = x := by
  rw [toBinary64, hsign]
  exact Binary64.ofDecimal_eq hx hm h

end Numeral

/-! ## Decimals -/

namespace Decimal

open Numeral (LeadingDigits leadingDigits_toDigits isDigit_of_mem_toDigits
  isDigit_of_mem_paddedDigits
  head?_toDigits_ne_zero)

variable (d : Decimal) (negative : Bool) (k : Nat)

theorem length_paddedDigits (width n : Nat) :
    (paddedDigits width n).length = max width (Nat.toDigits 10 n).length := by
  rw [paddedDigits, List.length_append, List.length_replicate]
  omega

/-- Padding fills at most the one place before the point. -/
theorem leadingDigits_take_paddedDigits {n places : Nat} (h : n ≠ 0) :
    LeadingDigits ((paddedDigits (places + 1) n).take
      ((paddedDigits (places + 1) n).length - places)) := by
  have hlen := length_paddedDigits (places + 1) n
  refine ⟨fun c hc => isDigit_of_mem_paddedDigits (List.mem_of_mem_take hc), ?_, ?_⟩
  · intro hnil
    have := congrArg List.length hnil
    simp only [List.length_take, List.length_nil] at this
    omega
  · rcases Nat.lt_or_ge places (Nat.toDigits 10 n).length with hlong | hshort
    · right
      rw [List.head?_take, if_neg (by omega), paddedDigits, Nat.sub_eq_zero_of_le hlong]
      exact head?_toDigits_ne_zero h
    · left
      obtain ⟨k, hk⟩ : ∃ k, places + 1 - (Nat.toDigits 10 n).length = k + 1 :=
        ⟨places - (Nat.toDigits 10 n).length, by omega⟩
      rw [hlen, Nat.max_eq_left (by omega), Nat.add_sub_cancel_left, paddedDigits, hk]
      rfl

theorem magnitude_positional :
    (d.positional negative (List.replicate k '0')).magnitude = d.value := by
  unfold positional Numeral.magnitude
  split
  · rename_i hp
    obtain ⟨p, hp⟩ := Int.eq_ofNat_of_zero_le hp
    rw [hp, value, hp]
    simp only [Numeral.valueOf_append_zeros, Numeral.valueOf_toDigits, Int.toNat_natCast,
      Option.getD_none, List.length_replicate, zero_sub, zpow_neg, zpow_natCast]
    push_cast
    field_simp
  · rename_i hp
    have hlen := length_paddedDigits ((-d.power).toNat + 1) d.digits
    have hdrop : (paddedDigits ((-d.power).toNat + 1) d.digits).length -
        ((paddedDigits ((-d.power).toNat + 1) d.digits).length - (-d.power).toNat) =
        (-d.power).toNat := by
      omega
    dsimp only
    rw [List.take_append_drop, Numeral.valueOf_paddedDigits, List.length_drop, hdrop, value]
    congr 2
    simp
    omega

theorem magnitude_scientific : (d.scientific negative).magnitude = d.value := by
  unfold scientific Numeral.magnitude
  dsimp only
  rw [List.take_append_drop, Numeral.valueOf_toDigits, value]
  congr 2
  simp

variable {d}

theorem proper_positional (h : d.digits ≠ 0) :
    (d.positional negative (List.replicate k '0')).Proper := by
  have hzero {j : Nat} : ∀ c ∈ List.replicate j '0', Numeral.isDigit c = true := fun c hc => by
    rw [(List.mem_replicate.1 hc).2]
    rfl
  unfold positional
  split
  · exact ⟨(leadingDigits_toDigits d.digits).append (head?_toDigits_ne_zero h) hzero, hzero⟩
  · exact ⟨leadingDigits_take_paddedDigits h,
      fun c hc => isDigit_of_mem_paddedDigits (List.mem_of_mem_drop hc)⟩

theorem proper_scientific (h : d.digits ≠ 0) : (d.scientific negative).Proper := by
  obtain ⟨c, cs, hc⟩ := List.exists_cons_of_ne_nil (Nat.toDigits_ne_nil (b := 10) (n := d.digits))
  have hhead := head?_toDigits_ne_zero h
  have hdigits : ∀ e ∈ c :: cs, Numeral.isDigit e = true := fun e he =>
    isDigit_of_mem_toDigits (hc ▸ he)
  unfold scientific
  dsimp only
  rw [hc] at hhead ⊢
  refine ⟨⟨?_, ?_, ?_⟩, ?_⟩
  · intro e he
    exact hdigits e (List.mem_of_mem_take he)
  · simp
  · right
    simpa using hhead
  · intro e he
    exact hdigits e (List.mem_of_mem_drop he)

end Decimal

/-! ## Doubles -/

namespace Binary64

variable {x : Binary64}

theorem shortest_digits_ne_zero (hx : x.isFinite = true) (hm : x.magnitude ≠ 0) :
    x.shortest.digits ≠ 0 := by
  intro h
  have hpos := ((roundsTo_shortest hm).bounds hx hm).1
  have hten : (0 : ℚ) < 10 ^ (-331 : Int) := by positivity
  rw [Decimal.value, h, Nat.cast_zero, zero_mul] at hpos
  exact absurd hpos (not_le.2 hten)

end Binary64

namespace FloatStyle

variable {style : FloatStyle} {k : Nat} {x : Binary64}

theorem magnitude_decimal (hstyle : style.wholeFraction = List.replicate k '0') (negative : Bool)
    (d : Decimal) :
    (style.decimal negative d).magnitude = d.value := by
  unfold decimal
  dsimp only
  split
  · exact d.magnitude_scientific negative
  · rw [hstyle]
    exact d.magnitude_positional negative k

theorem negative_decimal (negative : Bool) (d : Decimal) :
    (style.decimal negative d).negative = negative := by
  unfold decimal Decimal.scientific Decimal.positional
  dsimp only
  split
  · rfl
  · split <;> rfl

theorem proper_decimal (hstyle : style.wholeFraction = List.replicate k '0') (negative : Bool)
    {d : Decimal} (h : d.digits ≠ 0) : (style.decimal negative d).Proper := by
  unfold decimal
  dsimp only
  split
  · exact Decimal.proper_scientific negative h
  · rw [hstyle]
    exact Decimal.proper_positional negative k h

/-- A finite double is written as documents want it. -/
theorem proper_numeral (hstyle : style.wholeFraction = List.replicate k '0')
    (hx : x.isFinite = true) :
    (style.numeral x).Proper := by
  unfold numeral
  split
  · rw [hstyle]
    refine ⟨⟨by simp [Numeral.isDigit], by simp, .inl rfl⟩, ?_⟩
    intro c hc
    rw [(List.mem_replicate.1 hc).2]
    rfl
  · rename_i hm
    exact proper_decimal hstyle _ (Binary64.shortest_digits_ne_zero hx hm)

/-- The text of a finite double denotes that double. -/
theorem toBinary64_numeral (hstyle : style.wholeFraction = List.replicate k '0')
    (hx : x.isFinite = true) :
    (style.numeral x).toBinary64 = x := by
  unfold numeral
  split
  · rename_i hm
    have hzero : Numeral.valueOf (['0'] ++ style.wholeFraction) = 0 := by
      rw [hstyle, Numeral.valueOf_append_zeros]
      exact Nat.zero_mul _
    rw [Numeral.toBinary64, hzero, Binary64.ofDecimal, if_pos rfl]
    calc Binary64.ofMagnitude x.negative 0
      _ = Binary64.ofMagnitude x.negative x.magnitude := by rw [hm]
      _ = x := x.ofMagnitude_self
  · rename_i hm
    refine Numeral.toBinary64_eq hx hm (negative_decimal _ _) ?_
    rw [magnitude_decimal hstyle]
    exact Binary64.roundsTo_shortest hm

end FloatStyle

end ProximityLab
