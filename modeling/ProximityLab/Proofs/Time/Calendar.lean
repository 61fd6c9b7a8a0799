import ProximityLab.Proofs.Number.Numeral
import ProximityLab.Session.Commands

/-!
# Dates and times read back from their text

A date and time of the years 0 to 9999 has a text of fixed width: the digits of its six numbers
stand at known places, with dashes, a blank and colons between them.

- **Digits** (`exists_two_digits`, `exists_four_digits`): a number that is small enough is padded to
  known digits.
- **Reading** (`DateTime.ofPicture?_text`): the text follows the picture of a date, and its date is
  read from it.
-/

namespace ProximityLab

/-! ## Digits -/

/-- A decimal digit is a digit of some script. -/
theorem Text.isDigit_of_isDigit {c : Char} (h : Numeral.isDigit c = true) :
    Text.isDigit c = true := by
  obtain ⟨hlow, hhigh⟩ := Bool.and_eq_true_iff.1 h
  have hlow : 48 ≤ c.toNat := of_decide_eq_true hlow
  have hhigh : c.toNat ≤ 57 := of_decide_eq_true hhigh
  simp [Text.isDigit, inRanges, digitRanges, hlow, hhigh]

/-- No digit of any script is blank. -/
theorem Text.isDigit_eq_false_of_isBlank {c : Char} (h : Text.isBlank c = true) :
    Text.isDigit c = false := by
  simp only [isBlank, Bool.or_eq_true, Bool.and_eq_true, decide_eq_true_eq, beq_iff_eq] at h
  simp only [isDigit, inRanges, List.any_eq_false, Bool.and_eq_true, decide_eq_true_eq]
  generalize c.toNat = n at h
  -- the ranges of digits lie between the blanks
  have hranges : ∀ r ∈ digitRanges, r = (0x30, 0x39) ∨ (0x660 ≤ r.1 ∧ r.2 < 0x1680) ∨
      (0x1680 < r.1 ∧ r.2 < 0x2000) ∨ 0x3000 < r.1 := by decide
  intro r hr
  rcases hranges r hr with rfl | hbetween
  · dsimp only
    omega
  · omega

/-- A number that is small enough is padded to the width. -/
theorem length_paddedDigits_of_lt {width n : Nat} (hwidth : 0 < width) (h : n < 10 ^ width) :
    (paddedDigits width n).length = width := by
  have hle : (Nat.toDigits 10 n).length ≤ width :=
    (Nat.length_toDigits_le_iff (by decide) hwidth).2 h
  rw [Decimal.length_paddedDigits, Nat.max_eq_left hle]

/-- Padded digits are digits, and denote their number. -/
theorem digits_of_padded {width n : Nat} {ds : List Char} (h : paddedDigits width n = ds) :
    Numeral.valueOf ds = n ∧ ∀ c ∈ ds, Numeral.isDigit c = true := by
  subst h
  exact ⟨Numeral.valueOf_paddedDigits width n, fun _ => Numeral.isDigit_of_mem_paddedDigits⟩

theorem exists_two_digits {n : Nat} (h : n < 100) : ∃ a b, paddedDigits 2 n = [a, b] ∧
    Numeral.valueOf [a, b] = n ∧ ∀ c ∈ [a, b], Numeral.isDigit c = true := by
  obtain ⟨a, b, hab⟩ := List.length_eq_two.1 (length_paddedDigits_of_lt (by decide) h)
  exact ⟨a, b, hab, digits_of_padded hab⟩

theorem exists_four_digits {n : Nat} (h : n < 10000) : ∃ a b c d, paddedDigits 4 n = [a, b, c, d] ∧
    Numeral.valueOf [a, b, c, d] = n ∧ ∀ x ∈ [a, b, c, d], Numeral.isDigit x = true := by
  have hlength := length_paddedDigits_of_lt (by decide) (show n < 10 ^ 4 from h)
  have hdigits := @digits_of_padded 4 n _ rfl
  generalize paddedDigits 4 n = ds at hlength hdigits
  match ds, hlength with
  | [a, b, c, d], _ => exact ⟨a, b, c, d, rfl, hdigits⟩

/-! ## Dates and times -/

namespace DateTime

variable {d : DateTime}

/-- The numbers of a date and time have two digits, apart from the year. -/
theorem lt_hundred (h : d.isValid = true) :
    d.month < 100 ∧ d.day < 100 ∧ d.hour < 100 ∧ d.minute < 100 ∧ d.second < 100 := by
  have hdays : daysIn d.year d.month ≤ 31 := by
    unfold daysIn
    split
    · split <;> decide
    · split <;> decide
  simp only [isValid, Bool.and_eq_true, decide_eq_true_eq] at h
  omega

/-- A year with four digits is written without a sign. -/
theorem yearChars_of_lt {year : Nat} (h : year < 10000) : yearChars year = paddedDigits 4 year := by
  rw [yearChars, if_neg (by omega), if_neg (by omega)]
  rfl

/-- The text of a date and time of the years 0 to 9999 follows the picture, and that date and time
is read from it. -/
theorem ofPicture?_text (hyear : 0 ≤ d.year ∧ d.year ≤ 9999) (hvalid : d.isValid = true) :
    matchesPicture "0000-00-00 00:00:00".toList d.text.toList = true ∧
      ofPicture? d.text.toList = some d := by
  obtain ⟨hmonth, hday, hhour, hminute, hsecond⟩ := lt_hundred hvalid
  obtain ⟨year, month, day, hour, minute, second⟩ := d
  obtain ⟨y, rfl⟩ : ∃ y : Nat, year = y := Int.eq_ofNat_of_zero_le hyear.1
  have hy : y < 10000 := by
    have hle : (y : Int) ≤ 9999 := hyear.2
    omega
  obtain ⟨y₁, y₂, y₃, y₄, hyears, hvy, hdy⟩ := exists_four_digits hy
  obtain ⟨m₁, m₂, hmonths, hvm, hdm⟩ := exists_two_digits hmonth
  obtain ⟨d₁, d₂, hdays, hvd, hdd⟩ := exists_two_digits hday
  obtain ⟨h₁, h₂, hhours, hvh, hdh⟩ := exists_two_digits hhour
  obtain ⟨n₁, n₂, hminutes, hvn, hdn⟩ := exists_two_digits hminute
  obtain ⟨s₁, s₂, hseconds, hvs, hds⟩ := exists_two_digits hsecond
  have htext : (text ⟨y, month, day, hour, minute, second⟩).toList =
      [y₁, y₂, y₃, y₄, '-', m₁, m₂, '-', d₁, d₂, ' ', h₁, h₂, ':', n₁, n₂, ':', s₁, s₂] := by
    simp [text, fields, yearChars_of_lt hy, hyears, hmonths, hdays, hhours, hminutes, hseconds]
  simp only [List.forall_mem_cons] at hdy hdm hdd hdh hdn hds
  rw [htext]
  constructor
  · simp [matchesPicture, Text.isDigit_of_isDigit, hdy, hdm, hdd, hdh, hdn, hds]
  · have hplain : Text.isDigit '-' = false ∧ Text.isDigit ' ' = false ∧
      Text.isDigit ':' = false := by decide
    rw [ofPicture?, if_pos (by simp [hplain, hdy, hdm, hdd, hdh, hdn, hds])]
    -- each number is read from the place where its digits stand
    change ofFields? (Numeral.valueOf [y₁, y₂, y₃, y₄]) (Numeral.valueOf [m₁, m₂])
      (Numeral.valueOf [d₁, d₂])
      (Numeral.valueOf [h₁, h₂]) (Numeral.valueOf [n₁, n₂]) (Numeral.valueOf [s₁, s₂]) = _
    rw [hvy, hvm, hvd, hvh, hvn, hvs]
    exact if_pos hvalid

end DateTime

end ProximityLab
