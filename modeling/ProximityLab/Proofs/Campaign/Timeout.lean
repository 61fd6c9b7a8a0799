import ProximityLab.Configuration
import ProximityLab.Proofs.Number.Products

/-!
# How long a campaign may take

The limit of a bounded campaign is computed in floating point: the product of its duration and its
iterations is rounded to a double, so is its product with the factor, and the nanoseconds of the
result must be less than `2 ^ 64` seconds, with the slack and without it.

- **Spans** (`TimeSpan.bind_add?_eq_none_iff`): when a count of seconds and a span have no sum.
- **Long campaigns** (`Params.limit_of_long`): from `2 ^ 63` seconds on, doubles are multiples of
  2048 seconds, and the limit is `Params.longLimit` of them, or it is beyond the range.
- **Short campaigns** (`Params.limit_of_short`): below that the limit is far from the end of the
  range.
- **The timeout** (`Params.timeout_eq_error_iff`, `Params.timeout_of_slack`): a campaign has no
  timeout exactly when the limit in units of 2048 seconds, with the whole units of its slack, does
  not fit 53 bits. In seconds of all its epochs the border lies between the two numbers of
  `Params.timeout_of_total`.
-/

namespace ProximityLab

/-! ## Spans -/

namespace TimeSpan

theorem fits_iff (d : TimeSpan) : d.Fits ↔ d.nanos < 2 ^ 64 * perSecond := by
  rw [Fits, seconds, Nat.div_lt_iff_lt_mul (by decide)]
  norm_num

theorem checked_eq_none_iff (d : TimeSpan) : checked d = none ↔ 2 ^ 64 * perSecond ≤ d.nanos := by
  rw [checked, ite_eq_right_iff, fits_iff, ← not_lt]
  simp

theorem checked_of_lt {d : TimeSpan} (h : d.nanos < 2 ^ 64 * perSecond) : checked d = some d :=
  if_pos ((fits_iff d).2 h)

variable {x : Binary64}

/-- A finite number without a sign is a span, if that fits. -/
theorem ofFloatSeconds?_eq (hfinite : x.isFinite = true) (hnegative : x.negative = false) :
    ofFloatSeconds? x = checked ⟨x.scaled perSecond⟩ := by
  have hnan := Binary64.isNaN_of_isFinite hfinite
  simp [ofFloatSeconds?, hnan, hnegative, hfinite]

/-- A count of seconds and a span have no sum if their nanoseconds are beyond the range. -/
theorem bind_add?_eq_none_iff (hfinite : x.isFinite = true) (hnegative : x.negative = false)
    (slack : TimeSpan) :
    (ofFloatSeconds? x).bind (·.add? slack) = none ↔
      2 ^ 64 * perSecond ≤ x.scaled perSecond + slack.nanos := by
  rw [ofFloatSeconds?_eq hfinite hnegative]
  by_cases h : 2 ^ 64 * perSecond ≤ x.scaled perSecond
  · rw [(checked_eq_none_iff ⟨x.scaled perSecond⟩).2 h]
    exact ⟨fun _ => h.trans (Nat.le_add_right _ _), fun _ => rfl⟩
  · rw [checked_of_lt (d := ⟨x.scaled perSecond⟩) (not_le.1 h), Option.bind_some, add?]
    exact checked_eq_none_iff ⟨x.scaled perSecond + slack.nanos⟩

end TimeSpan

/-- A finite slack of at most a day is a span of at most a day. A negative one is no time at all. -/
theorem Configuration.slackSpan_of_day {c : Configuration} (hfinite : c.slack.isFinite = true)
    (hday : c.slack.negative = true ∨ c.slack.value ≤ 86400) :
    ∃ slack, c.slackSpan = .ok slack ∧ slack.nanos ≤ 86400 * TimeSpan.perSecond := by
  have hnan : c.slack.isNaN = false := Binary64.isNaN_of_isFinite hfinite
  cases hnegative : c.slack.negative with
  | true =>
    refine ⟨.zero, ?_, Nat.zero_le _⟩
    simp [slackSpan, hnegative]
  | false =>
    have hvalue : c.slack.value ≤ (86400 : Nat) := hday.resolve_left (by simp [hnegative])
    have hscaled := Binary64.scaled_le TimeSpan.perSecond hvalue
    have hfits : c.slack.scaled TimeSpan.perSecond < 2 ^ 64 * TimeSpan.perSecond :=
      hscaled.trans_lt (by decide)
    refine ⟨⟨c.slack.scaled TimeSpan.perSecond⟩, ?_, hscaled⟩
    simp [slackSpan, hnan, hnegative, TimeSpan.ofFloatSeconds?_eq hfinite hnegative,
      TimeSpan.checked_of_lt (d := ⟨c.slack.scaled TimeSpan.perSecond⟩) hfits]

/-! ## The limit as a double -/

namespace Params

variable {p : Params}

/-- The seconds of all epochs of a bounded campaign. -/
def total (p : Params) : Nat := p.duration * p.iterations

/-- The double that is nearest to those seconds. -/
def epochs (p : Params) : Binary64 := (Binary64.ofNat p.duration).mul (.ofNat p.iterations)

/-- The limit without its slack. -/
def limit (p : Params) : Binary64 := p.epochs.mul timeoutFactor

/-- The 53 bits of the factor; it is a bit more than 1.1. -/
def factorBits : Nat := 4953959590107546

/-- The limit of a long campaign in units of 2048 seconds. It is rounded twice, once for each
product. For a short one, whose limit is rounded to smaller units, it says at least that the range
is not left. -/
def longLimit (p : Params) : Nat := roundDiv (roundDiv p.total 2048 * factorBits) (2 ^ 52)

/-- The factor as a double. -/
theorem timeoutFactor_spec :
    timeoutFactor.negative = false ∧ timeoutFactor.value = factorBits / 2 ^ 52 := by
  have hword : timeoutFactor = ⟨0x3FF199999999999A#64⟩ := by decide +kernel
  have hparts : timeoutFactor.significand = factorBits ∧ timeoutFactor.exponent = -52 := by
    rw [hword]
    decide
  refine ⟨by rw [hword]; decide, ?_⟩
  rw [Binary64.value, hparts.1, hparts.2, zpow_neg, div_eq_mul_inv]
  rfl

/-- The numbers of the parameters are doubles, so what is rounded is their product. -/
theorem value_mul_value (hduration : p.duration < 2 ^ 32) (hiterations : p.iterations < 2 ^ 32) :
    (Binary64.ofNat p.duration).value * (Binary64.ofNat p.iterations).value = p.total := by
  rw [Binary64.value_ofNat (by omega), Binary64.value_ofNat (by omega), total]
  push_cast
  rfl

theorem total_lt (hduration : p.duration < 2 ^ 32) (hiterations : p.iterations < 2 ^ 32) :
    p.total < 2 ^ 64 :=
  calc p.total < 2 ^ 32 * 2 ^ 32 := Nat.mul_lt_mul'' hduration hiterations
    _ = 2 ^ 64 := by norm_num

theorem negative_epochs (p : Params) : p.epochs.negative = false :=
  Binary64.negative_mul (Binary64.ofNat_parts _).1 (Binary64.ofNat_parts _).1

theorem negative_limit (p : Params) : p.limit.negative = false :=
  Binary64.negative_mul p.negative_epochs timeoutFactor_spec.1

/-- The seconds of a long campaign are rounded to units of 2048 seconds. -/
theorem epochs_of_long (hduration : p.duration < 2 ^ 32) (hiterations : p.iterations < 2 ^ 32)
    (hlong : 2 ^ 63 ≤ p.total) :
    p.epochs.value = roundDiv p.total 2048 * 2048 ∧ 2 ^ 52 ≤ roundDiv p.total 2048 := by
  have htotal : (p.total : ℚ) < 2 ^ 64 := by exact_mod_cast total_lt hduration hiterations
  have hlong : (2 ^ 63 : ℚ) ≤ p.total := by exact_mod_cast hlong
  obtain ⟨-, hvalue, hleast⟩ := Binary64.value_mul (a := p.total) (b := 2048) (l := 63)
    (Binary64.ofNat_parts p.duration).1 (Binary64.ofNat_parts p.iterations).1
    (value_mul_value hduration hiterations)
    (by decide) (by decide) (by decide) hlong htotal (by norm_num)
  refine ⟨?_, hleast⟩
  rw [epochs, hvalue]
  norm_num

/-- The seconds of a long campaign times the factor, before that is rounded. -/
theorem epochs_mul_factor (hduration : p.duration < 2 ^ 32) (hiterations : p.iterations < 2 ^ 32)
    (hlong : 2 ^ 63 ≤ p.total) :
    p.epochs.value * timeoutFactor.value =
      (roundDiv p.total 2048 * factorBits : Nat) * 2 ^ 11 / 2 ^ 52 ∧
      2 ^ 104 ≤ roundDiv p.total 2048 * factorBits ∧
      roundDiv p.total 2048 * factorBits < 2 ^ 106 := by
  obtain ⟨hepochs, hleast⟩ := epochs_of_long hduration hiterations hlong
  have htotal := total_lt hduration hiterations
  have hmost : roundDiv p.total 2048 ≤ 2 ^ 53 := roundDiv_le_of_le (by decide) (by omega)
  refine ⟨?_, ?_, ?_⟩
  · rw [hepochs, timeoutFactor_spec.2]
    push_cast
    ring
  · unfold factorBits
    omega
  · unfold factorBits
    omega

/-- The limit of a long campaign, unless it is beyond the range in both ways of counting. -/
theorem limit_of_long (hduration : p.duration < 2 ^ 32) (hiterations : p.iterations < 2 ^ 32)
    (hlong : 2 ^ 63 ≤ p.total) :
    p.limit.isFinite = true ∧
      (p.limit.value = (p.longLimit * 2048 : Nat) ∨
        2 ^ 64 ≤ p.limit.value ∧ 2 ^ 53 ≤ p.longLimit) := by
  obtain ⟨hproduct, hlow, hhigh⟩ := epochs_mul_factor hduration hiterations hlong
  rw [limit, longLimit]
  generalize roundDiv p.total 2048 * factorBits = bits at hproduct hlow hhigh
  have hlow : (2 ^ 104 : ℚ) ≤ bits := by exact_mod_cast hlow
  have hhigh : (bits : ℚ) < 2 ^ 106 := by exact_mod_cast hhigh
  -- the product is a double of the same power of two, or of the next
  by_cases hin : bits < 2 ^ 105
  · have hin : (bits : ℚ) < 2 ^ 105 := by exact_mod_cast hin
    obtain ⟨hfinite, hvalue, -⟩ :=
      Binary64.value_mul (a := bits) (b := 2 ^ 52) (l := 63) p.negative_epochs
        timeoutFactor_spec.1 hproduct (by decide) (by decide) (by decide) (by norm_num; linarith)
        (by norm_num; linarith)
        (by norm_num; ring)
    refine ⟨hfinite, .inl ?_⟩
    rw [hvalue]
    norm_num
  · have hout : (2 ^ 105 : ℚ) ≤ bits := by exact_mod_cast not_lt.1 hin
    obtain ⟨hfinite, hvalue, hround⟩ :=
      Binary64.value_mul (a := bits) (b := 2 ^ 53) (l := 64) p.negative_epochs
        timeoutFactor_spec.1 hproduct (by decide) (by decide) (by decide) (by norm_num; linarith)
        (by norm_num; linarith)
        (by norm_num; ring)
    refine ⟨hfinite, .inr ⟨?_, le_roundDiv (by decide) (by omega)⟩⟩
    have hround : (2 ^ 52 : ℚ) ≤ roundDiv bits (2 ^ 53) := by exact_mod_cast hround
    rw [hvalue]
    calc (2 ^ 64 : ℚ) = 2 ^ 52 * 2 ^ ((64 : Int) - 52) := by norm_num
      _ ≤ _ := mul_le_mul_of_nonneg_right hround (by positivity)

/-- The seconds of any campaign are rounded by less than a sixteenth. -/
theorem epochs_near (hduration : p.duration < 2 ^ 32) (hiterations : p.iterations < 2 ^ 32) :
    |p.epochs.value - p.total| ≤ 1 / 16 * p.total := by
  have hproduct := value_mul_value hduration hiterations
  have htotal : (p.total : ℚ) < 2 ^ 64 := by exact_mod_cast total_lt hduration hiterations
  have hlow : (p.total : ℚ) = 0 ∨ 1 / 2 ≤ (p.total : ℚ) := by
    rcases Nat.eq_zero_or_pos p.total with h | h
    · exact .inl (by exact_mod_cast h)
    · have hone : (1 : ℚ) ≤ p.total := by exact_mod_cast h
      exact .inr (by linarith)
  rw [← hproduct] at htotal hlow ⊢
  exact (Binary64.mul_near (Binary64.ofNat_parts _).1 (Binary64.ofNat_parts _).1 hlow
    (by linarith)).2

/-- The limit of a short campaign is far from the end of the range. -/
theorem limit_of_short (hduration : p.duration < 2 ^ 32) (hiterations : p.iterations < 2 ^ 32)
    (hshort : p.total < 2 ^ 63) :
    p.limit.isFinite = true ∧ p.limit.value ≤ (2 ^ 63 + 2 ^ 62 : Nat) := by
  have hfactor : 1 ≤ timeoutFactor.value ∧ timeoutFactor.value ≤ 9 / 8 := by
    rw [timeoutFactor_spec.2, factorBits]
    norm_num
  obtain ⟨hbelow, habove⟩ := abs_le.1 (epochs_near hduration hiterations)
  have hshort : (p.total : ℚ) < 2 ^ 63 := by exact_mod_cast hshort
  have hhigh : p.epochs.value * timeoutFactor.value ≤ 2 ^ 63 * (17 / 16) * (9 / 8) :=
    mul_le_mul (by linarith) hfactor.2 (by linarith) (by norm_num)
  have hlow : p.epochs.value * timeoutFactor.value = 0 ∨
      1 / 2 ≤ p.epochs.value * timeoutFactor.value := by
    rcases Nat.eq_zero_or_pos p.total with h | h
    · rw [h, Nat.cast_zero] at hbelow habove
      have hzero : p.epochs.value = 0 := by linarith
      exact .inl (by rw [hzero, zero_mul])
    · have hone : (1 : ℚ) ≤ p.total := by exact_mod_cast h
      have hhalf : 1 / 2 ≤ p.epochs.value := by linarith
      exact .inr (hhalf.trans (le_mul_of_one_le_right (by linarith) hfactor.1))
  obtain ⟨hfinite, hnear⟩ :=
    Binary64.mul_near p.negative_epochs timeoutFactor_spec.1 hlow (hhigh.trans (by norm_num))
  have hlimit := (abs_le.1 hnear).2
  refine ⟨hfinite, ?_⟩
  rw [limit]
  push_cast
  linarith

/-- The units of a short campaign are far from the end of the range too. -/
theorem longLimit_of_short (hshort : p.total < 2 ^ 63) : p.longLimit ≤ 2 ^ 52 + 2 ^ 51 := by
  have hround : roundDiv p.total 2048 ≤ 2 ^ 52 := roundDiv_le_of_le (by decide) (by omega)
  apply roundDiv_le_of_le (by decide)
  unfold factorBits
  omega

/-! ## The timeout -/

theorem timeout_eq (p : Params) (slack : TimeSpan) :
    p.timeout slack = if p.iterations = 0 then .ok none else
      match (TimeSpan.ofFloatSeconds? p.limit).bind (·.add? slack) with
      | some d => .ok (some d)
      | none => .error .overflow := rfl

theorem timeout_eq_none_iff (p : Params) (slack : TimeSpan) :
    p.timeout slack = .ok none ↔ p.iterations = 0 := by
  rw [timeout_eq]
  split
  · rename_i h
    exact ⟨fun _ => h, fun _ => rfl⟩
  · rename_i h
    refine ⟨fun hnone => ?_, fun hzero => absurd hzero h⟩
    split at hnone <;> cases hnone

/-- A bounded campaign has no timeout if its limit and its slack have no sum. -/
theorem timeout_eq_error_iff_bind (hbounded : p.iterations ≠ 0) {slack : TimeSpan} :
    p.timeout slack = .error .overflow ↔
      (TimeSpan.ofFloatSeconds? p.limit).bind (·.add? slack) = none := by
  rw [timeout_eq, if_neg hbounded]
  cases (TimeSpan.ofFloatSeconds? p.limit).bind (·.add? slack) with
  | none => exact ⟨fun _ => rfl, fun _ => rfl⟩
  | some d => exact ⟨nofun, nofun⟩

/-- With a slack of at most a day, a campaign has no timeout exactly when its limit, in units of
2048 seconds and with the whole units of the slack, does not fit 53 bits. -/
theorem timeout_eq_error_iff (hduration : p.duration < 2 ^ 32) (hiterations : p.iterations < 2 ^ 32)
    {slack : TimeSpan} (hslack : slack.nanos ≤ 86400 * TimeSpan.perSecond) :
    p.timeout slack = .error .overflow ↔
      2 ^ 53 ≤ p.longLimit + slack.nanos / (2048 * TimeSpan.perSecond) := by
  have hunits : slack.nanos / (2048 * TimeSpan.perSecond) ≤ 42 := by
    unfold TimeSpan.perSecond at hslack ⊢
    omega
  by_cases hbounded : p.iterations = 0
  · have hlimit := longLimit_of_short (p := p) (by rw [total, hbounded, Nat.mul_zero]; decide)
    rw [timeout_eq, if_pos hbounded]
    exact ⟨nofun, fun h => by omega⟩
  rw [timeout_eq_error_iff_bind hbounded]
  by_cases hlong : 2 ^ 63 ≤ p.total
  · obtain ⟨hfinite, hvalue⟩ := limit_of_long hduration hiterations hlong
    rw [TimeSpan.bind_add?_eq_none_iff hfinite p.negative_limit]
    rcases hvalue with hvalue | ⟨hvalue, hlimit⟩
    · have hscaled : p.limit.scaled TimeSpan.perSecond = p.longLimit * 2048 * TimeSpan.perSecond :=
        Nat.le_antisymm (Binary64.scaled_le _ hvalue.le) (Binary64.le_scaled _ hvalue.ge)
      rw [hscaled]
      unfold TimeSpan.perSecond
      omega
    · have hscaled := Binary64.le_scaled (m := 2 ^ 64) TimeSpan.perSecond (by exact_mod_cast hvalue)
      exact ⟨fun _ => hlimit.trans (Nat.le_add_right _ _),
        fun _ => hscaled.trans (Nat.le_add_right _ _)⟩
  · obtain ⟨hfinite, hvalue⟩ := limit_of_short hduration hiterations (not_le.1 hlong)
    have hscaled := Binary64.scaled_le TimeSpan.perSecond hvalue
    have hlimit := longLimit_of_short (not_le.1 hlong)
    rw [TimeSpan.bind_add?_eq_none_iff hfinite p.negative_limit]
    unfold TimeSpan.perSecond at hscaled hslack ⊢
    exact ⟨fun h => by omega, fun h => by omega⟩

/-- The units of campaigns that are short enough for every slack of up to a day. -/
theorem longLimit_of_lt (h : p.total < 16769767339735874560) : p.longLimit + 42 < 2 ^ 53 := by
  have hround := (roundDiv_bounds p.total (by decide : 0 < 2048)).1
  have hlimit := (roundDiv_bounds (roundDiv p.total 2048 * factorBits) (by decide : 0 < 2 ^ 52)).1
  unfold longLimit
  unfold factorBits at hlimit ⊢
  omega

/-- The units of campaigns that are too long without a slack. -/
theorem le_longLimit (h : 16769767339735954433 ≤ p.total) : 2 ^ 53 ≤ p.longLimit := by
  have hround := (roundDiv_bounds p.total (by decide : 0 < 2048)).2
  have hlimit := (roundDiv_bounds (roundDiv p.total 2048 * factorBits) (by decide : 0 < 2 ^ 52)).2
  unfold longLimit
  unfold factorBits at hlimit ⊢
  omega

/-- A campaign of less than the stated seconds has a timeout or no limit with every slack of up to a
day, and one of at least the stated seconds has none with any. -/
theorem timeout_of_total (hduration : p.duration < 2 ^ 32) (hiterations : p.iterations < 2 ^ 32)
    {slack : TimeSpan} (hslack : slack.nanos ≤ 86400 * TimeSpan.perSecond) :
    (p.total < 16769767339735874560 → p.timeout slack ≠ .error .overflow) ∧
      (16769767339735954433 ≤ p.total → p.timeout slack = .error .overflow) := by
  have herror := timeout_eq_error_iff hduration hiterations hslack
  constructor
  · intro hshort hoverflow
    have hlimit := longLimit_of_lt hshort
    have hoverflow := herror.1 hoverflow
    unfold TimeSpan.perSecond at hslack hoverflow
    omega
  · intro hlong
    exact herror.2 ((le_longLimit hlong).trans (Nat.le_add_right _ _))

/-- **When a campaign has a timeout.** A campaign with numbers of 32 bits and a finite slack of at
most a day has no limit exactly if it runs until stopped. A bounded one has a timeout exactly if its
limit fits: in units of 2048 seconds, with the whole units of the slack, it has 53 bits. Otherwise
there is no such span. -/
theorem timeout_of_slack {c : Configuration} (hfinite : c.slack.isFinite = true)
    (hday : c.slack.negative = true ∨ c.slack.value ≤ 86400) (hduration : p.duration < 2 ^ 32)
    (hiterations : p.iterations < 2 ^ 32) :
    ∃ slack, c.slackSpan = .ok slack ∧ (p.timeout slack = .ok none ↔ p.iterations = 0) ∧
      ((∃ d, p.timeout slack = .ok (some d)) ↔
        p.iterations ≠ 0 ∧ p.longLimit + slack.nanos / (2048 * TimeSpan.perSecond) < 2 ^ 53) ∧
      (p.timeout slack = .error .overflow ↔
        2 ^ 53 ≤ p.longLimit + slack.nanos / (2048 * TimeSpan.perSecond)) := by
  obtain ⟨slack, hslack, hle⟩ := c.slackSpan_of_day hfinite hday
  have hnone := p.timeout_eq_none_iff slack
  have herror := timeout_eq_error_iff hduration hiterations hle
  refine ⟨slack, hslack, hnone, ?_, herror⟩
  rw [← not_le, ← herror, ne_eq, ← hnone]
  rcases p.timeout slack with ⟨⟨⟩⟩ | _ | d
  · simp
  · simp
  · simp

/-- A campaign whose limit, computed exactly, is a span with the slack of three seconds, but not as
a double. -/
def overlong : Params := { default with iterations := 3904515750, duration := 4294967267 }

/-- That campaign has no timeout, although a tenth more than its epochs and the slack are less than
`2 ^ 64` seconds. -/
theorem timeout_of_slack_overlong :
    Configuration.default.slackSpan = .ok ⟨3000000000⟩ ∧
      overlong.timeout ⟨3000000000⟩ = .error .overflow ∧
      (overlong.total * 11 / 10 + 3) * TimeSpan.perSecond < 2 ^ 64 * TimeSpan.perSecond := by
  have hvalue : Configuration.default.slack.value = 3 := by
    exact_mod_cast Binary64.value_ofNat (n := 3) (by decide)
  obtain ⟨slack, hslack, -, -, herror⟩ :=
    timeout_of_slack (p := overlong) (c := .default) (by decide +kernel)
      (.inr (by rw [hvalue]; norm_num)) (by decide) (by decide)
  have hspan : Configuration.default.slackSpan = .ok ⟨3000000000⟩ := by decide +kernel
  obtain rfl : slack = ⟨3000000000⟩ := Except.ok.inj (hslack.symm.trans hspan)
  exact ⟨hspan, herror.2 (by decide +kernel), by decide +kernel⟩

end Params

end ProximityLab
