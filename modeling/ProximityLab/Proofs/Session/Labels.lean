import ProximityLab.Proofs.Text.Lines
import ProximityLab.Proofs.Time.Calendar

/-!
# Values behind labels

What `valueBehind?` finds in a line, and where a line ends with a count of seconds or with a date:

- **Labels** (`exists_of_valueBehind?`, `isSome_valueBehind?`): what is found stands behind the
  label, and where a value stands behind the label, one is found.
- **Pictures** (`matchesPicture_append`, `exists_seconds`): a picture is followed part by part.
- **The end of a line** (`epoch_of_suffix`, `date_of_suffix`): a count of seconds or a date at the
  end of a line is what is found there, whatever stands in front of it. No line tells both
  (`not_epoch_of_date`), as a date has a digit behind its last colon, and a count of seconds has a
  blank there.
-/

namespace ProximityLab

/-! ## Values behind labels -/

section Labels

variable {label cs v : List Char} {value : List Char → Option (List Char)}

/-- What is found stands behind the label, with blanks between them. -/
theorem exists_of_valueBehind? (h : valueBehind? label value cs = some v) :
    ∃ front rest, cs = front ++ label ++ rest ∧ rest.head?.any Text.isBlank = true ∧
      value (rest.dropWhile Text.isBlank) = some v := by
  induction cs with
  | nil => cases h
  | cons c cs ih =>
    rw [valueBehind?] at h
    dsimp only at h
    rcases Option.or_eq_some_iff.1 h with hhere | ⟨-, hthere⟩
    · split at hhere
      · rename_i hlabel
        obtain ⟨rest, hrest⟩ := List.isPrefixOf_iff_prefix.1 hlabel
        rw [← hrest, List.drop_left] at hhere
        split at hhere
        · rename_i hblank
          exact ⟨[], rest, hrest.symm, hblank, hhere⟩
        · cases hhere
      · cases hhere
    · obtain ⟨front, rest, rfl, hfound⟩ := ih hthere
      exact ⟨c :: front, rest, rfl, hfound⟩

theorem valueBehind?_of_not_infix (h : ¬ label <:+: cs) : valueBehind? label value cs = none := by
  rw [Option.eq_none_iff_forall_ne_some]
  intro v hv
  obtain ⟨front, rest, rfl, -⟩ := exists_of_valueBehind? hv
  exact h ⟨front, rest, rfl⟩

/-- In a line without the label nothing is found. -/
theorem valueBehind?_of_contains {label line : String} (h : Text.contains label line = false) :
    valueBehind? label.toList value line.toList = none :=
  valueBehind?_of_not_infix fun hinfix => by
    rw [(Text.contains_iff label line).2 hinfix] at h
    cases h

/-- Where a value stands behind the label, one is found. -/
theorem isSome_valueBehind? (hlabel : label ≠ []) {rest : List Char}
    (hblank : rest.head?.any Text.isBlank = true)
    (hvalue : value (rest.dropWhile Text.isBlank) = some v) (front : List Char) :
    (valueBehind? label value (front ++ label ++ rest)).isSome = true := by
  induction front with
  | nil =>
    obtain ⟨c, tail, htail⟩ :=
      List.exists_cons_of_ne_nil (List.append_ne_nil_of_left_ne_nil hlabel rest)
    have hprefix : label.isPrefixOf (c :: tail) = true := List.isPrefixOf_iff_prefix.2 ⟨rest, htail⟩
    have hdrop : (c :: tail).drop label.length = rest := by rw [← htail, List.drop_left]
    rw [List.nil_append, htail, valueBehind?, if_pos hprefix]
    dsimp only
    rw [hdrop, if_pos hblank, hvalue]
    rfl
  | cons c front ih =>
    rw [List.cons_append, List.cons_append, valueBehind?, Option.isSome_or]
    exact Bool.or_eq_true_iff.2 (.inr ih)

end Labels

/-! ## Texts that follow a picture -/

theorem length_of_matchesPicture {picture cs : List Char} (h : matchesPicture picture cs = true) :
    cs.length = picture.length := by
  fun_induction matchesPicture picture cs with
  | case1 => rfl
  | case2 p picture c cs ih =>
    obtain ⟨-, hcs⟩ := Bool.and_eq_true_iff.1 h
    rw [List.length_cons, List.length_cons, ih hcs]
  | case3 => cases h

/-- A picture in two parts is followed in two parts. -/
theorem matchesPicture_append {front back cs : List Char}
    (h : matchesPicture (front ++ back) cs = true) :
    ∃ before behind, cs = before ++ behind ∧ matchesPicture front before = true ∧
      matchesPicture back behind = true := by
  induction front generalizing cs with
  | nil => exact ⟨[], cs, rfl, rfl, h⟩
  | cons p front ih =>
    cases cs with
    | nil => cases h
    | cons c cs =>
      obtain ⟨hc, hcs⟩ := Bool.and_eq_true_iff.1 h
      obtain ⟨before, behind, rfl, hbefore, hbehind⟩ := ih hcs
      exact ⟨c :: before, behind, rfl, Bool.and_eq_true_iff.2 ⟨hc, hbefore⟩, hbehind⟩

/-- The picture of a date and a time. -/
def datePicture : List Char := "0000-00-00 00:00:00".toList

/-- Behind the last colon of a date and time are two digits. -/
theorem exists_seconds {cs : List Char} (h : matchesPicture datePicture cs = true) :
    ∃ front a b, cs = front ++ ':' :: [a, b] ∧ Text.isDigit a = true ∧ Text.isDigit b = true := by
  obtain ⟨front, back, rfl, -, hback⟩ :=
    @matchesPicture_append "0000-00-00 00:00".toList ":00".toList cs h
  have hlength := length_of_matchesPicture hback
  match back, hlength with
  | [c, a, b], _ =>
    obtain ⟨rfl, ha, hb⟩ : c = ':' ∧ Text.isDigit a = true ∧ Text.isDigit b = true := by
      simpa [matchesPicture] using hback
    exact ⟨front, a, b, rfl, ha, hb⟩

/-! ## The end of a line -/

/-- There is no colon among blanks and digits. -/
theorem colon_not_mem {rest : List Char}
    (h : ∀ c ∈ rest, Text.isBlank c = true ∨ Text.isDigit c = true) :
    ':' ∉ rest := by
  intro hcolon
  rcases h ':' hcolon with h | h
  · exact absurd h (by decide)
  · exact absurd h (by decide)

/-- Where a count of seconds is found, blanks and digits only are behind the last colon. -/
theorem exists_of_epoch {cs v : List Char}
    (h : valueBehind? "Epoch:".toList digitsValue? cs = some v) :
    ∃ front c rest, cs = front ++ ':' :: c :: rest ∧ ':' ∉ c :: rest ∧ Text.isBlank c = true ∧
      v = (c :: rest).dropWhile Text.isBlank := by
  obtain ⟨front, rest, rfl, hblank, hvalue⟩ := exists_of_valueBehind? h
  rw [digitsValue?] at hvalue
  split at hvalue
  · rename_i hdigits
    obtain ⟨-, hdigits⟩ := Bool.and_eq_true_iff.1 hdigits
    have hcolon : ':' ∉ rest := by
      refine colon_not_mem fun c hc => ?_
      rw [← List.takeWhile_append_dropWhile (p := Text.isBlank) (l := rest)] at hc
      rcases List.mem_append.1 hc with hc | hc
      · exact .inl (List.mem_takeWhile_imp hc)
      · exact .inr (List.all_eq_true.1 hdigits c hc)
    cases rest with
    | nil => cases hblank
    | cons c rest =>
      exact ⟨front ++ "Epoch".toList, c, rest,
        by simp, hcolon, hblank, (Option.some.inj hvalue).symm⟩
  · cases hvalue

/-- Where a date is found, it is at the end. -/
theorem suffix_of_date {cs v : List Char} (h : valueBehind? "Date:".toList dateValue? cs = some v) :
    v <:+ cs ∧ matchesPicture datePicture v = true := by
  obtain ⟨front, rest, rfl, -, hvalue⟩ := exists_of_valueBehind? h
  rw [dateValue?] at hvalue
  split at hvalue
  · rename_i hpicture
    obtain rfl := Option.some.inj hvalue
    exact ⟨(List.dropWhile_suffix _).trans (List.suffix_append _ _), hpicture⟩
  · cases hvalue

/-- Where a date is found, two digits are behind the last colon. -/
theorem exists_of_date {cs v : List Char} (h : valueBehind? "Date:".toList dateValue? cs = some v) :
    ∃ front a b, cs = front ++ ':' :: [a, b] ∧ ':' ∉ [a, b] ∧ Text.isDigit a = true := by
  obtain ⟨⟨front, rfl⟩, hpicture⟩ := suffix_of_date h
  obtain ⟨between, a, b, rfl, ha, hb⟩ := exists_seconds hpicture
  refine ⟨front ++ between, a, b, by simp, colon_not_mem ?_, ha⟩
  simp [ha, hb]

/-- No line tells both: behind its last colon is a blank, or a digit. -/
theorem not_epoch_of_date {cs v w : List Char}
    (hepoch : valueBehind? "Epoch:".toList digitsValue? cs = some v)
    (hdate : valueBehind? "Date:".toList dateValue? cs = some w) : False := by
  obtain ⟨front, c, rest, hcs, hcolon, hblank, -⟩ := exists_of_epoch hepoch
  obtain ⟨front', a, b, hcs', hcolon', hdigit⟩ := exists_of_date hdate
  obtain ⟨-, htail⟩ := Text.append_sep_inj_last hcolon hcolon' (hcs.symm.trans hcs')
  obtain rfl := (List.cons.inj htail).1
  rw [Text.isDigit_eq_false_of_isBlank hblank] at hdigit
  cases hdigit

/-- The blank behind a label is no part of a value that begins with a digit. -/
theorem dropWhile_blank {c : Char} (hc : Text.isDigit c = true) (cs : List Char) :
    (' ' :: c :: cs).dropWhile Text.isBlank = c :: cs := by
  have hblank : Text.isBlank c = false := by
    cases h : Text.isBlank c with
    | false => rfl
    | true =>
      rw [Text.isDigit_eq_false_of_isBlank h] at hc
      cases hc
  rw [List.dropWhile_cons_of_pos (by decide), List.dropWhile_cons_of_neg (by simp [hblank])]

/-- A count of seconds at the end of a line is found, whatever stands in front of it. -/
theorem epoch_of_suffix {n : Nat} {cs : List Char}
    (h : "Epoch: ".toList ++ Nat.toDigits 10 n <:+ cs) :
    valueBehind? "Epoch:".toList digitsValue? cs = some (Nat.toDigits 10 n) := by
  obtain ⟨front, rfl⟩ := h
  have hdigit : ∀ c ∈ Nat.toDigits 10 n, Text.isDigit c = true := fun c hc =>
    Text.isDigit_of_isDigit (Numeral.isDigit_of_mem_toDigits hc)
  obtain ⟨c, ds, hds⟩ := List.exists_cons_of_ne_nil (Nat.toDigits_ne_nil (b := 10) (n := n))
  rw [hds] at hdigit ⊢
  have hdrop := dropWhile_blank (hdigit c List.mem_cons_self) ds
  have hvalue : digitsValue? ((' ' :: c :: ds).dropWhile Text.isBlank) = some (c :: ds) := by
    rw [hdrop]
    exact if_pos (by simpa using hdigit)
  have hfound : (valueBehind? "Epoch:".toList digitsValue?
      (front ++ "Epoch:".toList ++ ' ' :: c :: ds)).isSome = true :=
    isSome_valueBehind? (by decide) rfl hvalue front
  rw [show front ++ ("Epoch: ".toList ++ c :: ds) =
    front ++ "Epoch:".toList ++ ' ' :: c :: ds by simp]
  obtain ⟨v, hv⟩ := Option.isSome_iff_exists.1 hfound
  obtain ⟨front', b, rest, hcs, hcolon, -, rfl⟩ := exists_of_epoch hv
  -- the last colon of the line is that of the label, so the digits behind it are those that are
  -- found
  have hplain : ':' ∉ ' ' :: c :: ds :=
    colon_not_mem (List.forall_mem_cons.2 ⟨.inl (by decide), fun x hx => .inr (hdigit x hx)⟩)
  have hsplit : front ++ "Epoch:".toList ++ ' ' :: c :: ds =
      front ++ "Epoch".toList ++ ':' :: ' ' :: c :: ds := by simp
  obtain ⟨-, htail⟩ := Text.append_sep_inj_last hplain hcolon (hsplit.symm.trans hcs)
  rw [hv, ← htail, hdrop]

/-- A date at the end of a line is found, whatever stands in front of it. -/
theorem date_of_suffix {date cs : List Char} (hdate : matchesPicture datePicture date = true)
    (h : "Date: ".toList ++ date <:+ cs) :
    valueBehind? "Date:".toList dateValue? cs = some date := by
  obtain ⟨front, rfl⟩ := h
  have hdrop : (' ' :: date).dropWhile Text.isBlank = date := by
    cases date with
    | nil => cases hdate
    | cons c date => exact dropWhile_blank (Bool.and_eq_true_iff.1 hdate).1 date
  have hvalue : dateValue? ((' ' :: date).dropWhile Text.isBlank) = some date := by
    rw [hdrop]
    exact if_pos hdate
  have hfound : (valueBehind? "Date:".toList dateValue?
      (front ++ "Date:".toList ++ ' ' :: date)).isSome = true :=
    isSome_valueBehind? (by decide) rfl hvalue front
  have hsplit : front ++ ("Date: ".toList ++ date) = front ++ "Date:".toList ++ ' ' :: date := by
    simp
  rw [hsplit]
  obtain ⟨v, hv⟩ := Option.isSome_iff_exists.1 hfound
  obtain ⟨hsuffix, hpicture⟩ := suffix_of_date hv
  -- both are at the end, and both are as long as the picture
  have hlength : v.length = date.length := by
    rw [length_of_matchesPicture hpicture, length_of_matchesPicture hdate]
  have hend : date <:+ front ++ "Date:".toList ++ ' ' :: date := by
    rw [← hsplit]
    exact (List.suffix_append _ _).trans (List.suffix_append _ _)
  rw [hv, (List.suffix_of_suffix_length_le hsuffix hend hlength.le).eq_of_length hlength]

end ProximityLab
