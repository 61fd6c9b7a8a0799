import ProximityLab.Json.Reader
import ProximityLab.Proofs.Number.Numeral

/-!
# Documents read back from their text

- `Json.Proper`: a document that a text can give, numbers without zeros in front, literals that
  denote texts.
- `read?_render`: the text of such a document is read as that document.
- `printable_chars`: the text holds no control character, so in particular no end of line
  (`not_mem_chars`).
- `exists_cons_chars`: the text starts with a visible character, that of an object with a brace, and
  it ends with one (`exists_chars_object`).

Reading is followed part by part. A part is read up to `rest`, what stands behind it; numbers are
the only parts without an end of their own, so `rest` may not continue one (`EndsNumber`).
-/

namespace ProximityLab.Json

/-! ## Literals -/

@[simp] theorem readPieces?_quote (rest : List Char) :
    readPieces? (quote :: rest) = some ([], rest) := by
  unfold readPieces?
  rw [if_pos rfl]

theorem readPieces?_plain {c : Char} (hquote : c ≠ quote) (hback : c ≠ '\\') (hc : 0x20 ≤ c.toNat)
    (cs : List Char) :
    readPieces? (c :: cs) = (readPieces? cs).map fun (ps, rest) => (.char c :: ps, rest) := by
  rw [readPieces?.eq_def]
  simp only [if_neg hquote, if_neg hback, if_neg (Nat.not_lt.2 hc)]
  cases readPieces? cs <;> rfl

theorem readPieces?_short {e c : Char} (h : shortEscape? e = some c) (cs : List Char) :
    readPieces? ('\\' :: e :: cs) = (readPieces? cs).map fun (ps, rest) =>
      (.char c :: ps, rest) := by
  have hu : e ≠ 'u' := by
    rintro rfl
    cases h
  have hquote : '\\' ≠ quote := by decide
  rw [readPieces?.eq_3 _ _ _ fun _ _ _ _ _ he _ => hu he, if_neg hquote, if_pos rfl, h]
  cases readPieces? cs <;> rfl

theorem readPieces?_unit {h₁ h₂ h₃ h₄ : Char} {n : Nat} (h : hexUnit? h₁ h₂ h₃ h₄ = some n)
    (cs : List Char) :
    readPieces? ('\\' :: 'u' :: h₁ :: h₂ :: h₃ :: h₄ :: cs) =
      (readPieces? cs).map fun (ps, rest) => (.unit n :: ps, rest) := by
  have hquote : '\\' ≠ quote := by decide
  rw [readPieces?.eq_2, if_neg hquote, if_pos rfl, h]
  cases readPieces? cs <;> rfl

theorem hexUnit?_digitChar : ∀ n < 0x20,
    hexUnit? '0' '0' (Nat.digitChar (n / 16)) (Nat.digitChar (n % 16)) = some n := by
  decide

/-- An escaped character is read as one piece that denotes it. -/
theorem readPieces?_escapeChar (c : Char) : ∃ p,
    (∀ cs, readPieces? (escapeChar c ++ cs) = (readPieces? cs).map fun (ps, rest) =>
      (p :: ps, rest)) ∧
    ∀ ps, joinPieces? (p :: ps) = (joinPieces? ps).map (c :: ·) := by
  have hofNat {n : Nat} (h : c.toNat = n) : c = Char.ofNat n := by rw [← h, Char.ofNat_toNat]
  unfold escapeChar
  split_ifs with h22 hback h8 h12 hn hr ht hcontrol
  · rw [hofNat h22]
    exact ⟨_, readPieces?_short rfl, fun _ => rfl⟩
  · rw [hback]
    exact ⟨_, readPieces?_short rfl, fun _ => rfl⟩
  · rw [hofNat h8]
    exact ⟨_, readPieces?_short rfl, fun _ => rfl⟩
  · rw [hofNat h12]
    exact ⟨_, readPieces?_short rfl, fun _ => rfl⟩
  · rw [hn]
    exact ⟨_, readPieces?_short rfl, fun _ => rfl⟩
  · rw [hr]
    exact ⟨_, readPieces?_short rfl, fun _ => rfl⟩
  · rw [ht]
    exact ⟨_, readPieces?_short rfl, fun _ => rfl⟩
  · refine ⟨_, readPieces?_unit (hexUnit?_digitChar _ hcontrol), fun ps => ?_⟩
    have hhigh : isHighSurrogate c.toNat = false := by
      simp [isHighSurrogate]
      omega
    have hlow : isLowSurrogate c.toNat = false := by
      simp [isLowSurrogate]
      omega
    rw [joinPieces?.eq_def]
    simp only [hhigh, hlow, Char.ofNat_toNat]
    rfl
  · exact ⟨_, readPieces?_plain (fun h => h22 (by rw [h]; rfl)) hback (Nat.not_lt.1 hcontrol),
      fun _ => rfl⟩

theorem readPieces?_flatMap (cs rest : List Char) : ∃ ps,
    readPieces? (cs.flatMap escapeChar ++ quote :: rest) = some (ps, rest) ∧
    joinPieces? ps = some cs := by
  induction cs with
  | nil => exact ⟨[], readPieces?_quote rest, rfl⟩
  | cons c cs ih =>
    obtain ⟨ps, hread, hjoin⟩ := ih
    obtain ⟨p, hp, hc⟩ := readPieces?_escapeChar c
    refine ⟨p :: ps, ?_, ?_⟩
    · rw [List.flatMap_cons, List.append_assoc, hp, hread]
      rfl
    · rw [hc, hjoin]
      rfl

/-- The literal of a text, behind its opening quote, is read as that text. -/
theorem readLiteral?_literal (s : String) (rest : List Char) :
    readLiteral? (s.toList.flatMap escapeChar ++ quote :: rest) = some (some s, rest) := by
  obtain ⟨ps, hread, hjoin⟩ := readPieces?_flatMap s.toList rest
  simp [readLiteral?, hread, hjoin]

/-! ## Numbers -/

/-- What stands behind a number does not continue it. -/
def EndsNumber (rest : List Char) : Prop :=
  ∀ c ∈ rest.head?, Numeral.isDigit c = false ∧ c ≠ '.' ∧ c ≠ 'e' ∧ c ≠ 'E'

theorem endsNumber_nil : EndsNumber [] := by simp [EndsNumber]

theorem endsNumber_cons {c : Char} (rest : List Char)
    (h : Numeral.isDigit c = false ∧ c ≠ '.' ∧ c ≠ 'e' ∧ c ≠ 'E') : EndsNumber (c :: rest) := by
  intro d hd
  cases hd
  exact h

theorem readWhole?_append {ds rest : List Char} (hds : Numeral.LeadingDigits ds)
    (hrest : ∀ c ∈ rest.head?, Numeral.isDigit c = false) :
    readWhole? (ds ++ rest) = some (ds, rest) := by
  rw [readWhole?, Numeral.takeDigits_append hds.digits hrest]
  rcases hds.head with rfl | hhead
  · rfl
  · split <;> rename_i heq
    · exact absurd (congrArg Prod.fst heq) hds.ne_nil
    · cases heq
      rfl
    · cases heq
      exact absurd rfl hhead
    · cases heq
      rfl

/-- The text of a fraction, with its point. -/
def fractionText (ds : List Char) : List Char := if ds.isEmpty then [] else '.' :: ds

theorem readFraction?_append {ds rest : List Char} (hds : ∀ c ∈ ds, Numeral.isDigit c = true)
    (hrest : ∀ c ∈ rest.head?, Numeral.isDigit c = false ∧ c ≠ '.') :
    readFraction? (fractionText ds ++ rest) = some (ds, rest) := by
  unfold fractionText
  cases ds with
  | nil =>
    unfold readFraction?
    split <;> rename_i heq
    · simp only [List.isEmpty_nil, if_true, List.nil_append] at heq
      rw [heq] at hrest
      exact absurd rfl (hrest '.' rfl).2
    · simp
  | cons d ds =>
    simp only [List.isEmpty_cons, Bool.false_eq_true, if_false, List.cons_append, readFraction?]
    rw [← List.cons_append, Numeral.takeDigits_append hds fun c hc => (hrest c hc).1]

theorem readExponent?_append {ds rest : List Char} (negative : Bool) (hne : ds ≠ [])
    (h : Numeral.takeDigits (ds ++ rest) = (ds, rest)) :
    Numeral.readExponent? ((if negative then '-' else '+') :: (ds ++ rest)) =
      some (if negative then -(Numeral.valueOf ds : Int) else Numeral.valueOf ds, rest) := by
  obtain ⟨d, ds, rfl⟩ := List.exists_cons_of_ne_nil hne
  rw [List.cons_append] at h ⊢
  cases negative <;> unfold Numeral.readExponent? <;> simp [h]

theorem readPower?_exponentText (e : Int) {rest : List Char}
    (hrest : ∀ c ∈ rest.head?, Numeral.isDigit c = false) :
    readPower? (Numeral.exponentText e ++ rest) = some (some e, rest) := by
  have hdigits : Numeral.takeDigits (Nat.toDigits 10 e.natAbs ++ rest) =
      (Nat.toDigits 10 e.natAbs, rest) :=
    Numeral.takeDigits_append (fun c => Numeral.isDigit_of_mem_toDigits) hrest
  have hread := readExponent?_append (decide (e < 0)) Nat.toDigits_ne_nil hdigits
  have hvalue : (if decide (e < 0) then -(e.natAbs : Int) else e.natAbs) = e := by
    simp only [decide_eq_true_eq]
    omega
  rw [Numeral.valueOf_toDigits, hvalue] at hread
  simpa [readPower?, Numeral.exponentText] using hread

/-- The text of a power of ten, if there is one. -/
def powerText : Option Int → List Char
  | some e => Numeral.exponentText e
  | none => []

theorem readPower?_append (e : Option Int) {rest : List Char} (hrest : EndsNumber rest) :
    readPower? (powerText e ++ rest) = some (e, rest) := by
  cases e with
  | none =>
    cases rest with
    | nil => rfl
    | cons c cs =>
      obtain ⟨-, -, he, hE⟩ := hrest c rfl
      simp [readPower?, powerText, he, hE]
  | some e => exact readPower?_exponentText e fun c hc => (hrest c hc).1

theorem head?_powerText (e : Option Int) {rest : List Char} (hrest : EndsNumber rest) :
    ∀ c ∈ (powerText e ++ rest).head?, Numeral.isDigit c = false ∧ c ≠ '.' := by
  intro c hc
  cases e with
  | none => exact ⟨(hrest c hc).1, (hrest c hc).2.1⟩
  | some e =>
    cases hc
    decide

theorem head?_fractionText (ds : List Char) {rest : List Char}
    (hrest : ∀ c ∈ rest.head?, Numeral.isDigit c = false ∧ c ≠ '.') :
    ∀ c ∈ (fractionText ds ++ rest).head?, Numeral.isDigit c = false := by
  intro c hc
  cases ds with
  | nil => exact (hrest c hc).1
  | cons d ds =>
    cases hc
    decide

theorem chars_numeral (n : Numeral) : n.chars =
    (if n.negative then ['-'] else []) ++ n.whole ++ fractionText n.fraction ++
    powerText n.exponent := by
  obtain ⟨negative, whole, fraction, exponent⟩ := n
  cases exponent <;> rfl

/-- The text of a number is read as that number. -/
theorem readNumeral?_chars {n : Numeral} (hn : n.Proper) {rest : List Char}
    (hrest : EndsNumber rest) :
    readNumeral? (n.chars ++ rest) = some (n, rest) := by
  have hpower := readPower?_append n.exponent hrest
  have hfraction := readFraction?_append hn.fraction (head?_powerText n.exponent hrest)
  have hwhole :=
    readWhole?_append hn.whole (head?_fractionText n.fraction (head?_powerText n.exponent hrest))
  have hsign : ∀ r, n.whole ++ (fractionText n.fraction ++ (powerText n.exponent ++ rest)) ≠
      '-' :: r := by
    intro r h
    obtain ⟨d, ds, hd⟩ := List.exists_cons_of_ne_nil hn.whole.ne_nil
    have hdigit := hn.whole.digits d (hd ▸ List.mem_cons_self)
    rw [hd] at h
    cases h
    cases hdigit
  simp only [chars_numeral, List.append_assoc]
  unfold readNumeral?
  cases hneg : n.negative
  · simp only [Bool.false_eq_true, if_false, List.nil_append]
    simp [hwhole, hfraction, hpower, ← hneg]
  · simp [hwhole, hfraction, hpower, ← hneg]

/-! ## Documents -/

/-- A document that a text can give. -/
inductive Proper : Json → Prop
  | null : Proper .null
  | bool (b : Bool) : Proper (.bool b)
  | number {n : Numeral} (h : n.Proper) : Proper (.number n)
  | string (s : String) : Proper (.string (some s))
  | array {items : List Json} (h : ∀ j ∈ items, Proper j) : Proper (.array items)
  | object {members : List (Option String × Json)} (names : ∀ m ∈ members, m.1.isSome)
      (values : ∀ m ∈ members, Proper m.2) : Proper (.object members)

/-- The first character of a value: no blank, and no bracket that closes an array. -/
def Opens (c : Char) : Prop := isSpace c = false ∧ c ≠ ']' ∧ 0x20 < c.toNat

instance : DecidablePred Opens := fun _ => inferInstanceAs (Decidable (_ ∧ _ ∧ _))

theorem skipSpace_cons {c : Char} (h : isSpace c = false) (cs : List Char) :
    skipSpace (c :: cs) = c :: cs := List.dropWhile_cons_of_neg (by simp [h])

/-- A document is read off its text, whatever stands behind. -/
def ReadsBack (j : Json) : Prop :=
  ∀ fuel rest, j.chars.length < fuel → EndsNumber rest →
  readValue? fuel (j.chars ++ rest) = some (j, rest)

theorem endsNumber_itemChars (js : List Json) (rest : List Char) :
    EndsNumber (itemChars js ++ rest) := by
  cases js <;> exact endsNumber_cons _ (by decide)

theorem endsNumber_memberChars (ms : List (Option String × Json)) (rest : List Char) :
    EndsNumber (memberChars ms ++ rest) := by
  cases ms <;> exact endsNumber_cons _ (by decide)

theorem readItems?_itemChars {js : List Json} (h : ∀ j ∈ js, ReadsBack j) (fuel : Nat)
    (rest : List Char) (hfuel : (itemChars js).length < fuel) :
    readItems? fuel (itemChars js ++ rest) = some (js, rest) := by
  induction js generalizing fuel with
  | nil =>
    obtain ⟨fuel, rfl⟩ := Nat.exists_eq_succ_of_ne_zero (Nat.ne_zero_of_lt hfuel)
    rw [readItems?, itemChars, List.singleton_append, skipSpace_cons (by decide)]
    rfl
  | cons j js ih =>
    obtain ⟨hj, hjs⟩ := List.forall_mem_cons.1 h
    obtain ⟨fuel, rfl⟩ := Nat.exists_eq_succ_of_ne_zero (Nat.ne_zero_of_lt hfuel)
    rw [itemChars] at hfuel ⊢
    simp only [List.length_cons, List.length_append, Nat.succ_eq_add_one] at hfuel
    have hfirst := hj fuel (itemChars js ++ rest) (by omega) (endsNumber_itemChars js rest)
    have hothers := ih hjs fuel (by omega)
    rw [readItems?, List.cons_append, List.append_assoc, skipSpace_cons (by decide)]
    simp [hfirst, hothers]

theorem readMember?_member (k : String) {j : Json} (h : ReadsBack j) {fuel : Nat} {rest : List Char}
    (hrest : EndsNumber rest) (hfuel : j.chars.length + 1 < fuel) :
    readMember? fuel (literalOf (some k) ++ ':' :: (j.chars ++ rest)) =
      some ((some k, j), rest) := by
  obtain ⟨fuel, rfl⟩ := Nat.exists_eq_succ_of_ne_zero (Nat.ne_zero_of_lt hfuel)
  have hvalue := h fuel rest (by omega) hrest
  rw [readMember?, literalOf, literal, List.cons_append, skipSpace_cons (by decide)]
  simp only [if_true, List.append_assoc, List.singleton_append, readLiteral?_literal,
    Option.bind_eq_bind, Option.bind_some]
  rw [skipSpace_cons (by decide)]
  simp [hvalue]

theorem readMembers?_memberChars {ms : List (Option String × Json)} (hnames : ∀ m ∈ ms, m.1.isSome)
    (h : ∀ m ∈ ms, ReadsBack m.2) (fuel : Nat) (rest : List Char)
    (hfuel : (memberChars ms).length < fuel) :
    readMembers? fuel (memberChars ms ++ rest) = some (ms, rest) := by
  induction ms generalizing fuel with
  | nil =>
    obtain ⟨fuel, rfl⟩ := Nat.exists_eq_succ_of_ne_zero (Nat.ne_zero_of_lt hfuel)
    rw [readMembers?, memberChars, List.singleton_append, skipSpace_cons (by decide)]
    simp
  | cons m ms ih =>
    obtain ⟨k, j⟩ := m
    obtain ⟨hname, hothers⟩ := List.forall_mem_cons.1 hnames
    obtain ⟨hj, hms⟩ := List.forall_mem_cons.1 h
    obtain ⟨k, rfl⟩ := Option.isSome_iff_exists.1 hname
    obtain ⟨fuel, rfl⟩ := Nat.exists_eq_succ_of_ne_zero (Nat.ne_zero_of_lt hfuel)
    rw [memberChars] at hfuel ⊢
    simp only [List.length_cons, List.length_append, Nat.succ_eq_add_one] at hfuel
    have hmember :=
      readMember?_member k (j := j) hj (endsNumber_memberChars ms rest) (show _ < fuel by omega)
    have hmembers := ih hothers hms fuel (by omega)
    have hbrace : ',' ≠ closeBrace := by decide
    rw [readMembers?, List.cons_append, skipSpace_cons (by decide)]
    simp [hbrace, hmember, hmembers]

/-- The characters that open no number but mean something else at the start of a value. -/
def otherOpenings : List Char := [quote, '[', ']', openBrace, 'n', 't', 'f', ' ', '\t', '\n', '\r']

theorem ne_of_number {c : Char} (h : c = '-' ∨ Numeral.isDigit c = true) :
    ∀ d ∈ otherOpenings, c ≠ d := by
  have hother :
      otherOpenings.all (fun d => decide ¬(d = '-' ∨ Numeral.isDigit d = true)) = true := by
    decide
  rw [List.all_eq_true] at hother
  exact fun d hd hc => of_decide_eq_true (hother d hd) (hc ▸ h)

theorem Opens.of_number {c : Char} (h : c = '-' ∨ Numeral.isDigit c = true) : Opens c := by
  have hne := ne_of_number h
  simp only [otherOpenings, List.forall_mem_cons] at hne
  obtain ⟨-, -, hbracket, -, -, -, -, hblank, htab, hline, hreturn, -⟩ := hne
  refine ⟨by simp [isSpace, hblank, htab, hline, hreturn], hbracket, ?_⟩
  rcases h with rfl | h
  · decide
  · have hlow : 0x30 ≤ c.toNat := by
      simp only [Numeral.isDigit, Bool.and_eq_true, decide_eq_true_eq] at h
      exact h.1
    omega

/-- A value that starts like a number is read as one. -/
theorem readValue?_number {c : Char} (h : c = '-' ∨ Numeral.isDigit c = true) (fuel : Nat)
    (cs : List Char) :
    readValue? (fuel + 1) (c :: cs) = (readNumeral? (c :: cs)).map fun (n, rest) =>
      (.number n, rest) := by
  have hne := ne_of_number h
  simp only [otherOpenings, List.forall_mem_cons] at hne
  obtain ⟨hquote, hbracket, -, hbrace, hn, ht, hf, -⟩ := hne
  rw [readValue?, skipSpace_cons (Opens.of_number h).1]
  simp only [if_neg hquote, if_neg hbracket, if_neg hbrace]
  split
  · exact absurd rfl hn
  · exact absurd rfl ht
  · exact absurd rfl hf
  · rfl

theorem exists_cons_numeral {n : Numeral} (h : n.Proper) :
    ∃ c cs, n.chars = c :: cs ∧ (c = '-' ∨ Numeral.isDigit c = true) := by
  obtain ⟨d, ds, hd⟩ := List.exists_cons_of_ne_nil h.whole.ne_nil
  rw [chars_numeral]
  cases n.negative with
  | true => exact ⟨_, _, rfl, .inl rfl⟩
  | false =>
    rw [hd]
    exact ⟨_, _, rfl, .inr (h.whole.digits d (hd ▸ List.mem_cons_self))⟩

/-- The text of a document starts with a character that opens a value. -/
theorem exists_cons_chars {j : Json} (h : Proper j) : ∃ c cs, chars j = c :: cs ∧ Opens c := by
  cases h with
  | null => exact ⟨_, _, rfl, by decide⟩
  | bool b => cases b <;> exact ⟨_, _, rfl, by decide⟩
  | number h =>
    obtain ⟨c, cs, hc, hstart⟩ := exists_cons_numeral h
    exact ⟨c, cs, hc, .of_number hstart⟩
  | string s => exact ⟨_, _, rfl, by decide⟩
  | @array items _ => cases items <;> exact ⟨_, _, rfl, by decide⟩
  | @object members _ _ => cases members <;> exact ⟨_, _, rfl, by decide⟩

theorem readsBack_number {n : Numeral} (h : n.Proper) : ReadsBack (.number n) := by
  intro fuel rest hfuel hrest
  obtain ⟨fuel, rfl⟩ := Nat.exists_eq_succ_of_ne_zero (Nat.ne_zero_of_lt hfuel)
  have hread := readNumeral?_chars h hrest
  obtain ⟨c, cs, hc, hstart⟩ := exists_cons_numeral h
  rw [chars]
  rw [hc, List.cons_append] at hread ⊢
  rw [readValue?_number hstart, hread]
  rfl

theorem readsBack_string (s : String) : ReadsBack (.string (some s)) := by
  intro fuel rest hfuel _
  obtain ⟨fuel, rfl⟩ := Nat.exists_eq_succ_of_ne_zero (Nat.ne_zero_of_lt hfuel)
  rw [chars, literalOf, literal, List.cons_append, readValue?, skipSpace_cons (by decide)]
  simp [readLiteral?_literal]

theorem readsBack_array {items : List Json} (hproper : ∀ j ∈ items, Proper j)
    (h : ∀ j ∈ items, ReadsBack j) :
    ReadsBack (.array items) := by
  intro fuel rest hfuel _
  obtain ⟨fuel, rfl⟩ := Nat.exists_eq_succ_of_ne_zero (Nat.ne_zero_of_lt hfuel)
  cases items with
  | nil => rfl
  | cons j js =>
    obtain ⟨hj, hjs⟩ := List.forall_mem_cons.1 h
    obtain ⟨c, cs, hc, hspace, hbracket, -⟩ := exists_cons_chars (hproper j List.mem_cons_self)
    rw [chars] at hfuel ⊢
    simp only [List.length_cons, List.length_append, Nat.succ_eq_add_one] at hfuel
    have hfirst := hj fuel (itemChars js ++ rest) (by omega) (endsNumber_itemChars js rest)
    have hothers := readItems?_itemChars hjs fuel rest (by omega)
    have hquote : '[' ≠ quote := by decide
    rw [List.cons_append, List.append_assoc, readValue?, skipSpace_cons (by decide)]
    rw [hc, List.cons_append] at hfirst ⊢
    simp only [if_neg hquote, if_true, skipSpace_cons hspace]
    split
    · rename_i heq
      cases heq
      exact absurd rfl hbracket
    · simp [hfirst, hothers]

theorem readsBack_object {members : List (Option String × Json)}
    (hnames : ∀ m ∈ members, m.1.isSome) (h : ∀ m ∈ members, ReadsBack m.2) :
    ReadsBack (.object members) := by
  intro fuel rest hfuel _
  obtain ⟨fuel, rfl⟩ := Nat.exists_eq_succ_of_ne_zero (Nat.ne_zero_of_lt hfuel)
  cases members with
  | nil => rfl
  | cons m ms =>
    obtain ⟨k, j⟩ := m
    obtain ⟨hname, hothers⟩ := List.forall_mem_cons.1 hnames
    obtain ⟨hj, hms⟩ := List.forall_mem_cons.1 h
    obtain ⟨k, rfl⟩ := Option.isSome_iff_exists.1 hname
    rw [chars] at hfuel ⊢
    simp only [List.length_cons, List.length_append, Nat.succ_eq_add_one] at hfuel
    have hmember :=
      readMember?_member k (j := j) hj (endsNumber_memberChars ms rest) (show _ < fuel by omega)
    have hmembers := readMembers?_memberChars hothers hms fuel rest (by omega)
    have hquote : openBrace ≠ quote := by decide
    have hbracket : openBrace ≠ '[' := by decide
    have hbrace : quote ≠ closeBrace := by decide
    rw [List.cons_append, readValue?, skipSpace_cons (by decide)]
    simp only [if_neg hquote, if_neg hbracket, if_true]
    rw [literalOf, literal, List.cons_append, List.cons_append, skipSpace_cons (by decide)]
    simp only [literalOf, literal, List.cons_append, List.append_assoc, List.nil_append] at hmember
    simp [if_neg hbrace, hmember, hmembers]

theorem readsBack {j : Json} (h : Proper j) : ReadsBack j := by
  induction h with
  | null =>
    intro fuel rest hfuel _
    obtain ⟨fuel, rfl⟩ := Nat.exists_eq_succ_of_ne_zero (Nat.ne_zero_of_lt hfuel)
    rfl
  | bool b =>
    intro fuel rest hfuel _
    obtain ⟨fuel, rfl⟩ := Nat.exists_eq_succ_of_ne_zero (Nat.ne_zero_of_lt hfuel)
    cases b <;> rfl
  | number h => exact readsBack_number h
  | string s => exact readsBack_string s
  | array h ih => exact readsBack_array h ih
  | object names values ih => exact readsBack_object names ih

/-- The text of a document is read as that document. -/
theorem read?_render {j : Json} (h : Proper j) : read? j.render = some j := by
  have hread := readsBack h (2 * j.chars.length + 1) [] (by omega) endsNumber_nil
  rw [List.append_nil] at hread
  rw [read?, render, String.toList_ofList, readChars?, hread]
  rfl

/-! ## What a text holds -/

/-- No control character. -/
def Printable (cs : List Char) : Prop := ∀ c ∈ cs, 0x20 ≤ c.toNat

instance : DecidablePred Printable :=
  fun cs => List.decidableBAll (fun c : Char => 0x20 ≤ c.toNat) cs

theorem printable_append {cs ds : List Char} (hcs : Printable cs) (hds : Printable ds) :
    Printable (cs ++ ds) :=
  List.forall_mem_append.2 ⟨hcs, hds⟩

theorem printable_cons {c : Char} {cs : List Char} (hc : 0x20 ≤ c.toNat) (hcs : Printable cs) :
    Printable (c :: cs) := List.forall_mem_cons.2 ⟨hc, hcs⟩

theorem printable_digits {ds : List Char} (h : ∀ c ∈ ds, Numeral.isDigit c = true) : Printable ds :=
  fun c hc => Nat.le_of_lt (Opens.of_number (.inr (h c hc))).2.2

theorem printable_numeral {n : Numeral} (h : n.Proper) : Printable n.chars := by
  rw [chars_numeral]
  refine printable_append
    (printable_append (printable_append ?_ (printable_digits h.whole.digits)) ?_) ?_
  · cases n.negative <;> decide
  · unfold fractionText
    split
    · decide
    · exact printable_cons (by decide) (printable_digits h.fraction)
  · cases n.exponent with
    | none => decide
    | some e =>
      refine printable_cons (by decide) (printable_cons ?_ (printable_digits fun c =>
        Numeral.isDigit_of_mem_toDigits))
      split <;> decide

theorem printable_escapeChar (c : Char) : Printable (escapeChar c) := by
  have hhex : ∀ n < 0x20,
      Printable ['\\', 'u', '0', '0', Nat.digitChar (n / 16), Nat.digitChar (n % 16)] := by
    decide
  unfold escapeChar
  split_ifs with h22 hback h8 h12 hn hr ht hcontrol
  · exact printable_cons (by decide) (printable_cons (by omega) (by decide))
  · decide
  · decide
  · decide
  · decide
  · decide
  · decide
  · exact hhex _ hcontrol
  · exact printable_cons (Nat.not_lt.1 hcontrol) (by decide)

theorem printable_literal (cs : List Char) : Printable (literal cs) := by
  refine printable_cons (by decide) (printable_append ?_ (by decide))
  intro d hd
  obtain ⟨c, -, hc⟩ := List.mem_flatMap.1 hd
  exact printable_escapeChar c d hc

theorem printable_itemChars {js : List Json} (h : ∀ j ∈ js, Printable j.chars) :
    Printable (itemChars js) := by
  induction js with
  | nil => decide
  | cons j js ih =>
    obtain ⟨hj, hjs⟩ := List.forall_mem_cons.1 h
    exact printable_cons (by decide) (printable_append hj (ih hjs))

theorem printable_memberChars {ms : List (Option String × Json)} (hnames : ∀ m ∈ ms, m.1.isSome)
    (h : ∀ m ∈ ms, Printable m.2.chars) : Printable (memberChars ms) := by
  induction ms with
  | nil => decide
  | cons m ms ih =>
    obtain ⟨k, j⟩ := m
    obtain ⟨hname, hothers⟩ := List.forall_mem_cons.1 hnames
    obtain ⟨hj, hms⟩ := List.forall_mem_cons.1 h
    obtain ⟨k, rfl⟩ := Option.isSome_iff_exists.1 hname
    exact printable_cons (by decide) (printable_append (printable_literal k.toList)
      (printable_cons (by decide) (printable_append hj (ih hothers hms))))

/-- The text of a document holds no control character. -/
theorem printable_chars {j : Json} (h : Proper j) : Printable j.chars := by
  induction h with
  | null => decide
  | bool b => cases b <;> decide
  | number h => exact printable_numeral h
  | string s => exact printable_literal s.toList
  | @array items _ ih =>
    cases items with
    | nil => decide
    | cons j js =>
      obtain ⟨hj, hjs⟩ := List.forall_mem_cons.1 ih
      exact printable_cons (by decide) (printable_append hj (printable_itemChars hjs))
  | @object members names _ ih =>
    cases members with
    | nil => decide
    | cons m ms =>
      -- The opening brace in place of a comma.
      have hall := printable_memberChars names ih
      obtain ⟨k, j⟩ := m
      exact printable_cons (by decide) fun c hc => hall c (List.mem_cons_of_mem _ hc)

theorem not_mem_chars {j : Json} (h : Proper j) {c : Char} (hc : c.toNat < 0x20) : c ∉ j.chars := by
  intro hmem
  have hle := printable_chars h c hmem
  omega

theorem closeBrace_suffix_memberChars (ms : List (Option String × Json)) :
    [closeBrace] <:+ memberChars ms := by
  induction ms with
  | nil => exact List.suffix_refl _
  | cons m ms ih =>
    have hvalue : [closeBrace] <:+ ':' :: (chars m.2 ++ memberChars ms) :=
      (ih.trans (List.suffix_append _ _)).trans (List.suffix_cons _ _)
    exact (hvalue.trans (List.suffix_append (literalOf m.1) _)).trans (List.suffix_cons _ _)

/-- An object stands between its braces. -/
theorem exists_chars_object (members : List (Option String × Json)) :
    ∃ cs, chars (.object members) = openBrace :: (cs ++ [closeBrace]) := by
  cases members with
  | nil => exact ⟨[], rfl⟩
  | cons m ms =>
    -- The opening brace in place of a comma.
    have hall := closeBrace_suffix_memberChars (m :: ms)
    rw [memberChars, List.suffix_cons_iff] at hall
    obtain ⟨cs, hcs⟩ := hall.resolve_left (by simp [closeBrace])
    exact ⟨cs, by rw [chars, hcs]⟩

end ProximityLab.Json
