import ProximityLab.Proofs.Text.Utf8
import Mathlib.Data.List.Basic

/-!
# Bytes of texts that were cut

What `lenientChars` reads of bytes that come in parts.

- **One step** (`scanned`): bytes begin with those of a character, or with an ill-formed part, of
  which nothing is read (`leading`). A byte that continues a character is not read at the beginning
  (`lenientChars_continuation`).
- **Two parts** (`splits_or_lenientChars_append`): bytes are read like their parts, unless a
  character is split between these (`Splits`). Such a character is read only where the parts come
  together (`Splits.lenientChars_append`).
- **Texts** (`lenientChars_flatMap`): the bytes of characters are read as these, and whichever
  character they contain is one of these (`mem_of_infix`). Whatever is read is there in bytes
  (`infix_of_mem_lenientChars`).
- **Cuts** (`lenientChars_single`): where the byte of a character of one byte stands, bytes are read
  in two parts. Such a character is read exactly if its byte is there (`mem_lenientChars_single`).
-/

namespace ProximityLab.Text

/-! ## The bytes of one character -/

theorem toNat_ofNat_of_valid {n : Nat} (h : n < 0xD800 ∨ 0xDFFF < n ∧ n < 0x110000) :
    (Char.ofNat n).toNat = n := by
  have hvalid : n.isValidChar := h
  rw [Char.ofNat, dif_pos hvalid]
  rfl

theorem isContinuation_iff (b : UInt8) :
    isContinuation b = true ↔ 0x80 ≤ b.toNat ∧ b.toNat ≤ 0xBF := by
  simp [isContinuation, UInt8.le_iff_toNat_le]

theorem byte_eq {b : UInt8} {k : Nat} (h : k = b.toNat) : UInt8.ofNat k = b := by
  rw [h, UInt8.ofNat_toNat]

theorem payload_of_continuation {b : UInt8} (h : isContinuation b = true) :
    payload b < 64 ∧ b.toNat = 0x80 + payload b := by
  have hb := (isContinuation_iff b).1 h
  unfold payload
  omega

/-- The second bytes leave out what is too long, what stands for surrogates and what is beyond the
last character. -/
theorem isSecond_bounds {a b : UInt8} (h : isSecond a b = true) :
    isContinuation b = true ∧ (a.toNat = 0xE0 → 0xA0 ≤ b.toNat) ∧
      (a.toNat = 0xED → b.toNat ≤ 0x9F) ∧ (a.toNat = 0xF0 → 0x90 ≤ b.toNat) ∧
      (a.toNat = 0xF4 → b.toNat ≤ 0x8F) := by
  rw [isContinuation_iff]
  unfold isSecond at h
  simp only [← UInt8.toNat_inj] at h
  split_ifs at h <;> simp [isContinuation, UInt8.le_iff_toNat_le] at h <;> simp at * <;> omega

/-- Two bytes that are scanned as a character are the bytes of that character. -/
theorem encodeChar_two {a b : UInt8} (ha : 0xC2 ≤ a.toNat ∧ a.toNat ≤ 0xDF)
    (hb : isContinuation b = true) :
    encodeChar (Char.ofNat ((a.toNat - 0xC0) * 64 + payload b)) = [a, b] := by
  obtain ⟨hpb, hb⟩ := payload_of_continuation hb
  have hn := toNat_ofNat_of_valid (n := (a.toNat - 0xC0) * 64 + payload b) (by omega)
  unfold encodeChar
  dsimp only
  rw [hn, if_neg (by omega), if_pos (by omega), byte_eq (b := a) (by omega),
    byte_eq (b := b) (by omega)]

theorem encodeChar_three {a b c : UInt8} (ha : 0xE0 ≤ a.toNat ∧ a.toNat ≤ 0xEF)
    (hb : isSecond a b = true) (hc : isContinuation c = true) :
    encodeChar (Char.ofNat ((a.toNat - 0xE0) * 4096 + payload b * 64 + payload c)) = [a, b, c] := by
  obtain ⟨hb, he0, hed, -⟩ := isSecond_bounds hb
  obtain ⟨hpb, hb⟩ := payload_of_continuation hb
  obtain ⟨hpc, hc⟩ := payload_of_continuation hc
  have hn :=
    toNat_ofNat_of_valid (n := (a.toNat - 0xE0) * 4096 + payload b * 64 + payload c) (by omega)
  unfold encodeChar
  dsimp only
  rw [hn, if_neg (by omega), if_neg (by omega), if_pos (by omega), byte_eq (b := a) (by omega),
    byte_eq (b := b) (by omega), byte_eq (b := c) (by omega)]

theorem encodeChar_four {a b c d : UInt8} (ha : 0xF0 ≤ a.toNat ∧ a.toNat ≤ 0xF4)
    (hb : isSecond a b = true) (hc : isContinuation c = true) (hd : isContinuation d = true) :
    encodeChar (Char.ofNat
      ((a.toNat - 0xF0) * 262144 + payload b * 4096 + payload c * 64 + payload d)) =
      [a, b, c, d] := by
  obtain ⟨hb, -, -, hf0, hf4⟩ := isSecond_bounds hb
  obtain ⟨hpb, hb⟩ := payload_of_continuation hb
  obtain ⟨hpc, hc⟩ := payload_of_continuation hc
  obtain ⟨hpd, hd⟩ := payload_of_continuation hd
  have hn := toNat_ofNat_of_valid
    (n := (a.toNat - 0xF0) * 262144 + payload b * 4096 + payload c * 64 + payload d) (by omega)
  unfold encodeChar
  dsimp only
  rw [hn, if_neg (by omega), if_neg (by omega), if_neg (by omega), byte_eq (b := a) (by omega),
    byte_eq (b := b) (by omega), byte_eq (b := c) (by omega), byte_eq (b := d) (by omega)]

theorem encodeChar_one {a : UInt8} (ha : a.toNat < 0x80) :
    encodeChar (Char.ofNat a.toNat) = [a] := by
  have hn := toNat_ofNat_of_valid (n := a.toNat) (by omega)
  unfold encodeChar
  dsimp only
  rw [hn, if_pos ha, UInt8.ofNat_toNat]

/-! ## One step -/

theorem lenientChars_nil : lenientChars [] = [] := rfl

theorem lenientChars_encodeChar (c : Char) (bs : List UInt8) :
    lenientChars (encodeChar c ++ bs) = lenientChars (encodeChar c) ++ lenientChars bs := by
  have hc := scan_encodeChar c []
  rw [List.append_nil] at hc
  rw [lenientChars, scan_encodeChar, lenientChars, hc, lenientChars, ← List.filterMap_append]
  rfl

theorem lenientChars_of_scan {bs rest : List UInt8} (h : scan bs = none :: scan rest) :
    lenientChars bs = lenientChars rest := by
  rw [lenientChars, h]
  rfl

/-- A byte that only continues a character is not read at the beginning. -/
theorem lenientChars_continuation {b : UInt8} (h : isContinuation b = true) (bs : List UInt8) :
    lenientChars (b :: bs) = lenientChars bs := by
  have hb := (isContinuation_iff b).1 h
  refine lenientChars_of_scan ?_
  rw [scan.eq_def]
  simp only [UInt8.lt_iff_toNat_lt, UInt8.le_iff_toNat_le, Bool.and_eq_true, decide_eq_true_eq]
  rw [if_neg (by simp; omega), if_neg (by simp; omega), if_neg (by simp; omega),
    if_neg (by simp; omega)]

/-- Bytes that begin with an ill-formed part: one byte, or the beginning of a character of three or
four bytes which the next byte does not continue. -/
inductive IllFormed : List UInt8 → Prop where
  | one {a : UInt8} {bs : List UInt8} (h : scan (a :: bs) = none :: scan bs) : IllFormed (a :: bs)
  | two {a b : UInt8} {bs : List UInt8} (hb : isContinuation b = true)
      (h : scan (a :: b :: bs) = none :: scan bs) :
    IllFormed (a :: b :: bs)
  | three {a b c : UInt8} {bs : List UInt8} (hb : isContinuation b = true)
      (hc : isContinuation c = true)
    (h : scan (a :: b :: c :: bs) = none :: scan bs) : IllFormed (a :: b :: c :: bs)

/-- Of an ill-formed part nothing is read, so only its first byte counts. -/
theorem IllFormed.lenientChars_eq {bs : List UInt8} (h : IllFormed bs) :
    lenientChars bs = lenientChars bs.tail := by
  cases h with
  | one h => exact lenientChars_of_scan h
  | two hb h => rw [lenientChars_of_scan h, List.tail_cons, lenientChars_continuation hb]
  | three hb hc h =>
    rw [lenientChars_of_scan h, List.tail_cons, lenientChars_continuation hb,
      lenientChars_continuation hc]

theorem IllFormed.none_mem {bs : List UInt8} (h : IllFormed bs) : none ∈ scan bs := by
  cases h with
  | one h | two _ h | three _ _ h => exact h ▸ List.mem_cons_self

/-- The bytes begin with those of a character, or with an ill-formed part. -/
def Scanned (bs : List UInt8) : Prop := (∃ c rest, bs = encodeChar c ++ rest) ∨ IllFormed bs

theorem scanned_two {a : UInt8} (h₁ : ¬ a < 0x80) (h₂ : (0xC2 ≤ a && a ≤ 0xDF) = true)
    (bs : List UInt8) :
    Scanned (a :: bs) := by
  have ha : 0xC2 ≤ a.toNat ∧ a.toNat ≤ 0xDF := by simpa [UInt8.le_iff_toNat_le] using h₂
  match bs with
  | [] =>
    exact .inr (.one (by rw [scan.eq_def]; simp only [if_neg h₁, if_pos h₂]; rfl))
  | b :: bs =>
    by_cases hb : isContinuation b = true
    · exact .inl ⟨_, bs, by rw [encodeChar_two ha hb]; rfl⟩
    · exact .inr (.one (by rw [scan.eq_def]; simp only [if_neg h₁, if_pos h₂, if_neg hb]))

theorem scanned_three {a : UInt8} (h₁ : ¬ a < 0x80) (h₂ : ¬ (0xC2 ≤ a && a ≤ 0xDF) = true)
    (h₃ : (0xE0 ≤ a && a ≤ 0xEF) = true) (bs : List UInt8) : Scanned (a :: bs) := by
  have ha : 0xE0 ≤ a.toNat ∧ a.toNat ≤ 0xEF := by simpa [UInt8.le_iff_toNat_le] using h₃
  match bs with
  | [] =>
    exact .inr (.one (by rw [scan.eq_def]; simp only [if_neg h₁, if_neg h₂, if_pos h₃]; rfl))
  | [b] =>
    by_cases hb : isSecond a b = true
    · exact .inr (.two (isSecond_bounds hb).1
        (by rw [scan.eq_def]; simp only [if_neg h₁, if_neg h₂, if_pos h₃, if_pos hb]; rfl))
    · exact .inr (.one
        (by rw [scan.eq_def]; simp only [if_neg h₁, if_neg h₂, if_pos h₃, if_neg hb]))
  | b :: c :: bs =>
    by_cases hb : isSecond a b = true
    · by_cases hc : isContinuation c = true
      · exact .inl ⟨_, bs, by rw [encodeChar_three ha hb hc]; rfl⟩
      · exact .inr (.two (isSecond_bounds hb).1
          (by rw [scan.eq_def]; simp only [if_neg h₁, if_neg h₂, if_pos h₃, if_pos hb, if_neg hc]))
    · exact .inr (.one
        (by rw [scan.eq_def]; simp only [if_neg h₁, if_neg h₂, if_pos h₃, if_neg hb]))

theorem scanned_four {a : UInt8} (h₁ : ¬ a < 0x80) (h₂ : ¬ (0xC2 ≤ a && a ≤ 0xDF) = true)
    (h₃ : ¬ (0xE0 ≤ a && a ≤ 0xEF) = true) (h₄ : (0xF0 ≤ a && a ≤ 0xF4) = true) (bs : List UInt8) :
    Scanned (a :: bs) := by
  have ha : 0xF0 ≤ a.toNat ∧ a.toNat ≤ 0xF4 := by simpa [UInt8.le_iff_toNat_le] using h₄
  match bs with
  | [] =>
    exact .inr (.one (by
      rw [scan.eq_def]; simp only [if_neg h₁, if_neg h₂, if_neg h₃, if_pos h₄]; rfl))
  | [b] =>
    by_cases hb : isSecond a b = true
    · exact .inr (.two (isSecond_bounds hb).1
        (by rw [scan.eq_def]; simp only [if_neg h₁, if_neg h₂, if_neg h₃, if_pos h₄,
          if_pos hb]; rfl))
    · exact .inr (.one
        (by rw [scan.eq_def]; simp only [if_neg h₁, if_neg h₂, if_neg h₃, if_pos h₄, if_neg hb]))
  | [b, c] =>
    by_cases hb : isSecond a b = true
    · by_cases hc : isContinuation c = true
      · exact .inr (.three (isSecond_bounds hb).1 hc
          (by rw [scan.eq_def]; simp only [if_neg h₁, if_neg h₂, if_neg h₃, if_pos h₄, if_pos hb,
            if_pos hc]; rfl))
      · exact .inr (.two (isSecond_bounds hb).1
          (by rw [scan.eq_def]; simp only [if_neg h₁, if_neg h₂, if_neg h₃, if_pos h₄, if_pos hb,
            if_neg hc]))
    · exact .inr (.one
        (by rw [scan.eq_def]; simp only [if_neg h₁, if_neg h₂, if_neg h₃, if_pos h₄, if_neg hb]))
  | b :: c :: d :: bs =>
    by_cases hb : isSecond a b = true
    · by_cases hc : isContinuation c = true
      · by_cases hd : isContinuation d = true
        · exact .inl ⟨_, bs, by rw [encodeChar_four ha hb hc hd]; rfl⟩
        · exact .inr (.three (isSecond_bounds hb).1 hc (by
            rw [scan.eq_def]
            simp only [if_neg h₁, if_neg h₂, if_neg h₃, if_pos h₄, if_pos hb, if_pos hc,
              if_neg hd]))
      · exact .inr (.two (isSecond_bounds hb).1
          (by rw [scan.eq_def]; simp only [if_neg h₁, if_neg h₂, if_neg h₃, if_pos h₄, if_pos hb,
            if_neg hc]))
    · exact .inr (.one
        (by rw [scan.eq_def]; simp only [if_neg h₁, if_neg h₂, if_neg h₃, if_pos h₄, if_neg hb]))

theorem scanned (a : UInt8) (bs : List UInt8) : Scanned (a :: bs) := by
  by_cases h₁ : a < 0x80
  · exact .inl ⟨_, bs, by rw [encodeChar_one (by simpa [UInt8.lt_iff_toNat_lt] using h₁)]; rfl⟩
  by_cases h₂ : (0xC2 ≤ a && a ≤ 0xDF) = true
  · exact scanned_two h₁ h₂ bs
  by_cases h₃ : (0xE0 ≤ a && a ≤ 0xEF) = true
  · exact scanned_three h₁ h₂ h₃ bs
  by_cases h₄ : (0xF0 ≤ a && a ≤ 0xF4) = true
  · exact scanned_four h₁ h₂ h₃ h₄ bs
  · exact .inr (.one (by rw [scan.eq_def]; simp only [if_neg h₁, if_neg h₂, if_neg h₃, if_neg h₄]))

/-- The bytes begin with those of a character, or their first byte is not read. -/
def Leading (bs : List UInt8) : Prop :=
  (∃ c rest, bs = encodeChar c ++ rest) ∨ lenientChars bs = lenientChars bs.tail

theorem leading (a : UInt8) (bs : List UInt8) : Leading (a :: bs) :=
  (scanned a bs).imp_right IllFormed.lenientChars_eq

theorem encodeChar_lead (c : Char) :
    ∃ lead conts, encodeChar c = lead :: conts ∧ isContinuation lead = false ∧
    ∀ b ∈ conts, isContinuation b = true := by
  have hvalid : c.toNat < 0xD800 ∨ 0xDFFF < c.toNat ∧ c.toNat < 0x110000 := c.valid
  have hlead : ∀ {k : Nat}, k < 256 → (k < 0x80 ∨ 0xBF < k) →
      isContinuation (UInt8.ofNat k) = false := by
    intro k hk h
    rw [← Bool.not_eq_true, isContinuation_iff, toNat_byte hk]
    omega
  unfold encodeChar
  dsimp only
  split_ifs with h₁ h₂ h₃
  · exact ⟨_, _, rfl, hlead (by omega) (by omega),
      by simp only [List.not_mem_nil, false_implies, implies_true]⟩
  · exact ⟨_, _, rfl, hlead (by omega) (by omega),
      by simp only [List.forall_mem_cons, isContinuation_byte, List.not_mem_nil, false_implies,
        implies_true, and_true]⟩
  · exact ⟨_, _, rfl, hlead (by omega) (by omega),
      by simp only [List.forall_mem_cons, isContinuation_byte, List.not_mem_nil, false_implies,
        implies_true, and_true]⟩
  · exact ⟨_, _, rfl, hlead (by omega) (by omega),
      by simp only [List.forall_mem_cons, isContinuation_byte, List.not_mem_nil, false_implies,
        implies_true, and_true]⟩

theorem encodeChar_ne_nil (c : Char) : encodeChar c ≠ [] := by
  obtain ⟨lead, conts, hc, -⟩ := encodeChar_lead c
  simp [hc]

/-- Of the bytes of a character all but the first continue it. -/
theorem isContinuation_of_encodeChar {c : Char} {a b : List UInt8} (h : encodeChar c = a ++ b)
    (ha : a ≠ []) :
    ∀ x ∈ b, isContinuation x = true := by
  obtain ⟨lead, conts, hc, -, hconts⟩ := encodeChar_lead c
  obtain ⟨x, a, rfl⟩ := List.exists_cons_of_ne_nil ha
  rw [hc, List.cons_append] at h
  obtain ⟨-, rfl⟩ := List.cons.inj h
  exact fun x hx => hconts x (List.mem_append_right _ hx)

theorem lenientChars_continuations {bs : List UInt8} (h : ∀ b ∈ bs, isContinuation b = true)
    (rest : List UInt8) :
    lenientChars (bs ++ rest) = lenientChars rest := by
  induction bs with
  | nil => rfl
  | cons b bs ih =>
    obtain ⟨hb, hbs⟩ := List.forall_mem_cons.1 h
    rw [List.cons_append, lenientChars_continuation hb, ih hbs]

theorem encodeChar_inj {c c' : Char} {rest : List UInt8}
    (h : encodeChar c = encodeChar c' ++ rest) : rest = [] := by
  have hscan := scan_encodeChar c []
  rw [List.append_nil, h, scan_encodeChar] at hscan
  obtain rfl : c' = c := Option.some.inj (List.cons.inj hscan).1
  simpa using h

/-- The beginning of a character is not read. -/
theorem lenientChars_of_beginning {c : Char} {a b : List UInt8} (h : encodeChar c = a ++ b)
    (hb : b ≠ []) :
    lenientChars a = [] := by
  cases a with
  | nil => rfl
  | cons x a =>
    rcases leading x a with ⟨c', rest, hrest⟩ | hdrop
    · rw [hrest, List.append_assoc] at h
      exact absurd (List.append_eq_nil_iff.1 (encodeChar_inj h)).2 hb
    · have hconts := isContinuation_of_encodeChar (a := [x]) (b := a ++ b) h (by simp)
      have hnil := lenientChars_continuations (fun y hy => hconts y (List.mem_append_left b hy)) []
      rw [List.append_nil] at hnil
      rw [hdrop, List.tail_cons, hnil, lenientChars_nil]

/-! ## Two parts -/

/-- The bytes of the character lie at the end of the one sequence and at the beginning of the
other. -/
def Splits (c : Char) (front back : List UInt8) : Prop :=
  ∃ a b, a ≠ [] ∧ b ≠ [] ∧ encodeChar c = a ++ b ∧ a <:+ front ∧ b <+: back

theorem Splits.of_suffix {c : Char} {front front' back : List UInt8} (h : Splits c front back)
    (hs : front <:+ front') : Splits c front' back := by
  obtain ⟨a, b, ha, hb, hc, hfront, hback⟩ := h
  exact ⟨a, b, ha, hb, hc, hfront.trans hs, hback⟩

/-- Bytes in two parts are read like the parts, unless a character is split between them. -/
theorem splits_or_lenientChars_append (front back : List UInt8) :
    (∃ c, Splits c front back) ∨
      lenientChars (front ++ back) = lenientChars front ++ lenientChars back := by
  induction hn : front.length using Nat.strongRecOn generalizing front with
  | ind n ih =>
    cases front with
    | nil => exact .inr rfl
    | cons x front =>
      by_cases hchar : ∃ c rest, x :: front = encodeChar c ++ rest
      · obtain ⟨c, rest, hrest⟩ := hchar
        have hlt : rest.length < n := by
          have := congrArg List.length hrest
          have := List.length_pos_iff.2 (encodeChar_ne_nil c)
          simp only [List.length_append] at *
          omega
        rcases ih _ hlt rest rfl with ⟨c', hc'⟩ | heq
        · exact .inl ⟨c', hc'.of_suffix (hrest ▸ List.suffix_append _ _)⟩
        · right
          rw [hrest, List.append_assoc, lenientChars_encodeChar, heq, lenientChars_encodeChar,
            List.append_assoc]
      · have hdrop : lenientChars (x :: front) = lenientChars front :=
          (leading x front).resolve_left hchar
        rcases leading x (front ++ back) with ⟨c, rest, hrest⟩ | hdrop'
        · rw [← List.cons_append] at hrest
          rcases List.append_eq_append_iff.1 hrest with ⟨m, hc, hback⟩ | ⟨m, hfront, -⟩
          · by_cases hm : m = []
            · exact absurd ⟨c, [], by rw [hc, hm, List.append_nil, List.append_nil]⟩ hchar
            · exact .inl ⟨c, x :: front, m,
                by simp, hm, hc, List.suffix_refl _, hback ▸ List.prefix_append _ _⟩
          · exact absurd ⟨c, m, hfront⟩ hchar
        · rcases ih front.length (by simp at hn; omega) front rfl with ⟨c', hc'⟩ | heq
          · exact .inl ⟨c', hc'.of_suffix (List.suffix_cons _ _)⟩
          · right
            rw [hdrop, ← heq, List.cons_append, hdrop', List.tail_cons]

/-- Where no character is continued, bytes can be cut. -/
theorem lenientChars_append {back : List UInt8} (h : ∀ b ∈ back.head?, isContinuation b = false)
    (front : List UInt8) :
    lenientChars (front ++ back) = lenientChars front ++ lenientChars back := by
  refine (splits_or_lenientChars_append front back).resolve_left ?_
  rintro ⟨c, a, b, ha, hb, hc, -, hback⟩
  obtain ⟨x, b, rfl⟩ := List.exists_cons_of_ne_nil hb
  obtain ⟨rest, rfl⟩ := hback
  have hcont := isContinuation_of_encodeChar hc ha x List.mem_cons_self
  rw [h x rfl] at hcont
  cases hcont

/-- A character that is split between two parts is read only where they come together. -/
theorem Splits.lenientChars_append {c : Char} {front back : List UInt8} (h : Splits c front back) :
    lenientChars (front ++ back) =
      lenientChars front ++ lenientChars (encodeChar c) ++ lenientChars back := by
  obtain ⟨a, b, ha, hb, hc, ⟨front, rfl⟩, ⟨back, rfl⟩⟩ := h
  have hlead : ∀ rest, ∀ x ∈ (a ++ rest).head?, isContinuation x = false := by
    obtain ⟨lead, conts, hlead, hfalse, -⟩ := encodeChar_lead c
    obtain ⟨x, a, rfl⟩ := List.exists_cons_of_ne_nil ha
    rw [hlead, List.cons_append] at hc
    obtain ⟨rfl, -⟩ := List.cons.inj hc
    rintro rest _ ⟨⟩
    exact hfalse
  have hfront : lenientChars (front ++ a) = lenientChars front := by
    have := ProximityLab.Text.lenientChars_append (hlead []) front
    simpa [lenientChars_of_beginning hc hb] using this
  calc lenientChars (front ++ a ++ (b ++ back))
      = lenientChars (front ++ (a ++ (b ++ back))) := by rw [List.append_assoc]
    _ = lenientChars front ++ lenientChars (encodeChar c ++ back) := by
      rw [ProximityLab.Text.lenientChars_append (hlead _) front, ← List.append_assoc a, ← hc]
    _ = lenientChars (front ++ a) ++ lenientChars (encodeChar c) ++ lenientChars (b ++ back) := by
      rw [hfront, lenientChars_encodeChar, List.append_assoc,
        lenientChars_continuations (isContinuation_of_encodeChar hc ha)]

/-! ## Texts -/

theorem lenientChars_encodeChar_of_ne {c : Char} (h : c ≠ replacement) :
    lenientChars (encodeChar c) = [c] := by
  have hscan := scan_encodeChar c []
  rw [List.append_nil] at hscan
  simp [lenientChars, hscan, scan, Option.filter, h]

/-- The bytes of characters are read as these characters. -/
theorem lenientChars_flatMap {cs : List Char} (h : replacement ∉ cs) :
    lenientChars (cs.flatMap encodeChar) = cs := by
  induction cs with
  | nil => rfl
  | cons c cs ih =>
    obtain ⟨hc, hcs⟩ := not_or.1 (mt List.mem_cons.2 h)
    rw [List.flatMap_cons, lenientChars_encodeChar, lenientChars_encodeChar_of_ne (Ne.symm hc),
      ih hcs, List.singleton_append]

/-- Whichever character the bytes of characters contain is one of these. -/
theorem mem_of_infix {c : Char} {cs : List Char} (h : encodeChar c <:+: cs.flatMap encodeChar) :
    c ∈ cs := by
  obtain ⟨front, back, h⟩ := h
  induction cs generalizing front with
  | nil => simp [encodeChar_ne_nil] at h
  | cons d cs ih =>
    rw [List.flatMap_cons, List.append_assoc] at h
    rcases List.append_eq_append_iff.1 h with ⟨m, hd, hrest⟩ | ⟨m, hfront, hrest⟩
    · cases front with
      | nil =>
        have hscan := scan_encodeChar c back
        rw [← List.nil_append (encodeChar c), List.append_assoc, h, scan_encodeChar] at hscan
        obtain rfl : d = c := Option.some.inj (List.cons.inj hscan).1
        exact List.mem_cons_self
      | cons x front =>
        -- behind its first byte the other character has no byte that begins one
        have hcont := isContinuation_of_encodeChar hd (by simp)
        obtain ⟨lead, conts, hlead, hfalse, -⟩ := encodeChar_lead c
        cases m with
        | nil =>
          refine List.mem_cons_of_mem _ (ih [] ?_)
          simpa using hrest
        | cons y m =>
          rw [hlead, List.cons_append, List.cons_append] at hrest
          obtain ⟨rfl, -⟩ := List.cons.inj hrest
          rw [hcont lead List.mem_cons_self] at hfalse
          cases hfalse
    · exact List.mem_cons_of_mem _ (ih m (by rw [List.append_assoc, ← hrest]))

/-- The byte of a character of one byte is a byte of no other character. -/
theorem single_mem_encodeChar {c d : Char} {b : UInt8} (hd : encodeChar d = [b]) :
    b ∈ encodeChar c ↔ c = d := by
  constructor
  · intro h
    obtain ⟨front, back, hc⟩ := List.append_of_mem h
    cases front with
    | nil =>
      have hscan := scan_encodeChar c []
      rw [List.append_nil, hc, List.nil_append,
        show b :: back = encodeChar d ++ back by rw [hd]; rfl, scan_encodeChar] at hscan
      exact (Option.some.inj (List.cons.inj hscan).1).symm
    | cons x front =>
      -- behind the first byte of a character there is no byte that begins one
      have hcont := isContinuation_of_encodeChar hc (by simp) b List.mem_cons_self
      obtain ⟨lead, conts, hlead, hfalse, -⟩ := encodeChar_lead d
      rw [hd] at hlead
      obtain ⟨rfl, -⟩ := List.cons.inj hlead
      rw [hcont] at hfalse
      cases hfalse
  · rintro rfl
    simp [hd]

theorem lenientChars_replacement : lenientChars (encodeChar replacement) = [] := by decide

/-- A character of one byte is read by itself, whatever stands around it. -/
theorem lenientChars_single {c : Char} {b : UInt8} (hc : encodeChar c = [b])
    (front back : List UInt8) :
    lenientChars (front ++ b :: back) = lenientChars front ++ c :: lenientChars back := by
  have hne : c ≠ replacement := by
    rintro rfl
    have hthree : (encodeChar replacement).length = 3 := by decide
    rw [hc] at hthree
    cases hthree
  have hread := lenientChars_encodeChar c back
  rw [lenientChars_encodeChar_of_ne hne, hc, List.singleton_append, List.singleton_append] at hread
  have hstart : ∀ x ∈ (b :: back).head?, isContinuation x = false := by
    obtain ⟨lead, conts, hlead, hfalse, -⟩ := encodeChar_lead c
    rw [hc] at hlead
    obtain ⟨rfl, -⟩ := List.cons.inj hlead
    rintro _ ⟨⟩
    exact hfalse
  rw [lenientChars_append hstart front, hread]

/-- A line feed is read by itself. -/
theorem lenientChars_feed (front back : List UInt8) :
    lenientChars (front ++ 10 :: back) = lenientChars front ++ '\n' :: lenientChars back :=
  lenientChars_single rfl front back

/-- Whichever character is read, its bytes are there. -/
theorem infix_of_mem_lenientChars {c : Char} {bytes : List UInt8} (h : c ∈ lenientChars bytes) :
    encodeChar c <:+: bytes := by
  induction hn : bytes.length using Nat.strongRecOn generalizing bytes with
  | ind n ih =>
    cases bytes with
    | nil => simp [lenientChars_nil] at h
    | cons b bytes =>
      rcases leading b bytes with ⟨d, rest, hrest⟩ | hdrop
      · have hlt : rest.length < n := by
          have hlength := congrArg List.length hrest
          have hpos := List.length_pos_iff.2 (encodeChar_ne_nil d)
          rw [List.length_append] at hlength
          omega
        rw [hrest, lenientChars_encodeChar] at h
        rw [hrest]
        rcases List.mem_append.1 h with h | h
        · have hd : d ≠ replacement := by
            rintro rfl
            rw [lenientChars_replacement] at h
            cases h
          rw [lenientChars_encodeChar_of_ne hd, List.mem_singleton] at h
          rw [h]
          exact (List.prefix_append _ _).isInfix
        · exact (ih _ hlt h rfl).trans (List.suffix_append _ _).isInfix
      · rw [hdrop] at h
        exact (ih bytes.length (by rw [← hn]; simp) h rfl).trans (List.suffix_cons b bytes).isInfix

/-- A character of one byte is read exactly if its byte is there. -/
theorem mem_lenientChars_single {c : Char} {b : UInt8} (hc : encodeChar c = [b])
    {bytes : List UInt8} :
    c ∈ lenientChars bytes ↔ b ∈ bytes := by
  constructor
  · intro h
    have hinfix := infix_of_mem_lenientChars h
    rw [hc] at hinfix
    exact hinfix.mem List.mem_cons_self
  · intro h
    obtain ⟨front, back, rfl⟩ := List.append_of_mem h
    simp [lenientChars_single hc]

theorem replacement_not_mem_lenientChars (bytes : List UInt8) :
    replacement ∉ lenientChars bytes := by
  simp [lenientChars, Option.filter_eq_some_iff]

end ProximityLab.Text
