import ProximityLab.Proofs.Lists
import ProximityLab.Proofs.Text.Lenient
import ProximityLab.Proofs.Text.Lines

/-!
# What lenient reading keeps

A log holds whatever came from a terminal, and reading it leniently leaves out what is ill-formed.
What is left does not hang on whether the bytes are cut before they are read or after.

- **Well-formed bytes** (`WellFormed`): the bytes of texts are those that are UTF-8
  (`wellFormed_iff_isValidUTF8`), and those that the strict reader takes (`decode?_eq_some_iff`).
  They are read as they are, apart from replacement characters (`encode_decodeLenient_eq_iff`).
- **Cuts** (`decodeLenient_append`, `decodeLenient_flatten`): bytes can be cut behind well-formed
  bytes, and wherever no character is continued. What may not be split is a character that would be
  read (`decodeLenient_append_iff`).
- **Separators** (`split_decodeLenient`): the characters of one byte separate bytes and text alike.
- **ASCII** (`ascii_decodeLenient`): bytes below 128 are all kept, in their order.
- **All together** (`decodeLenient_keeps`).
-/

namespace ProximityLab.Text

/-! ## Well-formed bytes -/

/-- Bytes that are those of a text. -/
def WellFormed (bytes : List UInt8) : Prop := ∃ s, encode s = bytes

/-- Bytes without an ill-formed part begin with those of the character that is scanned. -/
theorem exists_scan_eq_cons {a : UInt8} {bs : List UInt8} (h : none ∉ scan (a :: bs)) :
    ∃ c rest, a :: bs = encodeChar c ++ rest ∧ scan (a :: bs) = some c :: scan rest := by
  obtain ⟨c, rest, hrest⟩ := (scanned a bs).resolve_right (mt IllFormed.none_mem h)
  exact ⟨c, rest, hrest, by rw [hrest, scan_encodeChar]⟩

/-- Bytes without an ill-formed part are those of the characters that are scanned. -/
theorem flatMap_encodeChar_of_scan {bytes : List UInt8} {cs : List Char}
    (h : scan bytes = cs.map some) :
    cs.flatMap encodeChar = bytes := by
  have hformed : none ∉ scan bytes := by simp [h]
  induction cs generalizing bytes with
  | nil =>
    cases bytes with
    | nil => rfl
    | cons a bs =>
      obtain ⟨c, rest, -, hscan⟩ := exists_scan_eq_cons hformed
      rw [hscan] at h
      cases h
  | cons c cs ih =>
    cases bytes with
    | nil => cases h
    | cons a bs =>
      obtain ⟨d, rest, hrest, hscan⟩ := exists_scan_eq_cons hformed
      rw [hscan] at h
      obtain ⟨hd, hback⟩ := List.cons.inj h
      obtain rfl := Option.some.inj hd
      rw [List.flatMap_cons, ih hback (by simp [hback]), hrest]

theorem eq_map_some_of_mapM_id {α : Type} {items : List (Option α)} {as : List α}
    (h : items.mapM id = some as) :
    items = as.map some := by
  have hitems := mapM_eq_some_iff.1 h
  clear h
  induction hitems with
  | nil => rfl
  | cons hitem _ ih => rw [List.map_cons, ← ih, ← hitem, id]

/-- The strict reader takes the bytes of texts, and no others. -/
theorem decode?_eq_some_iff {bytes : List UInt8} {s : String} :
    decode? bytes = some s ↔ encode s = bytes := by
  constructor
  · intro h
    obtain ⟨cs, hcs, rfl⟩ := Option.map_eq_some_iff.1 h
    rw [encode, String.toList_ofList]
    exact flatMap_encodeChar_of_scan (eq_map_some_of_mapM_id hcs)
  · rintro rfl
    exact decode?_encode s

theorem wellFormed_iff_decode? {bytes : List UInt8} :
    WellFormed bytes ↔ (decode? bytes).isSome = true := by
  simp only [WellFormed, Option.isSome_iff_exists, decode?_eq_some_iff]

instance (bytes : List UInt8) : Decidable (WellFormed bytes) :=
  decidable_of_iff _ wellFormed_iff_decode?.symm

theorem encodeChar_eq_utf8EncodeChar (c : Char) : encodeChar c = String.utf8EncodeChar c := by
  have hvalid : c.toNat < 0xD800 ∨ 0xDFFF < c.toNat ∧ c.toNat < 0x110000 := c.valid
  unfold encodeChar String.utf8EncodeChar
  simp only [Char.toNat] at hvalid ⊢
  generalize c.val.toNat = n at hvalid
  by_cases h₁ : n < 0x80
  · rw [if_pos h₁, if_pos (by omega)]
  by_cases h₂ : n < 0x800
  · rw [if_neg h₁, if_pos h₂, if_neg (by omega), if_pos (by omega),
      show n / 64 % 32 = n / 64 by omega, Nat.add_comm 0xC0, Nat.add_comm 0x80]
  by_cases h₃ : n < 0x10000
  · rw [if_neg h₁, if_neg h₂, if_pos h₃, if_neg (by omega), if_neg (by omega), if_pos (by omega),
      show n / 4096 % 16 = n / 4096 by omega, Nat.add_comm 0xE0, Nat.add_comm 0x80,
      Nat.add_comm 0x80]
  · rw [if_neg h₁, if_neg h₂, if_neg h₃, if_neg (by omega), if_neg (by omega), if_neg (by omega),
      show n / 262144 % 8 = n / 262144 by omega, Nat.add_comm 0xF0, Nat.add_comm 0x80,
      Nat.add_comm 0x80, Nat.add_comm 0x80]

/-- The bytes of texts are the bytes that are UTF-8. -/
theorem wellFormed_iff_isValidUTF8 {bytes : List UInt8} :
    WellFormed bytes ↔ bytes.toByteArray.IsValidUTF8 := by
  have hencode : encodeChar = String.utf8EncodeChar := funext encodeChar_eq_utf8EncodeChar
  constructor
  · rintro ⟨s, rfl⟩
    exact .intro s.toList (by rw [encode, hencode, List.utf8Encode])
  · rintro ⟨cs, hcs⟩
    have hbytes := congrArg (fun array => array.data.toList) hcs
    simp only [List.utf8Encode, List.toList_data_toByteArray] at hbytes
    exact ⟨String.ofList cs, by rw [encode, String.toList_ofList, hencode, hbytes]⟩

/-! ## Texts -/

theorem replacement_not_mem_decodeLenient (bytes : List UInt8) :
    replacement ∉ (decodeLenient bytes).toList := by
  rw [decodeLenient, String.toList_ofList]
  exact replacement_not_mem_lenientChars bytes

/-- A text without replacement characters is read as it is. -/
theorem decodeLenient_encode {s : String} (h : replacement ∉ s.toList) :
    decodeLenient (encode s) = s := by
  rw [decodeLenient, encode, lenientChars_flatMap h, String.ofList_toList]

theorem lenientChars_encode_decodeLenient (bytes : List UInt8) :
    lenientChars (encode (decodeLenient bytes)) = lenientChars bytes := by
  rw [encode, decodeLenient, String.toList_ofList]
  exact lenientChars_flatMap (replacement_not_mem_lenientChars bytes)

theorem decodeLenient_encode_decodeLenient (bytes : List UInt8) :
    decodeLenient (encode (decodeLenient bytes)) = decodeLenient bytes := by
  rw [decodeLenient, lenientChars_encode_decodeLenient, decodeLenient]

/-- Reading changes nothing exactly if the bytes are well-formed and hold no replacement
character. -/
theorem encode_decodeLenient_eq_iff {bytes : List UInt8} :
    encode (decodeLenient bytes) = bytes ↔
      WellFormed bytes ∧ ¬ encodeChar replacement <:+: bytes := by
  constructor
  · intro h
    refine ⟨⟨_, h⟩, fun hinfix => ?_⟩
    rw [← h] at hinfix
    have hmem : replacement ∈ (decodeLenient bytes).toList := mem_of_infix hinfix
    exact replacement_not_mem_decodeLenient bytes hmem
  · rintro ⟨⟨s, rfl⟩, hinfix⟩
    rw [decodeLenient_encode fun hmem => hinfix ?_]
    obtain ⟨front, back, hs⟩ := List.append_of_mem hmem
    exact ⟨front.flatMap encodeChar, back.flatMap encodeChar, by simp [encode, hs]⟩

/-! ## Cuts -/

theorem lenientChars_flatMap_append (cs : List Char) (back : List UInt8) :
    lenientChars (cs.flatMap encodeChar ++ back) =
      lenientChars (cs.flatMap encodeChar) ++ lenientChars back := by
  induction cs with
  | nil => rfl
  | cons c cs ih =>
    rw [List.flatMap_cons, List.append_assoc, lenientChars_encodeChar, ih, lenientChars_encodeChar,
      List.append_assoc]

/-- Bytes can be cut behind well-formed bytes, and where no character is continued. -/
theorem decodeLenient_append {front back : List UInt8}
    (h : WellFormed front ∨ ∀ b ∈ back.head?, isContinuation b = false) :
    decodeLenient (front ++ back) = decodeLenient front ++ decodeLenient back := by
  have hchars : lenientChars (front ++ back) = lenientChars front ++ lenientChars back := by
    rcases h with ⟨s, rfl⟩ | hstart
    · exact lenientChars_flatMap_append s.toList back
    · exact lenientChars_append hstart front
  rw [decodeLenient, hchars, String.ofList_append, decodeLenient, decodeLenient]

/-- All in all they can be cut exactly where no character is split that would be read. -/
theorem decodeLenient_append_iff {front back : List UInt8} :
    decodeLenient (front ++ back) = decodeLenient front ++ decodeLenient back ↔
      ∀ c, Splits c front back → c = replacement := by
  rw [decodeLenient, decodeLenient, decodeLenient, ← String.ofList_append, String.ofList_inj]
  constructor
  · intro h c hc
    by_contra hne
    have hlength := congrArg List.length (hc.lenientChars_append.symm.trans h)
    simp [lenientChars_encodeChar_of_ne hne] at hlength
  · intro h
    rcases splits_or_lenientChars_append front back with ⟨c, hc⟩ | heq
    · rw [hc.lenientChars_append, h c hc, lenientChars_replacement, List.append_nil]
    · exact heq

/-- Neither half of an `é` is read. -/
example :
    decodeLenient ([0xC3] ++ [0xA9]) = "é" ∧ decodeLenient [0xC3] ++ decodeLenient [0xA9] = "" := by
  decide +kernel

/-- Bytes can be cut into any number of parts where no character is continued. -/
theorem decodeLenient_flatten {parts : List (List UInt8)}
    (h : ∀ part ∈ parts, ∀ b ∈ part.head?, isContinuation b = false) (front : List UInt8) :
    decodeLenient (front ++ parts.flatten) =
      decodeLenient front ++ String.join (parts.map decodeLenient) := by
  induction parts generalizing front with
  | nil => simp
  | cons part parts ih =>
    obtain ⟨hpart, hparts⟩ := List.forall_mem_cons.1 h
    rw [List.flatten_cons, ← List.append_assoc, ih hparts, decodeLenient_append (.inr hpart),
      List.map_cons, String.join_cons, String.append_assoc]

/-! ## Separators -/

/-- A character of one byte separates what is read where its byte separates the bytes. -/
theorem splitOn_lenientChars {c : Char} {b : UInt8} (hc : encodeChar c = [b]) (bytes : List UInt8) :
    splitOn c (lenientChars bytes) = (splitOn b bytes).map lenientChars :=
  splitOn_map (lenientChars_single hc) (fun _ => mt (mem_lenientChars_single hc).1) bytes

/-- The bytes of a text are split where the text is. -/
theorem splitOn_encode {c : Char} {b : UInt8} (hc : encodeChar c = [b]) (cs : List Char) :
    splitOn b (cs.flatMap encodeChar) = (splitOn c cs).map (·.flatMap encodeChar) := by
  refine splitOn_map (fun front back => by simp [hc]) (fun cs hmem hbyte => hmem ?_) cs
  obtain ⟨d, hd, hbyte⟩ := List.mem_flatMap.1 hbyte
  exact (single_mem_encodeChar hc).1 hbyte ▸ hd

theorem split_decodeLenient {c : Char} {b : UInt8} (hc : encodeChar c = [b]) (bytes : List UInt8) :
    split c (decodeLenient bytes) = (splitOn b bytes).map decodeLenient := by
  rw [split, decodeLenient, String.toList_ofList, splitOn_lenientChars hc, List.map_map]
  rfl

/-! ## ASCII -/

/-- The bytes below 128, in their order. -/
def ascii (bytes : List UInt8) : List UInt8 := bytes.filter (· < 0x80)

theorem encodeChar_ascii {c : Char} (h : c.toNat < 0x80) :
    encodeChar c = [UInt8.ofNat c.toNat] := by
  rw [encodeChar, if_pos h]

/-- Reading leniently neither takes away nor adds the byte of a character of one byte. -/
theorem single_mem_encode {c : Char} {b : UInt8} (hc : encodeChar c = [b]) (bytes : List UInt8) :
    b ∈ encode (decodeLenient bytes) ↔ b ∈ bytes := by
  have hread : c ∈ lenientChars bytes ↔ b ∈ bytes := mem_lenientChars_single hc
  rw [← hread, encode, decodeLenient, String.toList_ofList]
  simp [single_mem_encodeChar hc]

/-- Such a byte stays where it is between what is read in front of it and behind it. -/
theorem encode_decodeLenient_single {c : Char} {b : UInt8} (hc : encodeChar c = [b])
    (front back : List UInt8) :
    encode (decodeLenient (front ++ b :: back)) =
      encode (decodeLenient front) ++ b :: encode (decodeLenient back) := by
  simp [encode, decodeLenient, lenientChars_single hc, hc]

/-- Bytes below 128 are kept, in their order. -/
theorem ascii_decodeLenient (bytes : List UInt8) :
    ascii (encode (decodeLenient bytes)) = ascii bytes := by
  have hsingle : ∀ {b : UInt8}, b < 0x80 → encodeChar (Char.ofNat b.toNat) = [b] :=
    fun hb => encodeChar_one hb
  induction hn : bytes.length using Nat.strongRecOn generalizing bytes with
  | ind n ih =>
    by_cases hlow : ∃ b ∈ bytes, b < 0x80
    · obtain ⟨b, hmem, hb⟩ := hlow
      obtain ⟨front, back, rfl⟩ := List.append_of_mem hmem
      rw [List.length_append, List.length_cons] at hn
      have hfront := ih front.length (by omega) front rfl
      have hback := ih back.length (by omega) back rfl
      rw [encode_decodeLenient_single (hsingle hb)]
      simp only [ascii, List.filter_append, List.filter_cons] at hfront hback ⊢
      rw [hfront, hback]
    · have hnone : ∀ b ∈ bytes, ¬ b < 0x80 := fun b hb hlow' => hlow ⟨b, hb, hlow'⟩
      have hread : ∀ b ∈ encode (decodeLenient bytes), ¬ b < 0x80 := fun b hb hlow' =>
        hnone b ((single_mem_encode (hsingle hlow') bytes).1 hb) hlow'
      rw [ascii, ascii, List.filter_eq_nil_iff.2 (by simpa using hread),
        List.filter_eq_nil_iff.2 (by simpa using hnone)]

/-! ## All together -/

/-- What is read leniently of any bytes `a`. It holds no replacement character, and it is all of `a`
exactly if `a` is valid UTF-8 without one, so reading again changes nothing. Bytes can be cut behind
valid UTF-8 and where no character is continued. Bytes below 128 are all kept, in their order, and
each separates text where it separates bytes. -/
theorem decodeLenient_keeps (a b : List UInt8) :
    replacement ∉ (decodeLenient a).toList ∧
      (encode (decodeLenient a) = a ↔ a.toByteArray.IsValidUTF8 ∧ ¬ encodeChar replacement <:+: a) ∧
      decodeLenient (encode (decodeLenient a)) = decodeLenient a ∧
      (a.toByteArray.IsValidUTF8 ∨ (∀ x ∈ b.head?, isContinuation x = false) →
        decodeLenient (a ++ b) = decodeLenient a ++ decodeLenient b) ∧
      ascii (encode (decodeLenient a)) = ascii a ∧
      (∀ c : Char, c.toNat < 0x80 →
        split c (decodeLenient a) = (splitOn (UInt8.ofNat c.toNat) a).map decodeLenient) ∧
      ∀ parts : List (List UInt8), (∀ part ∈ parts, ∀ x ∈ part.head?, isContinuation x = false) →
        decodeLenient (a ++ parts.flatten) =
        decodeLenient a ++ String.join (parts.map decodeLenient) := by
  refine ⟨replacement_not_mem_decodeLenient a, ?_, decodeLenient_encode_decodeLenient a,
    fun h => ?_, ascii_decodeLenient a, fun c hc => ?_, fun parts hparts => ?_⟩
  · rw [encode_decodeLenient_eq_iff, wellFormed_iff_isValidUTF8]
  · exact decodeLenient_append (h.imp_left wellFormed_iff_isValidUTF8.2)
  · exact split_decodeLenient (encodeChar_ascii hc) a
  · exact decodeLenient_flatten hparts a

/-- A prompt and the beginning of a `€` that breaks off are no valid UTF-8, but they can be cut from
the line feed behind them. A line feed and an `é` are valid, so they can be cut from whatever is
behind them, even a byte that continues characters. -/
theorem decodeLenient_keeps_brokenOff :
    let a : List UInt8 := [0x3E, 0x20, 0xE2, 0x82]
    let b : List UInt8 := [0x0A, 0xC3, 0xA9]
    ¬ a.toByteArray.IsValidUTF8 ∧ (∀ x ∈ b.head?, isContinuation x = false) ∧
      decodeLenient (a ++ b) = decodeLenient a ++ decodeLenient b ∧ decodeLenient a = "> " ∧
      b.toByteArray.IsValidUTF8 ∧ ¬ encodeChar replacement <:+: b ∧ encode (decodeLenient b) = b ∧
      decodeLenient (b ++ [0xA9]) = decodeLenient b ++ decodeLenient [0xA9] ∧
      split '\n' (decodeLenient (a ++ b)) = [decodeLenient a, decodeLenient [0xC3, 0xA9]] ∧
      decodeLenient (a ++ [b, b].flatten) =
      decodeLenient a ++ String.join [decodeLenient b, decodeLenient b] := by
  intro a b
  have hstart : ∀ x ∈ b.head?, isContinuation x = false := by decide +kernel
  have hbroken : ¬ WellFormed a := by decide +kernel
  have hformed : WellFormed b := by decide +kernel
  have hvalid : b.toByteArray.IsValidUTF8 := wellFormed_iff_isValidUTF8.1 hformed
  have hclean : ¬ encodeChar replacement <:+: b := by decide +kernel
  refine ⟨mt wellFormed_iff_isValidUTF8.2 hbroken, hstart, ?_, by decide +kernel, hvalid, hclean,
    ?_, ?_, ?_, ?_⟩
  · exact (decodeLenient_keeps a b).2.2.2.1 (.inr hstart)
  · exact (decodeLenient_keeps b []).2.1.2 ⟨hvalid, hclean⟩
  · exact (decodeLenient_keeps b [0xA9]).2.2.2.1 (.inl hvalid)
  · exact (decodeLenient_keeps (a ++ b) []).2.2.2.2.2.1 '\n' (by decide)
  · exact (decodeLenient_keeps a []).2.2.2.2.2.2 [b, b] (by simpa using hstart)

end ProximityLab.Text
