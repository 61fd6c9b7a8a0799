import ProximityLab.Text.Utf8
import Mathlib.Tactic.SplitIfs

/-!
# Bytes of texts read back

`scan_encodeChar`: the bytes of a character are scanned as that character, whatever stands behind
them. `decode?_encode`: so the bytes of a text are read as that text.
-/

namespace ProximityLab.Text

theorem toNat_byte {k : Nat} (h : k < 256) : (UInt8.ofNat k).toNat = k := by
  rw [UInt8.toNat_ofNat']
  omega

/-! ## Single bytes -/

theorem byte_between (lo hi : UInt8) {k : Nat} (hlo : lo.toNat ≤ k) (hhi : k ≤ hi.toNat) :
    (decide (lo ≤ UInt8.ofNat k) && decide (UInt8.ofNat k ≤ hi)) = true := by
  have hlt := hi.toNat_lt
  simp only [Bool.and_eq_true, decide_eq_true_eq, UInt8.le_iff_toNat_le,
    toNat_byte (show k < 256 by omega)]
  exact ⟨hlo, hhi⟩

theorem byte_above (lo hi : UInt8) {k : Nat} (hk : k < 256) (h : hi.toNat < k) :
    ¬(decide (lo ≤ UInt8.ofNat k) && decide (UInt8.ofNat k ≤ hi)) = true := by
  simp only [Bool.and_eq_true, decide_eq_true_eq, UInt8.le_iff_toNat_le, toNat_byte hk]
  omega

theorem byte_not_ascii {k : Nat} (hk : k < 256) (h : 0x80 ≤ k) : ¬ UInt8.ofNat k < 0x80 := by
  rw [UInt8.lt_iff_toNat_lt, toNat_byte hk]
  exact Nat.not_lt.2 h

theorem byte_eq_iff {b : UInt8} {k : Nat} (hk : k < 256) : UInt8.ofNat k = b ↔ k = b.toNat := by
  rw [← UInt8.toNat_inj, toNat_byte hk]

theorem isContinuation_byte (k : Nat) : isContinuation (UInt8.ofNat (0x80 + k % 64)) = true :=
  byte_between _ _ (show 0x80 ≤ 0x80 + k % 64 by omega) (show 0x80 + k % 64 ≤ 0xBF by omega)

theorem payload_byte (k : Nat) : payload (UInt8.ofNat (0x80 + k % 64)) = k % 64 := by
  rw [payload, toNat_byte (by omega)]
  omega

/-! ## Characters -/

section Scan

variable {n : Nat} (bs : List UInt8)

theorem scan_one (h : n < 0x80) : scan (UInt8.ofNat n :: bs) = some (Char.ofNat n) :: scan bs := by
  have hbyte := toNat_byte (show n < 256 by omega)
  have hlow : UInt8.ofNat n < 0x80 := by
    rw [UInt8.lt_iff_toNat_lt, hbyte]
    exact h
  rw [scan.eq_def]
  simp only [if_pos hlow, hbyte]

theorem scan_two (h : 0x80 ≤ n) (h' : n < 0x800) :
    scan (UInt8.ofNat (0xC0 + n / 64) :: UInt8.ofNat (0x80 + n % 64) :: bs) =
      some (Char.ofNat n) :: scan bs := by
  have hlead : 0xC0 + n / 64 < 256 := by omega
  have htwo := byte_between 0xC2 0xDF
    (show 0xC2 ≤ 0xC0 + n / 64 by omega) (show 0xC0 + n / 64 ≤ 0xDF by omega)
  have hvalue : (0xC0 + n / 64 - 0xC0) * 64 + n % 64 = n := by omega
  rw [scan.eq_def]
  simp only [if_neg (byte_not_ascii hlead (by omega)), if_pos htwo, isContinuation_byte,
    payload_byte, toNat_byte hlead, hvalue, if_true]

theorem isSecond_three (h : 0x800 ≤ n) (h' : n < 0x10000) (hsurrogate : n < 0xD800 ∨ 0xDFFF < n) :
    isSecond (UInt8.ofNat (0xE0 + n / 4096)) (UInt8.ofNat (0x80 + n / 64 % 64)) = true := by
  have hlead : 0xE0 + n / 4096 < 256 := by omega
  unfold isSecond
  simp only [byte_eq_iff hlead]
  split_ifs with he0 hed hf0 hf4
  · replace he0 : 0xE0 + n / 4096 = 0xE0 := he0
    exact byte_between _ _ (show 0xA0 ≤ 0x80 + n / 64 % 64 by omega)
      (show 0x80 + n / 64 % 64 ≤ 0xBF by omega)
  · replace hed : 0xE0 + n / 4096 = 0xED := hed
    exact byte_between _ _ (show 0x80 ≤ 0x80 + n / 64 % 64 by omega)
      (show 0x80 + n / 64 % 64 ≤ 0x9F by omega)
  · replace hf0 : 0xE0 + n / 4096 = 0xF0 := hf0
    omega
  · replace hf4 : 0xE0 + n / 4096 = 0xF4 := hf4
    omega
  · exact isContinuation_byte _

theorem scan_three (h : 0x800 ≤ n) (h' : n < 0x10000) (hsurrogate : n < 0xD800 ∨ 0xDFFF < n) :
    scan (UInt8.ofNat (0xE0 + n / 4096) :: UInt8.ofNat (0x80 + n / 64 % 64) ::
      UInt8.ofNat (0x80 + n % 64) :: bs) = some (Char.ofNat n) :: scan bs := by
  have hlead : 0xE0 + n / 4096 < 256 := by omega
  have htwo := byte_above 0xC2 0xDF hlead (show 0xDF < 0xE0 + n / 4096 by omega)
  have hthree := byte_between 0xE0 0xEF
    (show 0xE0 ≤ 0xE0 + n / 4096 by omega) (show 0xE0 + n / 4096 ≤ 0xEF by omega)
  have hvalue : (0xE0 + n / 4096 - 0xE0) * 4096 + n / 64 % 64 * 64 + n % 64 = n := by omega
  rw [scan.eq_def]
  simp only [if_neg (byte_not_ascii hlead (by omega)), if_neg htwo, if_pos hthree,
    isSecond_three h h' hsurrogate, isContinuation_byte, payload_byte, toNat_byte hlead, hvalue,
    if_true]

theorem isSecond_four (h : 0x10000 ≤ n) (h' : n < 0x110000) :
    isSecond (UInt8.ofNat (0xF0 + n / 262144)) (UInt8.ofNat (0x80 + n / 4096 % 64)) = true := by
  have hlead : 0xF0 + n / 262144 < 256 := by omega
  unfold isSecond
  simp only [byte_eq_iff hlead]
  split_ifs with he0 hed hf0 hf4
  · replace he0 : 0xF0 + n / 262144 = 0xE0 := he0
    omega
  · replace hed : 0xF0 + n / 262144 = 0xED := hed
    omega
  · replace hf0 : 0xF0 + n / 262144 = 0xF0 := hf0
    exact byte_between _ _ (show 0x90 ≤ 0x80 + n / 4096 % 64 by omega)
      (show 0x80 + n / 4096 % 64 ≤ 0xBF by omega)
  · replace hf4 : 0xF0 + n / 262144 = 0xF4 := hf4
    exact byte_between _ _ (show 0x80 ≤ 0x80 + n / 4096 % 64 by omega)
      (show 0x80 + n / 4096 % 64 ≤ 0x8F by omega)
  · exact isContinuation_byte _

theorem scan_four (h : 0x10000 ≤ n) (h' : n < 0x110000) :
    scan (UInt8.ofNat (0xF0 + n / 262144) :: UInt8.ofNat (0x80 + n / 4096 % 64) ::
      UInt8.ofNat (0x80 + n / 64 % 64) :: UInt8.ofNat (0x80 + n % 64) :: bs) =
      some (Char.ofNat n) :: scan bs := by
  have hlead : 0xF0 + n / 262144 < 256 := by omega
  have htwo := byte_above 0xC2 0xDF hlead (show 0xDF < 0xF0 + n / 262144 by omega)
  have hthree := byte_above 0xE0 0xEF hlead (show 0xEF < 0xF0 + n / 262144 by omega)
  have hfour := byte_between 0xF0 0xF4
    (show 0xF0 ≤ 0xF0 + n / 262144 by omega) (show 0xF0 + n / 262144 ≤ 0xF4 by omega)
  have hvalue : (0xF0 + n / 262144 - 0xF0) * 262144 + n / 4096 % 64 * 4096 + n / 64 % 64 * 64 +
      n % 64 = n := by
    omega
  rw [scan.eq_def]
  simp only [if_neg (byte_not_ascii hlead (by omega)), if_neg htwo, if_neg hthree, if_pos hfour,
    isSecond_four h h', isContinuation_byte, payload_byte, toNat_byte hlead, hvalue, if_true]

end Scan

/-- The bytes of a character are scanned as that character. -/
theorem scan_encodeChar (c : Char) (bs : List UInt8) :
    scan (encodeChar c ++ bs) = some c :: scan bs := by
  have hvalid : c.toNat < 0xD800 ∨ 0xDFFF < c.toNat ∧ c.toNat < 0x110000 := c.valid
  have hback := c.ofNat_toNat
  unfold encodeChar
  dsimp only
  split_ifs with h₁ h₂ h₃
  · exact (scan_one bs h₁).trans (by rw [hback])
  · exact (scan_two bs (by omega) h₂).trans (by rw [hback])
  · exact (scan_three bs (by omega) h₃ (hvalid.imp_right And.left)).trans (by rw [hback])
  · exact (scan_four bs (by omega) (by omega)).trans (by rw [hback])

/-- The bytes of a text are read as that text. -/
theorem decode?_encode (s : String) : decode? (encode s) = some s := by
  have hscan : ∀ cs : List Char, scan (cs.flatMap encodeChar) = cs.map some := by
    intro cs
    induction cs with
    | nil => rfl
    | cons c cs ih => rw [List.flatMap_cons, scan_encodeChar, ih, List.map_cons]
  have hmap : ∀ cs : List Char, (cs.map some).mapM id = some cs := by
    intro cs
    induction cs with
    | nil => rfl
    | cons c cs ih =>
      rw [List.map_cons, List.mapM_cons, ih]
      rfl
  rw [decode?, encode, hscan, hmap]
  simp

end ProximityLab.Text
