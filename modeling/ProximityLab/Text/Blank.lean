/-!
# Blank characters

`isBlank` is the Unicode property White_Space. `trim` cuts blanks off both ends of a text,
`isBlankText` says that nothing else is there.

* `trimBlanks_eq_nil_iff`: trimming leaves nothing exactly of a blank text.
* `exists_trimBlanks`: what trimming cuts off is blank; blanks at either end make no difference to
  it (`trimBlanks_prepend`, `trimBlanks_append`), and without any nothing is cut off
  (`trimBlanks_of_ends`).
-/

namespace ProximityLab.Text

/-- The Unicode property White_Space. -/
def isBlank (c : Char) : Bool :=
  let n := c.toNat
  (0x09 ≤ n && n ≤ 0x0D) || n == 0x20 || n == 0x85 || n == 0xA0 || n == 0x1680 ||
  (0x2000 ≤ n && n ≤ 0x200A) || n == 0x2028 || n == 0x2029 || n == 0x202F || n == 0x205F ||
  n == 0x3000

/-- Drops the characters at the end that satisfy a test. -/
def dropWhileEnd (p : Char → Bool) (cs : List Char) : List Char :=
  (cs.reverse.dropWhile p).reverse

/-- Cuts blanks off both ends. -/
def trimBlanks (cs : List Char) : List Char := dropWhileEnd isBlank (cs.dropWhile isBlank)

/-- Cuts blanks off both ends of a text. -/
def trim (s : String) : String := String.ofList (trimBlanks s.toList)

/-- The text holds blanks only. -/
def isBlankText (s : String) : Bool := s.toList.all isBlank

theorem dropWhile_eq_nil_iff (p : Char → Bool) (cs : List Char) :
    cs.dropWhile p = [] ↔ cs.all p = true := by
  induction cs with
  | nil => simp
  | cons c cs ih => by_cases h : p c <;> simp [h, ih]

theorem trimBlanks_eq_nil_iff (cs : List Char) : trimBlanks cs = [] ↔ cs.all isBlank = true := by
  constructor
  · intro h
    have h' : ((cs.dropWhile isBlank).reverse.dropWhile isBlank) = [] := by
      simpa [trimBlanks, dropWhileEnd] using h
    rw [dropWhile_eq_nil_iff, List.all_reverse] at h'
    by_cases hc : cs.dropWhile isBlank = []
    · exact (dropWhile_eq_nil_iff _ _).1 hc
    · obtain ⟨c, r, hr⟩ := List.exists_cons_of_ne_nil hc
      have hb := List.head?_dropWhile_not isBlank cs
      rw [hr] at hb h'
      simp_all
  · intro h
    rw [trimBlanks, (dropWhile_eq_nil_iff _ _).2 h]
    rfl

theorem dropWhile_append_of_all {p : Char → Bool} {front : List Char} (h : ∀ c ∈ front, p c = true)
    (cs : List Char) :
    (front ++ cs).dropWhile p = cs.dropWhile p := by
  induction front with
  | nil => rfl
  | cons c front ih =>
    obtain ⟨hc, hfront⟩ := List.forall_mem_cons.1 h
    rw [List.cons_append, List.dropWhile_cons_of_pos hc, ih hfront]

/-- What is dropped at the end satisfies the test. -/
theorem exists_dropWhileEnd (p : Char → Bool) (cs : List Char) :
    ∃ back, cs = dropWhileEnd p cs ++ back ∧ ∀ c ∈ back, p c = true := by
  refine ⟨(cs.reverse.takeWhile p).reverse, ?_, fun c hc => ?_⟩
  · rw [dropWhileEnd, ← List.reverse_append, List.takeWhile_append_dropWhile, List.reverse_reverse]
  · exact List.all_eq_true.1 (List.all_takeWhile (l := cs.reverse)) c (List.mem_reverse.1 hc)

theorem dropWhileEnd_append {p : Char → Bool} {back : List Char} (h : ∀ c ∈ back, p c = true)
    (cs : List Char) :
    dropWhileEnd p (cs ++ back) = dropWhileEnd p cs := by
  rw [dropWhileEnd, List.reverse_append,
    dropWhile_append_of_all fun c hc => h c (List.mem_reverse.1 hc), dropWhileEnd]

theorem dropWhileEnd_cons_of_not {p : Char → Bool} {c : Char} (h : p c = false) (cs : List Char) :
    dropWhileEnd p (c :: cs) = c :: dropWhileEnd p cs := by
  rw [dropWhileEnd, List.reverse_cons, List.dropWhile_append, dropWhileEnd]
  split
  · rename_i hcs
    rw [List.isEmpty_iff.1 hcs]
    simp [h]
  · simp

/-- Blanks in front do not count. -/
theorem trimBlanks_prepend {front : List Char} (h : ∀ c ∈ front, isBlank c = true)
    (cs : List Char) :
    trimBlanks (front ++ cs) = trimBlanks cs := by
  rw [trimBlanks, dropWhile_append_of_all h, trimBlanks]

/-- Blanks at the end do not count. -/
theorem trimBlanks_append {back : List Char} (h : ∀ c ∈ back, isBlank c = true) (cs : List Char) :
    trimBlanks (cs ++ back) = trimBlanks cs := by
  rw [trimBlanks, trimBlanks, List.dropWhile_append]
  split
  · rename_i hcs
    rw [List.isEmpty_iff.1 hcs, (dropWhile_eq_nil_iff _ _).2 (List.all_eq_true.2 h)]
  · exact dropWhileEnd_append h _

/-- Only blanks are cut off. -/
theorem exists_trimBlanks (cs : List Char) : ∃ front back, cs = front ++ trimBlanks cs ++ back ∧
    (∀ c ∈ front, isBlank c = true) ∧ ∀ c ∈ back, isBlank c = true := by
  obtain ⟨back, hback, hblank⟩ := exists_dropWhileEnd isBlank (cs.dropWhile isBlank)
  refine ⟨cs.takeWhile isBlank, back, ?_, List.all_eq_true.1 (List.all_takeWhile (l := cs)), hblank⟩
  rw [List.append_assoc, trimBlanks, ← hback, List.takeWhile_append_dropWhile]

/-- Nothing is cut off a text that has no blank at either end. -/
theorem trimBlanks_of_ends {c d : Char} (hc : isBlank c = false) (hd : isBlank d = false)
    (cs : List Char) :
    trimBlanks (c :: (cs ++ [d])) = c :: (cs ++ [d]) := by
  have hend : dropWhileEnd isBlank (cs ++ [d]) = cs ++ [d] := by
    rw [dropWhileEnd, List.reverse_append, List.reverse_singleton, List.singleton_append,
      List.dropWhile_cons_of_neg (by simp [hd]), List.reverse_cons, List.reverse_reverse]
  rw [trimBlanks, List.dropWhile_cons_of_neg (by simp [hc]), dropWhileEnd_cons_of_not hc, hend]

end ProximityLab.Text
