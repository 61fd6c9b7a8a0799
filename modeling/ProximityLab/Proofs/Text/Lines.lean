import ProximityLab.Text.Lines
import Mathlib.Data.List.Infix
import Mathlib.Data.List.TakeWhile

/-!
# Texts cut into lines

What `splitOn` gives, said of the whole text: closed pieces, one after the other, and the piece
behind the last separator (`exists_pieces`). A text that goes on is split on from that piece
(`splitOn_append`, `splitOn_prepend`), and one that is transcribed is split where it was split
before (`splitOn_map`). The first line is what stands in front of the first line feed
(`linesOf_append_cons`), and closed lines without line ends in them are the lines of their text
(`linesOf_flatMap`). What has no separator in it occurs in a text on one side of each separator
(`infix_append_sep`).
-/

namespace ProximityLab.Text

variable {α : Type} [DecidableEq α] {sep : α}

/-! ## The first and the last separator -/

theorem takeWhile_ne_append {xs : List α} (h : sep ∉ xs) (ys : List α) :
    (xs ++ ys).takeWhile (· != sep) = xs ++ ys.takeWhile (· != sep) :=
  List.takeWhile_append_of_pos fun x hx => by simpa using ne_of_mem_of_not_mem hx h

theorem dropWhile_ne_append {xs : List α} (h : sep ∉ xs) (ys : List α) :
    (xs ++ ys).dropWhile (· != sep) = ys.dropWhile (· != sep) :=
  List.dropWhile_append_of_pos fun x hx => by simpa using ne_of_mem_of_not_mem hx h

theorem takeWhile_ne_of_not_mem {xs : List α} (h : sep ∉ xs) : xs.takeWhile (· != sep) = xs :=
  List.takeWhile_eq_self_iff.2 fun x hx => by simpa using ne_of_mem_of_not_mem hx h

theorem dropWhile_ne_of_not_mem {xs : List α} (h : sep ∉ xs) : xs.dropWhile (· != sep) = [] :=
  List.dropWhile_eq_nil_iff.2 fun x hx => by simpa using ne_of_mem_of_not_mem hx h

/-- The first separator is where it is, however the text is written. -/
theorem append_sep_inj {xs xs' ys ys' : List α} (h : sep ∉ xs) (h' : sep ∉ xs')
    (heq : xs ++ sep :: ys = xs' ++ sep :: ys') : xs = xs' ∧ ys = ys' := by
  have hxs := congrArg (List.takeWhile (· != sep)) heq
  rw [takeWhile_ne_append h, takeWhile_ne_append h', List.takeWhile_cons_of_neg (by simp),
    List.takeWhile_cons_of_neg (by simp), List.append_nil, List.append_nil] at hxs
  subst hxs
  exact ⟨rfl, (List.cons.inj (List.append_cancel_left heq)).2⟩

/-- So is the last one. -/
theorem append_sep_inj_last {xs xs' ys ys' : List α} (h : sep ∉ ys) (h' : sep ∉ ys')
    (heq : xs ++ sep :: ys = xs' ++ sep :: ys') : xs = xs' ∧ ys = ys' := by
  have hreverse := congrArg List.reverse heq
  simp only [List.reverse_append, List.reverse_cons, List.append_assoc, List.singleton_append]
    at hreverse
  obtain ⟨hys, hxs⟩ := append_sep_inj (mt List.mem_reverse.1 h) (mt List.mem_reverse.1 h') hreverse
  exact ⟨List.reverse_inj.1 hxs, List.reverse_inj.1 hys⟩

omit [DecidableEq α] in
/-- Two ways to read a text as two parts with a separator between them: they are the same, or the
part between the two separators goes once with what stands in front of it and once with what stands
behind it. -/
theorem append_sep_eq_iff {xs xs' ys ys' : List α} : xs ++ sep :: ys = xs' ++ sep :: ys' ↔
    (xs = xs' ∧ ys = ys') ∨ (∃ more, xs' = xs ++ sep :: more ∧ ys = more ++ sep :: ys') ∨
      ∃ more, xs = xs' ++ sep :: more ∧ ys' = more ++ sep :: ys := by
  constructor
  · intro h
    rcases List.append_eq_append_iff.1 h with ⟨between, rfl, hys⟩ | ⟨between, rfl, hys⟩
    · cases between with
      | nil => exact .inl ⟨(List.append_nil xs).symm, (List.cons.inj hys).2⟩
      | cons y more =>
        obtain ⟨rfl, htail⟩ := List.cons.inj hys
        exact .inr (.inl ⟨more, rfl, htail⟩)
    · cases between with
      | nil => exact .inl ⟨List.append_nil xs', (List.cons.inj hys).2.symm⟩
      | cons y more =>
        obtain ⟨rfl, htail⟩ := List.cons.inj hys
        exact .inr (.inr ⟨more, rfl, htail⟩)
  · rintro (⟨rfl, rfl⟩ | ⟨more, rfl, rfl⟩ | ⟨more, rfl, rfl⟩) <;> simp

/-! ## Pieces -/

theorem splitOn_of_not_mem {xs : List α} (h : sep ∉ xs) : splitOn sep xs = [xs] := by
  induction xs with
  | nil => rfl
  | cons x xs ih =>
    obtain ⟨hx, hxs⟩ := not_or.1 (mt List.mem_cons.2 h)
    rw [splitOn, if_neg (Ne.symm hx), ih hxs]

theorem splitOn_append_cons {xs : List α} (h : sep ∉ xs) (ys : List α) :
    splitOn sep (xs ++ sep :: ys) = xs :: splitOn sep ys := by
  induction xs with
  | nil => simp [splitOn]
  | cons x xs ih =>
    obtain ⟨hx, hxs⟩ := not_or.1 (mt List.mem_cons.2 h)
    rw [List.cons_append, splitOn, if_neg (Ne.symm hx), ih hxs]

/-- Closed pieces without a separator in them are split off. -/
theorem splitOn_flatMap_append {pieces : List (List α)} (h : ∀ p ∈ pieces, sep ∉ p)
    (rest : List α) :
    splitOn sep (pieces.flatMap (· ++ [sep]) ++ rest) = pieces ++ splitOn sep rest := by
  induction pieces with
  | nil => rfl
  | cons p pieces ih =>
    obtain ⟨hp, hpieces⟩ := List.forall_mem_cons.1 h
    rw [List.flatMap_cons, List.append_assoc, List.append_assoc, List.singleton_append,
      splitOn_append_cons hp, ih hpieces, List.cons_append]

/-- Pieces without a separator in them are split off where they were joined. -/
theorem splitOn_intercalate {pieces : List (List α)} (h : ∀ p ∈ pieces, sep ∉ p)
    (hne : pieces ≠ []) :
    splitOn sep ([sep].intercalate pieces) = pieces := by
  induction pieces with
  | nil => exact absurd rfl hne
  | cons p pieces ih =>
    obtain ⟨hp, hpieces⟩ := List.forall_mem_cons.1 h
    cases pieces with
    | nil => simpa using splitOn_of_not_mem hp
    | cons q pieces =>
      rw [List.intercalate_cons_cons, List.append_assoc, List.singleton_append,
        splitOn_append_cons hp, ih hpieces (List.cons_ne_nil _ _)]

/-- What is split is the closed pieces and an open one. -/
theorem exists_pieces (sep : α) (xs : List α) : ∃ closed rest, splitOn sep xs = closed ++ [rest] ∧
    xs = closed.flatMap (· ++ [sep]) ++ rest ∧ (∀ p ∈ closed, sep ∉ p) ∧ sep ∉ rest := by
  induction xs with
  | nil => exact ⟨[], [], rfl, rfl, by simp, by simp⟩
  | cons x xs ih =>
    obtain ⟨closed, rest, hsplit, hxs, hclosed, hrest⟩ := ih
    by_cases hx : x = sep
    · exact ⟨[] :: closed, rest,
        by simp [splitOn, hx, hsplit], by simp [hx, hxs], by simpa using hclosed, hrest⟩
    · cases closed with
      | nil =>
        exact ⟨[], x :: rest,
          by simp [splitOn, hx, hsplit], by simpa using hxs, by simp, by simp [Ne.symm hx, hrest]⟩
      | cons p closed =>
        obtain ⟨hp, hclosed⟩ := List.forall_mem_cons.1 hclosed
        refine ⟨(x :: p) :: closed, rest, by simp [splitOn, hx, hsplit], by simp [hxs], ?_, hrest⟩
        exact List.forall_mem_cons.2 ⟨by simp [Ne.symm hx, hp], hclosed⟩

/-- A text that goes on is split on from its open piece. -/
theorem splitOn_append {xs rest : List α} {closed : List (List α)}
    (h : splitOn sep xs = closed ++ [rest]) (ys : List α) :
    splitOn sep (xs ++ ys) = closed ++ splitOn sep (rest ++ ys) := by
  obtain ⟨closed', rest', hsplit, hxs, hclosed, -⟩ := exists_pieces sep xs
  obtain ⟨rfl, hrest⟩ := List.append_inj' (h.symm.trans hsplit) rfl
  obtain rfl := List.singleton_inj.1 hrest
  rw [hxs, List.append_assoc, splitOn_flatMap_append hclosed]

/-- What stands in front of a separator and what stands behind it are split alone. -/
theorem splitOn_append_sep (xs ys : List α) :
    splitOn sep (xs ++ sep :: ys) = splitOn sep xs ++ splitOn sep ys := by
  obtain ⟨closed, rest, hsplit, -, -, hrest⟩ := exists_pieces sep xs
  rw [splitOn_append hsplit, splitOn_append_cons hrest, hsplit, List.append_assoc,
    List.singleton_append]

/-- What turns separators into separators, and nothing else into one, turns pieces into pieces. -/
theorem splitOn_map {β : Type} [DecidableEq β] {sep' : β} {f : List α → List β}
    (hsep : ∀ xs ys, f (xs ++ sep :: ys) = f xs ++ sep' :: f ys)
    (hmem : ∀ xs, sep ∉ xs → sep' ∉ f xs) (xs : List α) :
    splitOn sep' (f xs) = (splitOn sep xs).map f := by
  obtain ⟨closed, rest, hsplit, hxs, hclosed, hrest⟩ := exists_pieces sep xs
  rw [hsplit, hxs]
  clear hsplit hxs
  induction closed with
  | nil => exact splitOn_of_not_mem (hmem rest hrest)
  | cons p closed ih =>
    obtain ⟨hp, hclosed⟩ := List.forall_mem_cons.1 hclosed
    rw [List.flatMap_cons, List.append_assoc, List.append_assoc, List.singleton_append, hsep,
      splitOn_append_cons (hmem p hp), ih hclosed, List.cons_append, List.map_cons]

theorem splitOn_eq_singleton {xs piece : List α} :
    splitOn sep xs = [piece] ↔ sep ∉ piece ∧ xs = piece := by
  constructor
  · intro h
    obtain ⟨closed, rest, hsplit, hxs, -, hrest⟩ := exists_pieces sep xs
    rw [hsplit] at h
    cases closed with
    | nil =>
      obtain rfl := List.singleton_inj.1 h
      exact ⟨hrest, hxs⟩
    | cons p closed => simp at h
  · rintro ⟨hpiece, rfl⟩
    exact splitOn_of_not_mem hpiece

theorem splitOn_eq_cons_cons {xs piece next : List α} {pieces : List (List α)} :
    splitOn sep xs = piece :: next :: pieces ↔
      sep ∉ piece ∧ ∃ rest, xs = piece ++ sep :: rest ∧ splitOn sep rest = next :: pieces := by
  constructor
  · intro h
    obtain ⟨closed, rest, hsplit, hxs, hclosed, hrest⟩ := exists_pieces sep xs
    rw [hsplit] at h
    cases closed with
    | nil => simp at h
    | cons p closed =>
      obtain ⟨hp, hclosed⟩ := List.forall_mem_cons.1 hclosed
      obtain ⟨rfl, hrest'⟩ := List.cons.inj h
      refine ⟨hp, closed.flatMap (· ++ [sep]) ++ rest, by simpa using hxs, ?_⟩
      rw [splitOn_flatMap_append hclosed, splitOn_of_not_mem hrest]
      exact hrest'
  · rintro ⟨hpiece, rest, rfl, hrest⟩
    rw [splitOn_append_cons hpiece, hrest]

/-- What stands in front without a separator goes to the first piece. -/
theorem splitOn_prepend {xs : List α} (h : sep ∉ xs) (ys : List α) : ∃ piece pieces,
    splitOn sep ys = piece :: pieces ∧ splitOn sep (xs ++ ys) = (xs ++ piece) :: pieces := by
  obtain ⟨closed, rest, hsplit, hys, hclosed, hrest⟩ := exists_pieces sep ys
  cases closed with
  | nil =>
    obtain rfl : ys = rest := hys
    exact ⟨ys, [], hsplit, splitOn_of_not_mem (by simp [h, hrest])⟩
  | cons p closed =>
    obtain ⟨hp, hclosed⟩ := List.forall_mem_cons.1 hclosed
    refine ⟨p, closed ++ [rest], hsplit, ?_⟩
    rw [hys, List.flatMap_cons, List.append_assoc, List.append_assoc, List.singleton_append,
      ← List.append_assoc, splitOn_append_cons (by simp [h, hp]), splitOn_flatMap_append hclosed,
      splitOn_of_not_mem hrest]

/-! ## Texts -/

/-- Pieces of a text, in terms of characters. -/
theorem split_eq_map (sep : Char) (s : String) (pieces : List String) :
    split sep s = pieces ↔ splitOn sep s.toList = pieces.map String.toList := by
  constructor
  · rintro rfl
    have hid : String.toList ∘ String.ofList = id := funext fun _ => String.toList_ofList
    rw [split, List.map_map, hid, List.map_id]
  · intro h
    have hid : String.ofList ∘ String.toList = id := funext fun _ => String.ofList_toList
    rw [split, h, List.map_map, hid, List.map_id]

/-- The line in front of the first line feed is the first line, and the others are those of what is
behind it. -/
theorem linesOf_append_cons {xs : List Char} (h : '\n' ∉ xs) (ys : List Char) :
    linesOf (xs ++ '\n' :: ys) = dropReturn xs :: linesOf ys := by
  obtain ⟨closed, rest, hsplit, -⟩ := exists_pieces '\n' ys
  have hpieces : splitOn '\n' (xs ++ '\n' :: ys) = (xs :: closed) ++ [rest] := by
    rw [splitOn_append_cons h, hsplit, List.cons_append]
  rw [linesOf, linesOf, hpieces, hsplit, List.dropLast_concat, List.dropLast_concat,
    List.getLast?_concat, List.getLast?_concat]
  rfl

theorem linesOf_of_not_mem {xs : List Char} (h : '\n' ∉ xs) (hne : xs ≠ []) :
    linesOf xs = [xs] := by
  simp [linesOf, splitOn_of_not_mem h, hne]

theorem dropReturn_cons {c : Char} (h : c ≠ '\r') (cs : List Char) :
    dropReturn (c :: cs) = c :: dropReturn cs := by
  cases cs with
  | nil => simp [dropReturn, h]
  | cons d cs =>
    simp only [dropReturn, List.getLast?_cons_cons, List.dropLast_cons_cons]
    split <;> rfl

theorem mem_dropReturn {c : Char} (h : c ≠ '\r') {cs : List Char} (hc : c ∈ cs) :
    c ∈ dropReturn cs := by
  unfold dropReturn
  split
  · rename_i hlast
    obtain ⟨front, rfl⟩ := List.getLast?_eq_some_iff.1 hlast
    rw [List.dropLast_concat]
    simpa [h] using hc
  · exact hc

/-- Closed lines without line ends in them are the lines of their text. -/
theorem linesOf_flatMap {pieces : List (List Char)} (h : ∀ cs ∈ pieces, '\n' ∉ cs ∧ '\r' ∉ cs) :
    linesOf (pieces.flatMap fun cs => cs ++ ['\n']) = pieces := by
  have hsplit := splitOn_flatMap_append (fun cs hcs => (h cs hcs).1) []
  rw [List.append_nil] at hsplit
  have hdrop : pieces.map dropReturn = pieces := by
    refine (List.map_congr_left fun cs hcs => ?_).trans (List.map_id pieces)
    exact if_neg fun hlast => (h cs hcs).2 (List.mem_of_getLast? hlast)
  rw [linesOf, hsplit, splitOn]
  simp [hdrop]

/-! ## Parts of a text -/

theorem containsChars_iff (needle cs : List Char) :
    containsChars needle cs = true ↔ needle <:+: cs := by
  induction cs with
  | nil => simp [containsChars]
  | cons c cs ih =>
    rw [containsChars, Bool.or_eq_true, List.isPrefixOf_iff_prefix, ih, List.infix_cons_iff]

theorem contains_iff (needle s : String) : contains needle s = true ↔ needle.toList <:+: s.toList :=
  containsChars_iff ..

/-- What has no separator in it does not go across one. -/
theorem infix_append_sep {sep : Char} {needle : List Char} (h : sep ∉ needle) (xs ys : List Char) :
    needle <:+: xs ++ sep :: ys ↔ needle <:+: xs ∨ needle <:+: ys := by
  constructor
  · intro hneedle
    induction xs with
    | nil =>
      rcases List.infix_cons_iff.1 hneedle with hpre | hys
      · cases needle with
        | nil => exact .inl List.nil_infix
        | cons x needle =>
          exact absurd (List.mem_cons.2 (.inl (List.cons_prefix_cons.1 hpre).1.symm)) h
      · exact .inr hys
    | cons x xs ih =>
      rcases List.infix_cons_iff.1 hneedle with hpre | hrest
      · rcases List.prefix_or_prefix_of_prefix hpre (List.prefix_append (x :: xs) (sep :: ys))
          with hxs | ⟨more, rfl⟩
        · exact .inl hxs.isInfix
        · cases more with
          | nil => exact .inl (by simp)
          | cons y more =>
            obtain ⟨rfl, -⟩ := List.cons_prefix_cons.1 ((List.prefix_append_right_inj _).1 hpre)
            exact absurd (by simp) h
      · exact (ih hrest).imp_left fun hxs => hxs.trans (List.suffix_cons x xs).isInfix
  · rintro (hxs | hys)
    · exact hxs.trans (List.prefix_append xs (sep :: ys)).isInfix
    · exact hys.trans ((List.suffix_cons sep ys).trans (List.suffix_append xs (sep :: ys))).isInfix

end ProximityLab.Text
