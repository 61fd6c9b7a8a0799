import ProximityLab.Proofs.Number.Numeral
import ProximityLab.Proofs.Text.Lines
import ProximityLab.Session.Commands

/-!
# What the line that starts a campaign tells a device

A device reads the line word by word.

- **Words** (`Params.split_startArgs`): the words are five options with decimal numbers behind them,
  the last with a pair of numbers, and one word for each flag that is set.
- **Unique reading** (`Params.startArgs_injective`): the words tell every parameter, and the word of
  a flag is there exactly when that flag is set, whatever the other one is.
-/

namespace ProximityLab

open Numeral (isDigit not_mem_toString toString_inj)

namespace Params

/-- The word of a flag, if it is set. -/
def flagWord (word : String) (flag : Bool) : List String := if flag then [word] else []

/-- The numbers of the scan, with a comma between them. -/
def scanWord (p : Params) : String := toString p.scanWindow ++ "," ++ toString p.scanInterval

/-- The words that tell the numbers. -/
def numberWords (p : Params) : List String :=
  ["start", "-d", toString p.duration, "-i", toString p.advInterval, "-r", toString p.advsPerSlice,
    "-c", toString p.iterations, "-s", p.scanWord]

/-- The words of the arguments. -/
def words (p : Params) : List String :=
  p.numberWords ++ flagWord "-e" p.alignEnd ++ flagWord "-a" p.alignStart

theorem not_mem_scanWord (p : Params) : ' ' ∉ p.scanWord.toList := by
  have hblank := not_mem_toString (c := ' ') rfl
  simp only [scanWord, String.toList_append, List.mem_append, not_or]
  exact ⟨⟨hblank _, by decide⟩, hblank _⟩

/-- The numbers of a command are read apart: no word has a blank in it. -/
theorem not_mem_numberWords (p : Params) : ∀ word ∈ p.numberWords, ' ' ∉ word.toList := by
  have hblank := not_mem_toString (c := ' ') rfl
  simp only [numberWords, List.forall_mem_cons]
  exact ⟨by decide, by decide, hblank _, by decide, hblank _, by decide, hblank _, by decide,
    hblank _, by decide, p.not_mem_scanWord, nofun⟩

theorem not_mem_flagWord {flagText : String} (h : ' ' ∉ flagText.toList) (flag : Bool) :
    ∀ word ∈ flagWord flagText flag, ' ' ∉ word.toList := by
  cases flag with
  | true => exact List.forall_mem_singleton.2 h
  | false => nofun

theorem not_mem_words (p : Params) : ∀ word ∈ p.words, ' ' ∉ word.toList :=
  List.forall_mem_append.2 ⟨List.forall_mem_append.2
    ⟨p.not_mem_numberWords, not_mem_flagWord (by decide) _⟩, not_mem_flagWord (by decide) _⟩

/-- The words stand in the arguments with a blank between them. -/
theorem toList_startArgs (p : Params) :
    p.startArgs.toList = [' '].intercalate (p.words.map String.toList) := by
  have hself (s : String) : toString s = s := rfl
  unfold startArgs words flagWord numberWords scanWord
  -- the numbers stay as they are
  generalize toString p.duration = d, toString p.advInterval = i, toString p.advsPerSlice = r,
    toString p.iterations = c, toString p.scanWindow = w, toString p.scanInterval = v
  cases p.alignEnd <;> cases p.alignStart
  all_goals simp [hself]

theorem split_startArgs (p : Params) : Text.split ' ' p.startArgs = p.words := by
  rw [Text.split_eq_map, toList_startArgs]
  refine Text.splitOn_intercalate (fun cs hcs => ?_) (by simp [words, numberWords])
  obtain ⟨word, hword, rfl⟩ := List.mem_map.1 hcs
  exact p.not_mem_words word hword

/-! ## Unique reading -/

/-- A word that is not made of digits is no number. -/
theorem toString_ne {word : String} {c : Char} (hc : c ∈ word.toList) (h : isDigit c = false)
    (n : Nat) :
    word ≠ toString n := by
  rintro rfl
  exact not_mem_toString h n hc

/-- No number is taken for the word of a flag. -/
theorem not_mem_numberWords_of_flag {word : String} (h : word = "-e" ∨ word = "-a") (p : Params) :
    word ∉ p.numberWords := by
  have hdash : '-' ∈ word.toList := by rcases h with rfl | rfl <;> decide
  have hnumber := toString_ne hdash rfl
  have hscan : word ≠ p.scanWord := by
    rintro rfl
    have hcomma : ',' ∈ p.scanWord.toList := by simp [scanWord]
    rcases h with h | h
    all_goals
      rw [h] at hcomma
      exact absurd hcomma (by decide)
  simp only [numberWords, List.mem_cons, List.not_mem_nil, hnumber, hscan, false_or, or_false]
  rcases h with rfl | rfl <;> decide

theorem mem_flagWord {word flagText : String} {flag : Bool} :
    word ∈ flagWord flagText flag ↔ flag = true ∧ word = flagText := by
  cases flag <;> simp [flagWord]

theorem end_mem_words {p : Params} : "-e" ∈ p.words ↔ p.alignEnd = true := by
  simp [words, not_mem_numberWords_of_flag, mem_flagWord]

theorem start_mem_words {p : Params} : "-a" ∈ p.words ↔ p.alignStart = true := by
  simp [words, not_mem_numberWords_of_flag, mem_flagWord]

theorem scanWord_inj {p q : Params} (h : p.scanWord = q.scanWord) :
    p.scanWindow = q.scanWindow ∧ p.scanInterval = q.scanInterval := by
  have hcomma (n : Nat) : ',' ∉ (toString n).toList := not_mem_toString rfl n
  have hchars := congrArg String.toList h
  simp only [scanWord, String.toList_append, List.append_assoc] at hchars
  obtain ⟨hwindow, hinterval⟩ :=
    Text.append_sep_inj (hcomma p.scanWindow) (hcomma q.scanWindow) hchars
  exact ⟨toString_inj.1 (String.toList_inj.1 hwindow),
    toString_inj.1 (String.toList_inj.1 hinterval)⟩

/-- The words tell every parameter. -/
theorem words_inj {p q : Params} (h : p.words = q.words) : p = q := by
  have hend : p.alignEnd = q.alignEnd := by
    rw [Bool.eq_iff_iff, ← end_mem_words, h, end_mem_words]
  have hstart : p.alignStart = q.alignStart := by
    rw [Bool.eq_iff_iff, ← start_mem_words, h, start_mem_words]
  have hnumbers : p.numberWords = q.numberWords := by
    rw [words, words, hend, hstart] at h
    exact List.append_cancel_right (List.append_cancel_right h)
  simp only [numberWords, List.cons.injEq, toString_inj, true_and, and_true] at hnumbers
  obtain ⟨hduration, hadvInterval, hadvsPerSlice, hiterations, hscan⟩ := hnumbers
  obtain ⟨hwindow, hinterval⟩ := scanWord_inj hscan
  cases p
  cases q
  simp_all

/-- **A campaign is told without loss.** Different parameters give different arguments and different
lines, and each alignment flag has a word of its own, which is among the words of the arguments
exactly when that flag is set. -/
theorem startArgs_injective : Function.Injective startArgs ∧ Function.Injective startLine ∧
    ∀ p : Params, ("-e" ∈ Text.split ' ' p.startArgs ↔ p.alignEnd = true) ∧
      ("-a" ∈ Text.split ' ' p.startArgs ↔ p.alignStart = true) := by
  have hargs : Function.Injective startArgs :=
    fun p q h => words_inj (by rw [← split_startArgs, h, split_startArgs])
  have hline : Function.Injective startLine := fun p q h => by
    have hchars := congrArg String.toList h
    simp only [startLine, String.toList_append] at hchars
    exact hargs (String.toList_inj.1 (List.append_cancel_left hchars))
  refine ⟨hargs, hline, fun p => ?_⟩
  rw [split_startArgs]
  exact ⟨end_mem_words, start_mem_words⟩

end Params

end ProximityLab
