import ProximityLab.Proofs.Text.Lenient
import ProximityLab.Proofs.Text.Lines
import ProximityLab.Terminal.Framer

/-!
# What framing keeps of the output

The characters of the output that are neither blank nor a prompt are its `Framer.content`.

- **One chunk** (`push_pieces`): a chunk closes lines, and what is left is kept for later or, if it
  is a prompt, given away at once.
- **All chunks** (`run_content`): framing keeps the content of a text in its order and adds none.
  All of it is kept unless a character is severed (`Framer.Severs`): a chunk ends within the
  character, and what is left in front of it is a prompt.
-/

namespace ProximityLab.Framer

open Text

/-! ## One chunk -/

/-- The bytes behind the last line feed when a chunk has come. -/
def unfinished (f : Framer) (chunk : List UInt8) : List UInt8 :=
  (splitOn 10 (f.pending ++ chunk)).getLast?.getD []

/-- What is left is taken for a prompt when a chunk has come. -/
def prompts (f : Framer) (chunk : List UInt8) : Bool :=
  isPrompt (decodeLenient (f.unfinished chunk))

/-- A chunk closes the lines that its line feeds end. -/
theorem push_pieces (f : Framer) (chunk : List UInt8) : ∃ closed,
    splitOn 10 (f.pending ++ chunk) = closed ++ [f.unfinished chunk] ∧
      f.pending ++ chunk = closed.flatMap (· ++ [10]) ++ f.unfinished chunk ∧
      f.push chunk =
        if f.prompts chunk then (closed.flatMap linesOfBytes ++ [prompt], empty)
        else (closed.flatMap linesOfBytes, ⟨f.unfinished chunk⟩) := by
  obtain ⟨closed, rest, hsplit, hbytes, -⟩ := exists_pieces 10 (f.pending ++ chunk)
  have hrest : f.unfinished chunk = rest := by simp [unfinished, hsplit]
  refine ⟨closed, hrest ▸ hsplit, hrest ▸ hbytes, ?_⟩
  simp only [push, prompts, hrest, hsplit, List.dropLast_concat, List.getLast?_concat,
    Option.getD_some]

/-! ## Content -/

/-- The characters that are neither blank nor a prompt. -/
def content (cs : List Char) : List Char := cs.filter fun c => c != '>' && !isBlank c

/-- The characters of lines. -/
def joined (lines : List String) : List Char := lines.flatMap String.toList

@[simp] theorem content_append (a b : List Char) : content (a ++ b) = content a ++ content b :=
  List.filter_append ..

@[simp] theorem joined_append (a b : List String) : joined (a ++ b) = joined a ++ joined b :=
  List.flatMap_append

theorem content_of_blank {cs : List Char} (h : ∀ c ∈ cs, isBlank c = true) : content cs = [] := by
  rw [content, List.filter_eq_nil_iff]
  intro c hc
  simp [h c hc]

@[simp] theorem content_joined_prompt : content (joined [prompt]) = [] := by decide

/-- A prompt, in terms of characters. -/
theorem isPrompt_ofList {cs : List Char} :
    isPrompt (String.ofList cs) = true ↔ trimBlanks cs = ['>'] := by
  rw [isPrompt, beq_iff_eq, trim, String.toList_ofList, show prompt = String.ofList ['>'] from rfl,
    String.ofList_inj]

/-- A prompt has nothing but blanks around it. -/
theorem exists_of_isPrompt {cs : List Char} (h : isPrompt (String.ofList cs) = true) :
    ∃ before behind,
    cs = before ++ '>' :: behind ∧ (∀ c ∈ before, isBlank c = true) ∧
      ∀ c ∈ behind, isBlank c = true := by
  obtain ⟨before, behind, hcs, hbefore, hbehind⟩ := exists_trimBlanks cs
  rw [isPrompt_ofList.1 h, List.append_assoc] at hcs
  exact ⟨before, behind, hcs, hbefore, hbehind⟩

/-- A prompt has no content. -/
theorem content_of_isPrompt {cs : List Char} (h : isPrompt (String.ofList cs) = true) :
    content cs = [] := by
  obtain ⟨before, behind, hcs, hbefore, hbehind⟩ := exists_of_isPrompt h
  have hmark : content ['>'] = [] := by decide
  rw [hcs, List.append_cons, content_append, content_append, content_of_blank hbefore,
    content_of_blank hbehind, hmark]
  rfl

theorem isBlank_of_returns {returns : List Char} (h : ∀ c ∈ returns, c = '\r') :
    ∀ c ∈ returns, isBlank c = true := by
  intro c hc
  rw [h c hc]
  rfl

/-- The lines of a line of bytes have the content of that line. -/
theorem content_linesOfBytes (bytes : List UInt8) :
    content (joined (linesOfBytes bytes)) = content (lenientChars bytes) := by
  obtain ⟨returns, hcs, hreturns⟩ := exists_dropWhileEnd (· == '\r') (lenientChars bytes)
  have hblank := isBlank_of_returns fun c hc => eq_of_beq (hreturns c hc)
  conv => rhs; rw [hcs, content_append, content_of_blank hblank, List.append_nil]
  unfold linesOfBytes
  split
  · rename_i rest hrest
    rw [hrest]
    split
    · simp [joined]
    · have hshell : content ('>' :: ' ' :: rest) = content rest := by simp [content, isBlank]
      rw [hshell, show [prompt, String.ofList rest] = [prompt] ++ [String.ofList rest] from rfl,
        joined_append, content_append, content_joined_prompt]
      simp [joined]
  · simp [joined]

/-- Closed lines have their content, whatever comes behind them. -/
theorem content_closed (closed : List (List UInt8)) (rest : List UInt8) :
    content (lenientChars (closed.flatMap (· ++ [10]) ++ rest)) =
      content (joined (closed.flatMap linesOfBytes)) ++ content (lenientChars rest) := by
  induction closed with
  | nil => rfl
  | cons p closed ih =>
    rw [List.flatMap_cons, List.append_assoc, List.append_assoc, List.singleton_append,
      lenientChars_feed, List.flatMap_cons, joined_append, content_append, content_append,
      content_linesOfBytes, List.append_assoc, ← ih]
    rfl

/-! ## All chunks -/

/-- While the chunks are framed, one ends within the character, and what is left then is taken for a
prompt. -/
inductive Severs : Framer → List (List UInt8) → Char → Prop where
  | here {f : Framer} {chunk : List UInt8} {chunks : List (List UInt8)} {c : Char}
      (hprompt : f.prompts chunk = true) (hsplits : Splits c (f.unfinished chunk) chunks.flatten) :
      Severs f (chunk :: chunks) c
  | later {f : Framer} {chunk : List UInt8} {chunks : List (List UInt8)} {c : Char}
      (h : Severs (f.push chunk).2 chunks c) : Severs f (chunk :: chunks) c

/-- How the content of what is framed compares with that of the bytes that come. -/
structure Keeps (f : Framer) (chunks : List (List UInt8)) : Prop where
  sublist : (content (joined (f.run chunks))).Sublist
    (content (lenientChars (f.pending ++ chunks.flatten)))
  eq_iff : content (joined (f.run chunks)) = content (lenientChars (f.pending ++ chunks.flatten)) ↔
    ∀ c, Severs f chunks c → content (lenientChars (encodeChar c)) = []

theorem keeps_nil (f : Framer) : Keeps f [] := by
  have hrun : content (joined (f.run [])) = content (lenientChars f.pending) := by
    unfold run finish
    split
    · rename_i hempty
      rw [List.isEmpty_iff.1 hempty]
      rfl
    · exact content_linesOfBytes f.pending
  constructor
  · simp [hrun]
  · exact iff_of_true (by simpa using hrun) nofun

/-- If the rest is no prompt, it is kept for the next chunk. -/
theorem Keeps.of_pending {f : Framer} {chunk : List UInt8} {chunks : List (List UInt8)}
    (hprompt : f.prompts chunk = false) (h : Keeps ⟨f.unfinished chunk⟩ chunks) :
    Keeps f (chunk :: chunks) := by
  obtain ⟨closed, -, hbytes, hpush⟩ := f.push_pieces chunk
  rw [hprompt, if_neg Bool.false_ne_true] at hpush
  have hsevers : ∀ c, Severs f (chunk :: chunks) c ↔ Severs ⟨f.unfinished chunk⟩ chunks c := by
    refine fun c => ⟨fun hc => ?_, fun hc => .later (by rwa [hpush])⟩
    cases hc with
    | here hp => rw [hprompt] at hp; cases hp
    | later hc => rwa [hpush] at hc
  have hrun : content (joined (f.run (chunk :: chunks))) =
      content (joined (closed.flatMap linesOfBytes)) ++
      content (joined (run ⟨f.unfinished chunk⟩ chunks)) := by
    rw [run, hpush]
    simp
  have hcome : content (lenientChars (f.pending ++ (chunk :: chunks).flatten)) =
      content (joined (closed.flatMap linesOfBytes)) ++
        content (lenientChars (f.unfinished chunk ++ chunks.flatten)) := by
    rw [List.flatten_cons, ← List.append_assoc, hbytes, List.append_assoc, content_closed]
  constructor
  · rw [hrun, hcome]
    exact h.sublist.append_left _
  · rw [hrun, hcome, List.append_cancel_left_eq]
    simpa only [hsevers] using h.eq_iff

/-- What is read when a prompt was given away: the content of the one character in which the prompt
ended is missing. -/
theorem content_of_prompt {front : List UInt8} (h : isPrompt (decodeLenient front) = true)
    (back : List UInt8) :
    ∃ torn, content (lenientChars (front ++ back)) = torn ++ content (lenientChars back) ∧
      (torn = [] ↔ ∀ c, Splits c front back → content (lenientChars (encodeChar c)) = []) := by
  have hfront : content (lenientChars front) = [] := content_of_isPrompt h
  have hsplit : ∀ c, Splits c front back → content (lenientChars (front ++ back)) =
      content (lenientChars (encodeChar c)) ++ content (lenientChars back) := by
    intro c hc
    rw [hc.lenientChars_append, content_append, content_append, hfront, List.nil_append]
  rcases splits_or_lenientChars_append front back with ⟨c, hc⟩ | happend
  · refine ⟨content (lenientChars (encodeChar c)), hsplit c hc, fun htorn d hd => ?_,
      fun hall => hall c hc⟩
    exact htorn ▸ List.append_cancel_right ((hsplit d hd).symm.trans (hsplit c hc))
  · have hback : content (lenientChars (front ++ back)) = content (lenientChars back) := by
      rw [happend, content_append, hfront, List.nil_append]
    refine ⟨[], hback, iff_of_true rfl fun c hc => ?_⟩
    simpa using (hsplit c hc).symm.trans hback

/-- If the rest is a prompt, nothing but the character in which it ends is lost with it. -/
theorem Keeps.of_prompt {f : Framer} {chunk : List UInt8} {chunks : List (List UInt8)}
    (hprompt : f.prompts chunk = true) (h : Keeps empty chunks) : Keeps f (chunk :: chunks) := by
  obtain ⟨closed, -, hbytes, hpush⟩ := f.push_pieces chunk
  rw [hprompt, if_pos rfl] at hpush
  have hsevers : (∀ c, Severs f (chunk :: chunks) c → content (lenientChars (encodeChar c)) = []) ↔
      (∀ c, Splits c (f.unfinished chunk) chunks.flatten →
        content (lenientChars (encodeChar c)) = []) ∧
        ∀ c, Severs empty chunks c → content (lenientChars (encodeChar c)) = [] := by
    refine ⟨fun hall =>
      ⟨fun c hc => hall c (.here hprompt hc), fun c hc => hall c (.later (by rwa [hpush]))⟩, ?_⟩
    rintro ⟨hhere, hlater⟩ c hc
    cases hc with
    | here _ hs => exact hhere c hs
    | later hc => exact hlater c (by rwa [hpush] at hc)
  have hrun : content (joined (f.run (chunk :: chunks))) =
      content (joined (closed.flatMap linesOfBytes)) ++ content (joined (run empty chunks)) := by
    rw [run, hpush]
    simp only [joined_append, content_append, content_joined_prompt, List.append_nil]
  obtain ⟨torn, htorn, htorn_nil⟩ := content_of_prompt hprompt chunks.flatten
  have hcome : content (lenientChars (f.pending ++ (chunk :: chunks).flatten)) =
      content (joined (closed.flatMap linesOfBytes)) ++
      (torn ++ content (lenientChars chunks.flatten)) := by
    rw [List.flatten_cons, ← List.append_assoc, hbytes, List.append_assoc, content_closed, htorn]
  have hsub : (content (joined (run empty chunks))).Sublist
    (content (lenientChars chunks.flatten)) := h.sublist
  have hiff : content (joined (run empty chunks)) = content (lenientChars chunks.flatten) ↔
    _ := h.eq_iff
  constructor
  · rw [hrun, hcome]
    exact (hsub.trans (List.sublist_append_right _ _)).append_left _
  · rw [hrun, hcome, List.append_cancel_left_eq, hsevers, ← htorn_nil, ← hiff]
    refine ⟨fun heq => ?_, fun ⟨hnil, heq⟩ => by rw [hnil, heq, List.nil_append]⟩
    -- what is kept is no longer than what comes later, so there is no room for the character
    have hnil : torn = [] := by
      have hle := hsub.length_le
      rw [heq, List.length_append] at hle
      exact List.eq_nil_of_length_eq_zero (by omega)
    exact ⟨hnil, by rw [heq, hnil, List.nil_append]⟩

theorem keeps (f : Framer) (chunks : List (List UInt8)) : Keeps f chunks := by
  induction chunks generalizing f with
  | nil => exact keeps_nil f
  | cons chunk chunks ih =>
    by_cases hprompt : f.prompts chunk = true
    · exact .of_prompt hprompt (ih empty)
    · exact .of_pending (by simpa using hprompt) (ih _)

/-! ## Texts -/

/-- A character that is severed is one of the output. -/
theorem Severs.infix {f : Framer} {chunks : List (List UInt8)} {c : Char} (h : Severs f chunks c) :
    encodeChar c <:+: f.pending ++ chunks.flatten := by
  induction h with
  | @here f chunk chunks c _ hsplits =>
    obtain ⟨closed, -, hbytes, -⟩ := f.push_pieces chunk
    obtain ⟨a, b, -, -, hc, ⟨front, hfront⟩, ⟨back, hback⟩⟩ := hsplits
    refine ⟨closed.flatMap (· ++ [10]) ++ front, back, ?_⟩
    rw [hc, List.flatten_cons, ← hback, ← List.append_assoc f.pending, hbytes, ← hfront]
    simp only [List.append_assoc]
  | @later f chunk chunks c _ ih =>
    obtain ⟨closed, -, hbytes, hpush⟩ := f.push_pieces chunk
    have hsuffix : (f.push chunk).2.pending <:+ f.pending ++ chunk := by
      rw [hpush, hbytes]
      split
      · exact List.nil_suffix
      · exact List.suffix_append _ _
    obtain ⟨front, hfront⟩ := hsuffix
    refine ih.trans ⟨front, [], ?_⟩
    rw [List.append_nil, ← List.append_assoc, hfront, List.append_assoc, List.flatten_cons]

/-- A prompt is a single byte, so it is not split. -/
theorem not_splits_prompt {front back : List UInt8} : ¬ Splits '>' front back := by
  rintro ⟨a, b, ha, hb, hc, -⟩
  have hlength := congrArg List.length hc
  have ha := List.length_pos_iff.2 ha
  have hb := List.length_pos_iff.2 hb
  rw [List.length_append, show (encodeChar '>').length = 1 from rfl] at hlength
  omega

theorem Severs.ne_prompt {f : Framer} {chunks : List (List UInt8)} {c : Char}
    (h : Severs f chunks c) : c ≠ '>' := by
  intro hc
  induction h with
  | here _ hsplits => exact not_splits_prompt (hc ▸ hsplits)
  | later _ ih => exact ih hc

/-- Framing keeps the content of a text in its order and adds none, however its bytes are cut into
chunks. All of it is kept exactly if blanks are all that is severed. -/
theorem run_content {text : String} (htext : replacement ∉ text.toList) {chunks : List (List UInt8)}
    (hchunks : chunks.flatten = encode text) :
    (content (joined (run empty chunks))).Sublist (content text.toList) ∧
      (content (joined (run empty chunks)) = content text.toList ↔
        ∀ c, Severs empty chunks c → isBlank c = true) := by
  have hread : lenientChars (empty.pending ++ chunks.flatten) = text.toList := by
    rw [hchunks]
    exact lenientChars_flatMap htext
  obtain ⟨hsub, hiff⟩ := keeps empty chunks
  rw [hread] at hsub hiff
  refine ⟨hsub, hiff.trans (forall_congr' fun c => imp_congr_right fun hc => ?_)⟩
  have hmem : c ∈ text.toList := by
    have hinfix := hc.infix
    rw [hchunks] at hinfix
    exact mem_of_infix hinfix
  have hne : c ≠ replacement := fun h => htext (h ▸ hmem)
  rw [lenientChars_encodeChar_of_ne hne]
  simp [content, hc.ne_prompt]

/-- A letter behind a prompt whose bytes come in two chunks is lost. -/
theorem run_content_severed :
    let chunks : List (List UInt8) := [[0x3E, 0x20, 0xC3], [0xA9, 0x0A]]
    chunks.flatten = encode "> é\n" ∧ run empty chunks = [">", ""] ∧ Severs empty chunks 'é' ∧
      content (joined (run empty chunks)) ≠ content "> é\n".toList := by
  intro chunks
  have hchunks : chunks.flatten = encode "> é\n" := by decide +kernel
  have hsevers : Severs empty chunks 'é' :=
    .here (by decide +kernel) ⟨[0xC3], [0xA9],
      by simp, by simp, by decide +kernel, by decide +kernel, by decide +kernel⟩
  refine ⟨hchunks, by decide +kernel, hsevers, fun heq => ?_⟩
  have hblank := (run_content (by decide +kernel) hchunks).2.1 heq 'é' hsevers
  exact absurd hblank (by decide)

end ProximityLab.Framer
