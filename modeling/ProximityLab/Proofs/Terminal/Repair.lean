import ProximityLab.Proofs.FileSystem.Write
import ProximityLab.Proofs.Terminal.Findings
import ProximityLab.Terminal.Repair

/-!
# What a repair leaves of a log

A repair reads the whole log before it cuts the first line, but this is as good as cutting the
bytes: the characters at which it cuts are of one byte each.

- **Bytes** (`repairLog?_of_clean`, `repairLog?_of_cut`): a log with a `>` on its first line is cut
  back to the last one there, and both parts of it are read leniently.
- **Files** (`FileSystem.repairLog_cut`): a repair writes nothing else, and a second one does what
  the first did.
- **Findings** (`FileSystem.repairLog_findings`): the lines behind the first are what they were, and
  the first line of a repaired log is no record.
-/

namespace ProximityLab

open Text

/-! ## Bytes -/

/-- The bytes of the first line. -/
def firstBytes (content : List UInt8) : List UInt8 := content.takeWhile (· != 10)

/-- The bytes behind the first line feed. -/
def laterBytes (content : List UInt8) : List UInt8 := (content.dropWhile (· != 10)).drop 1

/-- What a log holds when it is repaired: text of what is kept of its first line, and of what comes
later. -/
def repaired (kept later : List UInt8) : List UInt8 :=
  encode (decodeLenient kept) ++ 10 :: encode (decodeLenient later)

section Cut

variable {first : List UInt8} (h : 10 ∉ first)
include h

theorem firstBytes_of_not_mem : firstBytes first = first := takeWhile_ne_of_not_mem h

theorem laterBytes_of_not_mem : laterBytes first = [] := by
  rw [laterBytes, dropWhile_ne_of_not_mem h]
  rfl

theorem firstBytes_append (later : List UInt8) : firstBytes (first ++ 10 :: later) = first := by
  rw [firstBytes, takeWhile_ne_append h]
  simp

theorem laterBytes_append (later : List UInt8) : laterBytes (first ++ 10 :: later) = later := by
  rw [laterBytes, dropWhile_ne_append h]
  simp

end Cut

/-- A log is a first line and what is behind it, or a first line only. -/
theorem firstBytes_cases (content : List UInt8) : 10 ∉ firstBytes content ∧
    (content = firstBytes content ++ 10 :: laterBytes content ∨
      content = firstBytes content ∧ laterBytes content = []) := by
  by_cases hfeed : 10 ∈ content
  · obtain ⟨first, later, rfl, hfirst⟩ := List.eq_append_cons_of_mem hfeed
    rw [firstBytes_append hfirst, laterBytes_append hfirst]
    exact ⟨hfirst, .inl rfl⟩
  · rw [firstBytes_of_not_mem hfeed, laterBytes_of_not_mem hfeed]
    exact ⟨hfeed, .inr ⟨rfl, rfl⟩⟩

theorem lineFeed_mem_lenientChars {bytes : List UInt8} : '\n' ∈ lenientChars bytes ↔ 10 ∈ bytes :=
  mem_lenientChars_single rfl

theorem mark_mem_lenientChars {bytes : List UInt8} : '>' ∈ lenientChars bytes ↔ 62 ∈ bytes :=
  mem_lenientChars_single rfl

theorem lenientChars_mark (front back : List UInt8) :
    lenientChars (front ++ 62 :: back) = lenientChars front ++ '>' :: lenientChars back :=
  lenientChars_single rfl front back

theorem lenientChars_mark_cons (back : List UInt8) :
    lenientChars (62 :: back) = '>' :: lenientChars back :=
  lenientChars_mark [] back

/-- The text is cut at its first line feed where its bytes are. -/
theorem firstLine_lenientChars (content : List UInt8) :
    firstLine (lenientChars content) =
      (lenientChars (firstBytes content), lenientChars (laterBytes content)) := by
  obtain ⟨hfirst, hcontent | ⟨hcontent, hlater⟩⟩ := firstBytes_cases content
  · have hchars := mt lineFeed_mem_lenientChars.1 hfirst
    conv => lhs; rw [hcontent]
    rw [firstLine, lenientChars_feed, takeWhile_ne_append hchars, dropWhile_ne_append hchars]
    simp
  · have hchars := mt lineFeed_mem_lenientChars.1 hfirst
    conv => lhs; rw [hcontent]
    rw [firstLine, takeWhile_ne_of_not_mem hchars, dropWhile_ne_of_not_mem hchars, hlater]
    simp [lenientChars_nil]

theorem fromLast?_of_not_mem {c : Char} {line : List Char} (h : c ∉ line) :
    fromLast? c line = none := if_neg h

theorem fromLast?_append {c : Char} {back : List Char} (h : c ∉ back) (front : List Char) :
    fromLast? c (front ++ c :: back) = some (c :: back) := by
  have hreverse : (front ++ c :: back).reverse = back.reverse ++ c :: front.reverse := by simp
  rw [fromLast?, if_pos (by simp), hreverse, takeWhile_ne_append (by simpa using h)]
  simp

theorem repairLog?_of_clean {content : List UInt8} (h : 62 ∉ firstBytes content) :
    repairLog? content = none := by
  rw [repairLog?, firstLine_lenientChars]
  dsimp only
  rw [fromLast?_of_not_mem (mt mark_mem_lenientChars.1 h)]
  rfl

theorem repairLog?_of_cut {content front back : List UInt8}
    (h : firstBytes content = front ++ 62 :: back) (hback : 62 ∉ back) :
    repairLog? content = some (repaired (62 :: back) (laterBytes content)) := by
  have hfeed : encodeChar '\n' = [10] := rfl
  rw [repairLog?, firstLine_lenientChars]
  dsimp only
  rw [h, lenientChars_mark, fromLast?_append (mt mark_mem_lenientChars.1 hback), Option.map_some,
    ← lenientChars_mark_cons, repaired]
  simp [encode, decodeLenient, hfeed]

/-- There is a last mark where there is one. -/
theorem exists_last_of_mem {α : Type} {a : α} {as : List α} (h : a ∈ as) :
    ∃ front back, as = front ++ a :: back ∧ a ∉ back := by
  obtain ⟨back, front, hreverse, hback⟩ := List.eq_append_cons_of_mem (List.mem_reverse.2 h)
  refine ⟨front.reverse, back.reverse, ?_, by simpa using hback⟩
  rw [← as.reverse_reverse, hreverse]
  simp

/-! ### Twice -/

variable {back : List UInt8}

theorem firstBytes_repaired {kept : List UInt8} (h : 10 ∉ kept) (later : List UInt8) :
    firstBytes (repaired kept later) = encode (decodeLenient kept) :=
  firstBytes_append (mt (single_mem_encode (c := '\n') rfl kept).1 h) _

theorem laterBytes_repaired {kept : List UInt8} (h : 10 ∉ kept) (later : List UInt8) :
    laterBytes (repaired kept later) = encode (decodeLenient later) :=
  laterBytes_append (mt (single_mem_encode (c := '\n') rfl kept).1 h) _

/-- A repaired log is repaired to itself. -/
theorem repairLog?_repaired (hback : 62 ∉ back) (hfeed : 10 ∉ back) (later : List UInt8) :
    repairLog? (repaired (62 :: back) later) = some (repaired (62 :: back) later) := by
  have hkept : 10 ∉ 62 :: back := by simp [hfeed]
  have hmark : encodeChar '>' = [62] := rfl
  have hfirst : firstBytes (repaired (62 :: back) later) =
      [] ++ 62 :: encode (decodeLenient back) := by
    rw [firstBytes_repaired hkept]
    simp [encode, decodeLenient, lenientChars_mark_cons, hmark]
  have hclean : 62 ∉ encode (decodeLenient back) := mt (single_mem_encode hmark back).1 hback
  rw [repairLog?_of_cut hfirst hclean, laterBytes_repaired hkept, repaired,
    decodeLenient_encode_decodeLenient]
  rw [firstBytes_repaired hkept, List.nil_append] at hfirst
  rw [← hfirst, decodeLenient_encode_decodeLenient, repaired]

/-! ## Files -/

namespace FileSystem

section Repair

variable {fs : FileSystem} {path : String} {content new : List UInt8} {p : Place}
  {cause : FileError}

theorem repairLog_of_unreadable (h : fs.read path = .error cause) :
    fs.repairLog path = (.error cause, fs) := by
  rw [repairLog, h]

theorem repairLog_of_clean (h : fs.read path = .ok content) (hclean : repairLog? content = none) :
    fs.repairLog path = (.ok false, fs) := by
  rw [repairLog, h]
  dsimp only
  rw [hclean]

theorem repairLog_of_refused (h : fs.read path = .ok content) (hcut : repairLog? content = some new)
    (hrefused : fs.writable path = .error cause) : fs.repairLog path = (.error cause, fs) := by
  have hwrite : fs.write path new = .error cause := by rw [write, hrefused]; rfl
  rw [repairLog, h]
  dsimp only
  rw [hcut]
  dsimp only
  rw [hwrite]

theorem repairLog_of_written (h : fs.read path = .ok content) (hcut : repairLog? content = some new)
    (hwritable : fs.writable path = .ok p) : fs.repairLog path = (.ok true, fs.put p new) := by
  rw [repairLog, h]
  dsimp only
  rw [hcut]
  dsimp only
  rw [write_of_writable hwritable]

/-- A log that is not clean has a last mark on its first line. -/
theorem exists_cut_of_repairLog? (h : repairLog? content = some new) : ∃ front back,
    firstBytes content = front ++ 62 :: back ∧ 62 ∉ back ∧ 10 ∉ back ∧
      new = repaired (62 :: back) (laterBytes content) := by
  by_cases hmark : 62 ∈ firstBytes content
  · obtain ⟨front, back, hfirst, hback⟩ := exists_last_of_mem hmark
    have hfeed : 10 ∉ back := by
      have hnone := (firstBytes_cases content).1
      rw [hfirst] at hnone
      intro hmem
      exact hnone (List.mem_append_right _ (List.mem_cons_of_mem _ hmem))
    refine ⟨front, back, hfirst, hback, hfeed, ?_⟩
    rw [repairLog?_of_cut hfirst hback] at h
    exact (Option.some.inj h).symm
  · rw [repairLog?_of_clean hmark] at h
    cases h

/-- A second repair does what the first did. -/
theorem repairLog_again (fs : FileSystem) (path : String) :
    (fs.repairLog path).2.repairLog path = fs.repairLog path := by
  cases hread : fs.read path with
  | error cause => rw [repairLog_of_unreadable hread, repairLog_of_unreadable hread]
  | ok content =>
    cases hcut : repairLog? content with
    | none => rw [repairLog_of_clean hread hcut, repairLog_of_clean hread hcut]
    | some new =>
      cases hwritable : fs.writable path with
      | error cause =>
        rw [repairLog_of_refused hread hcut hwritable, repairLog_of_refused hread hcut hwritable]
      | ok p =>
        obtain ⟨front, back, hfirst, hback, hfeed, rfl⟩ := exists_cut_of_repairLog? hcut
        obtain ⟨q, hq, hthere⟩ := content?_of_read hread
        obtain rfl : q = p := Except.ok.inj (hq.symm.trans (writable_eq_ok hwritable).1)
        generalize hnew : repaired (62 :: back) (laterBytes content) = new at hcut
        have hcut' : repairLog? new = some new := hnew ▸ repairLog?_repaired hback hfeed _
        have hread' : (fs.put q new).read path = .ok new :=
          read_write (write_of_writable hwritable new)
        have hwritable' : (fs.put q new).writable path = .ok q :=
          writable_put hwritable (by rw [hthere]; rfl)
        rw [repairLog_of_written hread hcut hwritable, repairLog_of_written hread' hcut' hwritable',
          put_put]

end Repair

/-- **What a repair does.** A log that cannot be read is an error, and one without a `>` on its
first line stays as it is. Any other log is cut back to the last `>` on its first line, and
ill-formed bytes are dropped; what comes behind the first line stays byte for byte if it is a text
without replacement characters. A second repair changes nothing. -/
theorem repairLog_cut (fs : FileSystem) (path : String) :
    (∀ cause, fs.read path = .error cause → fs.repairLog path = (.error cause, fs)) ∧
      (∀ content, fs.read path = .ok content → 62 ∉ firstBytes content →
        fs.repairLog path = (.ok false, fs)) ∧
      (∀ content front back, fs.read path = .ok content → firstBytes content = front ++ 62 :: back →
        62 ∉ back →
        let new := encode (decodeLenient (62 :: back)) ++
          10 :: encode (decodeLenient (laterBytes content))
        (∀ cause, fs.writable path = .error cause → fs.repairLog path = (.error cause, fs)) ∧
        (∀ p, fs.writable path = .ok p →
          ∃ fs', fs.repairLog path = (.ok true, fs') ∧ fs'.read path = .ok new ∧
          ∀ q ≠ p, fs'.content? q = fs.content? q) ∧
        ∀ s, replacement ∉ s.toList → laterBytes content = encode s →
          new = encode (decodeLenient (62 :: back)) ++ 10 :: laterBytes content) ∧
      (fs.repairLog path).2.repairLog path = fs.repairLog path := by
  refine ⟨fun cause => repairLog_of_unreadable, fun content hread hclean => ?_,
    fun content front back hread hfirst hback => ?_, repairLog_again fs path⟩
  · exact repairLog_of_clean hread (repairLog?_of_clean hclean)
  · have hcut := repairLog?_of_cut hfirst hback
    refine ⟨fun cause => repairLog_of_refused hread hcut, fun p hwritable => ?_,
      fun s hs hlater => ?_⟩
    · exact ⟨_, repairLog_of_written hread hcut hwritable,
        read_write (write_of_writable hwritable _), fun q hq => content?_put_of_ne fs hq _⟩
    · rw [hlater, decodeLenient_encode hs]

/-- A character that is broken at the end of the first line is dropped, and the line behind it
stays. Of the other logs one is clean, one is not there and one cannot be written. -/
theorem repairLog_cut_broken :
    let content := [0x00, 0x3e, 0x20, 0xff, 0x3e, 0xc3, 10] ++ encode "é\r\n"
    let fs : FileSystem :=
      ⟨[(["a.log"], content), (["b.log"], encode "ok\n> "), (["c.log"], content)], [], [["c.log"]]⟩
    (∃ fs', fs.repairLog "a.log" = (.ok true, fs') ∧
      fs'.read "a.log" = .ok (0x3e :: 10 :: encode "é\r\n") ∧
      fs'.content? ["b.log"] = fs.content? ["b.log"]) ∧
    fs.repairLog "b.log" = (.ok false, fs) ∧ fs.repairLog "c.log" = (.error .denied, fs) ∧
      fs.repairLog "d.log" = (.error .notFound, fs) := by
  intro content fs
  have hfirst : firstBytes content = [0x00, 0x3e, 0x20, 0xff] ++ 62 :: [0xc3] := by decide +kernel
  have hlater : laterBytes content = encode "é\r\n" := by decide +kernel
  have hdecoded : encode (decodeLenient [62, 0xc3]) = [0x3e] := by decide +kernel
  have hmark : (62 : UInt8) ∉ [(0xc3 : UInt8)] := by decide
  refine ⟨?_, ?_, ?_, ?_⟩
  · have hhere : fs.read "a.log" = .ok content := by decide +kernel
    have hwritable : fs.writable "a.log" = .ok ["a.log"] := by decide +kernel
    obtain ⟨-, -, hcut, -⟩ := repairLog_cut fs "a.log"
    obtain ⟨-, hwritten, hkept⟩ := hcut content _ [0xc3] hhere hfirst hmark
    obtain ⟨fs', hrepair, hread, hother⟩ := hwritten _ hwritable
    rw [hkept "é\r\n" (by decide) hlater, hdecoded, hlater] at hread
    exact ⟨fs', hrepair, hread, hother _ (by decide)⟩
  · have hhere : fs.read "b.log" = .ok (encode "ok\n> ") := by decide +kernel
    obtain ⟨-, hclean, -⟩ := repairLog_cut fs "b.log"
    exact hclean _ hhere (by decide +kernel)
  · have hhere : fs.read "c.log" = .ok content := by decide +kernel
    have hlocked : fs.writable "c.log" = .error .denied := by decide +kernel
    obtain ⟨-, -, hcut, -⟩ := repairLog_cut fs "c.log"
    obtain ⟨hrefused, -⟩ := hcut content _ [0xc3] hhere hfirst hmark
    exact hrefused _ hlocked
  · have hmissing : fs.read "d.log" = .error .notFound := by decide +kernel
    obtain ⟨hunreadable, -⟩ := repairLog_cut fs "d.log"
    exact hunreadable _ hmissing

/-- A log at the end of a repair that was needed. -/
theorem repairLog_true {fs fs' : FileSystem} {path : String}
    (h : fs.repairLog path = (.ok true, fs')) :
    ∃ old front back, fs.read path = .ok old ∧ firstBytes old = front ++ 62 :: back ∧ 10 ∉ back ∧
      fs'.read path = .ok (repaired (62 :: back) (laterBytes old)) := by
  cases hread : fs.read path with
  | error cause =>
    rw [repairLog_of_unreadable hread] at h
    cases h
  | ok old =>
    cases hcut : repairLog? old with
    | none =>
      rw [repairLog_of_clean hread hcut] at h
      cases h
    | some new =>
      cases hwritable : fs.writable path with
      | error cause =>
        rw [repairLog_of_refused hread hcut hwritable] at h
        cases h
      | ok p =>
        rw [repairLog_of_written hread hcut hwritable] at h
        obtain ⟨-, rfl⟩ := Prod.mk.inj h
        obtain ⟨front, back, hfirst, -, hfeed, rfl⟩ := exists_cut_of_repairLog? hcut
        exact ⟨old, front, back, rfl, hfirst, hfeed, read_write (write_of_writable hwritable _)⟩

end FileSystem

/-! ## Findings -/

/-- The lines of a log are its first line and the lines of the bytes behind it. -/
theorem lines_of_first {content : List UInt8}
    (h : 10 ∈ content ∨ lenientChars (firstBytes content) ≠ []) :
    ∃ first, lines (decodeLenient content) =
      String.ofList first :: lines (decodeLenient (laterBytes content)) ∧
      (first = lenientChars (firstBytes content) ∨
        first = dropReturn (lenientChars (firstBytes content))) := by
  obtain ⟨hfirst, hcontent | ⟨hcontent, hlater⟩⟩ := firstBytes_cases content
  · refine ⟨_, ?_, .inr rfl⟩
    conv => lhs; rw [hcontent]
    rw [lines, decodeLenient, String.toList_ofList, lenientChars_feed,
      linesOf_append_cons (mt lineFeed_mem_lenientChars.1 hfirst), List.map_cons, lines,
      decodeLenient, String.toList_ofList]
  · refine ⟨_, ?_, .inl rfl⟩
    have hne : lenientChars (firstBytes content) ≠ [] := h.resolve_left (hcontent ▸ hfirst)
    conv => lhs; rw [hcontent]
    rw [lines, decodeLenient, String.toList_ofList,
      linesOf_of_not_mem (mt lineFeed_mem_lenientChars.1 hfirst) hne, hlater]
    rfl

/-- A line adds to what is found exactly if it is a record. -/
theorem classifyLines_cons_eq_iff {line : String} {lines : List String} :
    classifyLines (line :: lines) = classifyLines lines ↔ classifyLine line = none := by
  cases h : classifyLine line with
  | none => rw [classifyLines_cons, classifyLines_of_none h, Findings.empty_append, eq_self,
      eq_self]
  | some r =>
    have hadds : classifyLines (line :: lines) = .ofRecord r ++ classifyLines lines := by
      rw [classifyLines, h]
    rw [hadds]
    exact iff_of_false (Ne.symm ((Findings.Within.refl _).ne_ofRecord_append r))
      (Option.some_ne_none r)

/-- **What is found in a repaired log.** The lines behind the first are the same as before, and what
is found is found on them: the first line is no record now. What is found before the repair is the
same unless it was one, with a `>` in it. -/
theorem FileSystem.repairLog_findings {fs fs' : FileSystem} {path : String}
    (h : fs.repairLog path = (.ok true, fs')) :
    ∃ old new first cut, fs.read path = .ok old ∧ fs'.read path = .ok new ∧
      lines (decodeLenient old) = first :: lines (decodeLenient (laterBytes old)) ∧
      lines (decodeLenient new) = cut :: lines (decodeLenient (laterBytes old)) ∧
      '>' ∈ first.toList ∧ classifyLine cut = none ∧
      classify (decodeLenient new) = classify (decodeLenient (laterBytes old)) ∧
      (classify (decodeLenient old) = classify (decodeLenient new) ↔
        classifyLine first = none) := by
  obtain ⟨old, front, back, hold, hfirst, hfeed, hnew⟩ := repairLog_true h
  have hkept : 10 ∉ 62 :: back := by simp [hfeed]
  have hmark : '>' ∈ lenientChars (firstBytes old) := by
    rw [hfirst, lenientChars_mark]
    simp
  obtain ⟨first, hlines, hfirst⟩ := lines_of_first (.inr (List.ne_nil_of_mem hmark))
  have hline : 10 ∈ repaired (62 :: back) (laterBytes old) := by simp [repaired]
  obtain ⟨cut, hlines', hcut⟩ := lines_of_first (.inl hline)
  rw [laterBytes_repaired hkept, decodeLenient_encode_decodeLenient] at hlines'
  rw [firstBytes_repaired hkept, lenientChars_encode_decodeLenient] at hcut
  have hprompt : ∃ rest, cut = '>' :: rest := by
    rw [lenientChars_mark_cons, dropReturn_cons (by decide)] at hcut
    exact hcut.elim (⟨_, ·⟩) (⟨_, ·⟩)
  obtain ⟨rest, rfl⟩ := hprompt
  have hnone := classifyLine_of_prompt rest
  have hfound : classify (decodeLenient (repaired (62 :: back) (laterBytes old))) =
      classify (decodeLenient (laterBytes old)) := by
    rw [classify, hlines', classifyLines_cons_eq_iff.2 hnone, classify]
  refine ⟨old, _, _, _, hold, hnew, hlines, hlines', ?_, hnone, hfound, ?_⟩
  · rw [String.toList_ofList]
    exact hfirst.elim (· ▸ hmark) (· ▸ mem_dropReturn (by decide) hmark)
  · rw [hfound, classify, hlines, classify]
    exact classifyLines_cons_eq_iff

/-- A summary with a `>` in its label is found before the repair and not after it. -/
theorem FileSystem.repairLog_findings_label :
    let content :=
      encode "\x7b\"tag\":\"a>b\",\"epoch\":7,\"pets\":[]\x7d\n\x7b\"epoch\":8,\"pets\":[]\x7d\n"
    let fs : FileSystem := ⟨[(["a.log"], content)], [], []⟩
    ∃ fs' new, fs.repairLog "a.log" = (.ok true, fs') ∧ fs'.read "a.log" = .ok new ∧
      classify (decodeLenient content) = ⟨[⟨some "a>b", 7, []⟩, ⟨none, 8, []⟩], []⟩ ∧
      classify (decodeLenient new) = ⟨[⟨none, 8, []⟩], []⟩ := by
  intro content fs
  have hrepaired : (fs.repairLog "a.log").1 = .ok true := by decide +kernel
  have hread : fs.read "a.log" = .ok content := by decide +kernel
  have hbefore : classify (decodeLenient content) = ⟨[⟨some "a>b", 7, []⟩, ⟨none, 8, []⟩], []⟩ := by
    decide +kernel
  have hlater : classify (decodeLenient (laterBytes content)) = ⟨[⟨none, 8, []⟩], []⟩ := by
    decide +kernel
  have h : fs.repairLog "a.log" = (.ok true, (fs.repairLog "a.log").2) := by rw [← hrepaired]
  generalize (fs.repairLog "a.log").2 = fs' at h
  obtain ⟨old, new, -, -, hold, hnew, -, -, -, -, hfound, -⟩ := repairLog_findings h
  have hsame : content = old := Except.ok.inj (hread.symm.trans hold)
  rw [← hsame, hlater] at hfound
  exact ⟨fs', new, h, hnew, hbefore, hfound⟩

end ProximityLab
