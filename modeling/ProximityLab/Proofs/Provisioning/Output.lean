import ProximityLab.Proofs.Terminal.Chunks
import ProximityLab.Provisioning.Make

/-!
# The output of a process

Lines are taken from a process one by one, and its output is read in chunks meanwhile. Once it has
ended, the lines are those of its output framed in these chunks.

- **Chunks** (`flatten_reads`): the chunks are the output, cut after every `chunkSize` bytes. Those
  of ASCII are texts again (`exists_pieces`).
- **One line** (`nextWithin_spec`): what is taken is the first line that remains, and the output is
  at its end when none does.
- **All lines** (`drains_remaining`): what remains is taken line by line.
- **What is seen** (`drains_visible`): of a process that has printed regular lines a session sees
  what each of them shows, wherever the chunks end.
-/

namespace ProximityLab.RunningScript

/-! ## Chunks -/

/-- The chunks in which bytes are read. -/
def reads (bytes : List UInt8) : List (List UInt8) :=
  if bytes = [] then [] else bytes.take chunkSize :: reads (bytes.drop chunkSize)
termination_by bytes.length
decreasing_by
  rename_i h
  have := List.length_pos_iff.2 h
  rw [List.length_drop, chunkSize]
  omega

theorem reads_of_ne_nil {bytes : List UInt8} (h : bytes ≠ []) :
    reads bytes = bytes.take chunkSize :: reads (bytes.drop chunkSize) := by
  rw [reads, if_neg h]

theorem reads_nil : reads [] = [] := by
  rw [reads, if_pos rfl]

theorem flatten_reads (bytes : List UInt8) : (reads bytes).flatten = bytes := by
  induction bytes using reads.induct with
  | case1 => rw [reads_nil, List.flatten_nil]
  | case2 bytes h ih => rw [reads_of_ne_nil h, List.flatten_cons, ih, List.take_append_drop]

/-! ## One line -/

/-- The process has ended. -/
def Ended (p : RunningScript) : Prop := (p.invocation.after p.sent).ending.isSome = true

/-- The output that was not read. -/
def unread (p : RunningScript) : List UInt8 := (p.invocation.after p.sent).output.drop p.taken

/-- The lines that can still be taken from a process that has ended. -/
def remaining (p : RunningScript) : List String :=
  p.pending ++ if p.readable then p.framer.run (reads p.unread) else []

/-- How often a process is read at most for a line. -/
def patience (p : RunningScript) : Nat := if p.readable then p.unread.length + 2 else 1

/-- The process when a chunk was read. -/
def feed (chunk : List UInt8) (p : RunningScript) : RunningScript :=
  { p with
    taken := p.taken + chunk.length
    framer := (p.framer.push chunk).2
    pending := (p.framer.push chunk).1 }

/-- The chunk that is read next. -/
def chunk (p : RunningScript) : List UInt8 := p.unread.take chunkSize

/-- The process at the end of its output. -/
def flush (p : RunningScript) : RunningScript :=
  { p with framer := p.framer.finish.2, pending := p.framer.finish.1, readable := false }

theorem unread_feed (p : RunningScript) : (p.feed p.chunk).unread = p.unread.drop chunkSize := by
  have hleft : (p.feed p.chunk).unread = p.unread.drop p.chunk.length := List.drop_drop.symm
  rw [hleft, chunk, List.length_take]
  rcases Nat.le_total chunkSize p.unread.length with h | h
  · rw [Nat.min_eq_left h]
  · rw [Nat.min_eq_right h, List.drop_length, List.drop_eq_nil_of_le h]

section Reading

variable {p : RunningScript} (hpending : p.pending = []) (hreadable : p.readable = true)
include hpending hreadable

/-- With no line at hand a chunk is read; at the end of the output the framer gives what it has. -/
theorem nextWithin_read (fuel : Nat) : p.nextWithin (fuel + 1) =
    if !p.chunk.isEmpty then (p.feed p.chunk).nextWithin fuel
    else if (p.invocation.after p.sent).ending.isSome then p.flush.nextWithin fuel
    else (.hung, p) := by
  rw [nextWithin, hpending]
  simp only [hreadable, Bool.not_true, Bool.false_eq_true, if_false, feed, chunk, unread, flush]

theorem remaining_feed (hunread : p.unread ≠ []) : (p.feed p.chunk).remaining = p.remaining := by
  simp only [remaining, unread_feed, hpending, reads_of_ne_nil hunread, Framer.run, List.nil_append]
  simp only [feed, chunk, hreadable, if_true]

theorem remaining_flush (hunread : p.unread = []) : p.flush.remaining = p.remaining := by
  simp only [remaining, flush, hpending, hreadable, hunread, reads_nil, Framer.run, if_true,
    Bool.false_eq_true, if_false, List.append_nil, List.nil_append]

end Reading

/-- With patience enough, the first line that remains is taken, or the output is at its end. -/
theorem nextWithin_spec {fuel : Nat} {p : RunningScript} (hended : p.Ended)
    (hfuel : p.patience ≤ fuel) :
    (∃ text p', p.nextWithin fuel = (.line text, p') ∧ p.remaining = text :: p'.remaining ∧
      p'.Ended) ∨ ∃ p', p.nextWithin fuel = (.eof, p') ∧ p.remaining = [] := by
  induction fuel generalizing p with
  | zero =>
    unfold patience at hfuel
    split at hfuel <;> omega
  | succ fuel ih =>
    cases hpending : p.pending with
    | cons text lines =>
      refine .inl ⟨text, { p with pending := lines }, ?_, ?_, hended⟩
      · rw [nextWithin, hpending]
      · rw [remaining, hpending]
        rfl
    | nil =>
      cases hreadable : p.readable with
      | false =>
        refine .inr ⟨p, ?_, ?_⟩
        · rw [nextWithin, hpending, hreadable]
          rfl
        · rw [remaining, hpending, hreadable]
          rfl
      | true =>
        rw [patience, hreadable, if_pos rfl] at hfuel
        rw [nextWithin_read hpending hreadable]
        by_cases hunread : p.unread = []
        · have hone : p.flush.patience ≤ fuel := by
            rw [patience, if_neg (show ¬ p.flush.readable = true from Bool.false_ne_true)]
            omega
          rw [show p.chunk = [] by rw [chunk, hunread, List.take_nil], if_neg (by simp),
            if_pos (show (p.invocation.after p.sent).ending.isSome = true from hended),
            ← remaining_flush hpending hreadable hunread]
          exact ih (p := p.flush) hended hone
        · have hpos := List.length_pos_iff.2 hunread
          have hchunk : p.chunk.isEmpty = false := by
            rw [List.isEmpty_eq_false_iff, ← List.length_pos_iff, chunk, List.length_take,
              chunkSize]
            omega
          have hless : (p.feed p.chunk).patience ≤ fuel := by
            rw [patience, show (p.feed p.chunk).readable = true from hreadable, if_pos rfl,
              unread_feed, List.length_drop, chunkSize]
            omega
          rw [if_pos (by simp [hchunk]), ← remaining_feed hpending hreadable hunread]
          exact ih (p := p.feed p.chunk) hended hless

/-! ## All lines -/

/-- The lines that are taken one by one until the output is at its end. -/
inductive Drains : RunningScript → List String → Prop where
  | eof {p p' : RunningScript} (h : p.next = (.eof, p')) : Drains p []
  | line {p p' : RunningScript} {text : String} {lines : List String}
      (h : p.next = (.line text, p')) (hrest : Drains p' lines) : Drains p (text :: lines)

/-- What is taken from a process that has ended is what remains. -/
theorem drains_remaining {p : RunningScript} (hended : p.Ended) : Drains p p.remaining := by
  have hpatience : ∀ p : RunningScript,
      p.patience ≤ (p.invocation.after p.sent).output.length + 3 := by
    intro p
    unfold patience unread
    rw [List.length_drop]
    split <;> omega
  induction hlines : p.remaining generalizing p with
  | nil =>
    obtain ⟨text, p', -, hcons, -⟩ | ⟨p', hnext, -⟩ := nextWithin_spec hended (hpatience p)
    · rw [hlines] at hcons
      cases hcons
    · exact .eof hnext
  | cons text lines ih =>
    obtain ⟨text', p', hnext, hcons, hended'⟩ | ⟨p', -, hnil⟩ :=
      nextWithin_spec hended (hpatience p)
    · rw [hlines] at hcons
      obtain ⟨rfl, hrest⟩ := List.cons.inj hcons
      exact .line hnext (ih hended' hrest.symm)
    · rw [hlines] at hnil
      cases hnil

/-- A process that ends without being sent anything gives the lines of its output, framed in some
chunks. -/
theorem drains_new {i : Script.Invocation} (hended : (i.after []).ending.isSome = true) :
    ∃ chunks : List (List UInt8), chunks.flatten = (i.after []).output ∧
      Drains (new i) (Framer.empty.run chunks) :=
  ⟨reads (i.after []).output, flatten_reads _, drains_remaining (p := new i) hended⟩

/-! ## What is seen -/

/-- However a text of ASCII is cut into chunks of bytes, these are the pieces of the text. -/
theorem exists_pieces {chunks : List (List UInt8)} {cs : List Char}
    (hascii : ∀ c ∈ cs, c.toNat < 0x80) (h : chunks.flatten = cs.flatMap Text.encodeChar) :
    ∃ pieces : List String, String.join pieces = .ofList cs ∧ pieces.map Text.encode = chunks := by
  -- one byte for each character, so each chunk is some of the characters
  have hbytes : ∀ cs : List Char, (∀ c ∈ cs, c.toNat < 0x80) →
      cs.flatMap Text.encodeChar = cs.map fun c => UInt8.ofNat c.toNat := fun cs hcs =>
    (List.flatMap_congr fun c hc => Text.encodeChar_ascii (hcs c hc)).trans
      List.map_eq_flatMap.symm
  induction chunks generalizing cs with
  | nil =>
    rw [hbytes cs hascii, List.flatten_nil, List.nil_eq, List.map_eq_nil_iff] at h
    subst h
    exact ⟨[], rfl, rfl⟩
  | cons chunk chunks ih =>
    rw [hbytes cs hascii, List.flatten_cons, eq_comm, List.map_eq_append_iff] at h
    obtain ⟨front, back, rfl, hfront, hback⟩ := h
    obtain ⟨hfrontAscii, hbackAscii⟩ := List.forall_mem_append.1 hascii
    obtain ⟨pieces, hjoin, hpieces⟩ := ih hbackAscii (by rw [hbytes back hbackAscii, hback])
    refine ⟨.ofList front :: pieces, ?_, ?_⟩
    · rw [String.ofList_append, ← hjoin]
      simp [String.join_cons]
    · rw [List.map_cons, hpieces, Text.encode, String.toList_ofList, hbytes front hfrontAscii,
        hfront]

/-- **What a session sees of a process.** A process ends without being sent anything, and has
printed ASCII. If its lines are regular, a session sees the prompt that each of them starts with and
its output, though the prompts are handed out as soon as a chunk ends with them. -/
theorem drains_visible {i : Script.Invocation} {text : String}
    (hended : (i.after []).ending.isSome = true) (houtput : (i.after []).output = Text.encode text)
    (hascii : ∀ c ∈ text.toList, c.toNat < 0x80)
    (hregular : ∀ line ∈ Text.splitOn '\n' text.toList, Framer.Regular line) :
    ∃ lines, Drains (new i) lines ∧
      Framer.visible lines = (Text.splitOn '\n' text.toList).flatMap Framer.seen := by
  obtain ⟨chunks, hflatten, hdrains⟩ := drains_new hended
  rw [houtput, Text.encode] at hflatten
  obtain ⟨pieces, hjoin, rfl⟩ := exists_pieces hascii hflatten
  have hreplacement : Text.replacement ∉ text.toList := fun h => absurd (hascii _ h) (by decide)
  exact ⟨_, hdrains, Framer.visible_run hreplacement hregular (hjoin.trans String.ofList_toList)⟩

/-- A script that prints a prompt with output behind it. -/
example :
    let i : Script.Invocation :=
      ⟨"log.sh", Text.encode "echo '> pepper'\necho ok\n", [], [], .empty⟩
    ∃ lines, Drains (new i) lines ∧ Framer.visible lines = [">", "pepper", "ok"] := by
  intro i
  have hlines : Text.splitOn '\n' "> pepper\nok\n".toList =
      ["> pepper".toList, "ok".toList, []] := by
    decide +kernel
  have houtput : (i.after []).output = Text.encode "> pepper\nok\n" := by decide +kernel
  have hregular : ∀ line ∈ Text.splitOn '\n' "> pepper\nok\n".toList, Framer.Regular line := by
    rw [hlines]
    simp only [List.forall_mem_cons]
    exact ⟨.shell (by decide), .output (by decide), .output (by decide), nofun⟩
  obtain ⟨lines, hdrains, hvisible⟩ :=
    drains_visible (by decide +kernel) houtput (by simp) hregular
  refine ⟨lines, hdrains, hvisible.trans ?_⟩
  decide +kernel

end ProximityLab.RunningScript
