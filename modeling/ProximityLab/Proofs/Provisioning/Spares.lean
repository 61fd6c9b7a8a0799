import ProximityLab.Proofs.Campaign.Run
import ProximityLab.Proofs.FileSystem.Write
import ProximityLab.Proofs.Provisioning.Invariant

/-!
# Files that a fleet leaves alone

Firmware tools write files, terminal logs at least, and so do the devices behind their terminals. A
file that the tool spares (`FirmwareTool.Spares`) is spared by a fleet with that tool, whatever is
done with it (`Fleet.Preserves`). A tool that writes nothing but the terminal log that a call names
spares all other files (`LogsOnly.spares`).
-/

namespace ProximityLab

open Campaign (Uses)

/-- Closing the terminal of the device does not change the file at a place. -/
def Behaviour.Spares (b : Behaviour) (p : Place) : Prop :=
  ∀ sent (files : FileSystem), (files.apply (b.leaves sent)).content? p = files.content? p

namespace FirmwareTool

/-- As long as it is to keep a terminal log at `path`, the tool does not change the file at a place,
and nor do the devices whose terminals it opens. -/
structure Spares (tool : FirmwareTool) (p : Place) (path : String) : Prop where
  build : ∀ calls files call, call.vars.get? Environment.termlogVar = some path →
    (tool.build calls files call).2.content? p = files.content? p
  openTerminal : ∀ calls files call, call.vars.get? Environment.termlogVar = some path →
    (tool.openTerminal calls files call).2.content? p = files.content? p
  leaves : ∀ calls files call b files', call.vars.get? Environment.termlogVar = some path →
    tool.openTerminal calls files call = (.done b, files') → b.Spares p

/-- Each call changes the terminal log that it names and no other file, and devices leave nothing
behind. -/
structure LogsOnly (tool : FirmwareTool) : Prop where
  build : ∀ calls files call, (tool.build calls files call).2 = files
  openTerminal : ∀ calls files call, (tool.openTerminal calls files call).2 = files ∨
    ∃ path bytes behind, call.vars.get? Environment.termlogVar = some path ∧
      (tool.openTerminal calls files call).2 = files.tryWrite ⟨path, bytes, behind⟩
  leaves : ∀ calls files call b files', tool.openTerminal calls files call = (.done b, files') →
    ∀ sent, b.leaves sent = []

/-- A file is spared unless it is the terminal log. -/
theorem LogsOnly.spares {tool : FirmwareTool} (h : tool.LogsOnly) {p : Place} {path : String}
    (hp : ∀ files : FileSystem, files.place path ≠ .ok p) : tool.Spares p path where
  build calls files call _ := by rw [h.build]
  openTerminal calls files call hpath := by
    obtain heq | ⟨path', bytes, behind, hpath', heq⟩ := h.openTerminal calls files call
    · rw [heq]
    · obtain rfl := Option.some.inj (hpath.symm.trans hpath')
      rw [heq]
      exact FileSystem.content?_tryWrite _ (hp files)
  leaves calls files call b files' _ hopen sent files'' := by
    rw [h.leaves calls files call b files' hopen sent]
    rfl

end FirmwareTool

namespace Fleet

/-- The file at a place is as it was, and will be, whatever terminal is closed. -/
structure Preserves (tool : FirmwareTool) (p : Place) (content : Option (List UInt8)) (f : Fleet) :
    Prop where
  tool : f.tool = tool
  content : f.files.content? p = content
  leaves : ∀ c ∈ f.connections, c.terminal.behaviour.Spares p

namespace Preserves

variable {tool : FirmwareTool} {p : Place} {content : Option (List UInt8)} {f : Fleet}
  {nodes nodes' : List Node}

theorem new (tool : FirmwareTool) (recipe : Recipe) (files : FileSystem) (p : Place) :
    Preserves tool p (files.content? p) (.new tool recipe files) := ⟨rfl, rfl, by simp [Fleet.new]⟩

theorem openTerminal (h : Preserves tool p content f) {now : Nat} {call : ToolCall} {path : String}
    (hpath : call.vars.get? Environment.termlogVar = some path) (hspares : tool.Spares p path) :
    Preserves tool p content (f.openTerminal now call).2 := by
  have hfiles := hspares.openTerminal f.calls f.files call hpath
  have hleaves := hspares.leaves f.calls f.files call
  rw [← h.tool] at hfiles hleaves
  unfold Fleet.openTerminal
  rcases hr : f.tool.openTerminal f.calls f.files call with ⟨result, files⟩
  rw [hr] at hfiles hleaves
  have hcontent : files.content? p = content := hfiles.trans h.content
  cases result with
  | failed cause => exact ⟨h.tool, hcontent, h.leaves⟩
  | panicked => exact ⟨h.tool, hcontent, h.leaves⟩
  | done b =>
    refine ⟨h.tool, hcontent, fun c hc => ?_⟩
    rcases List.mem_append.1 hc with hc | hc
    · exact h.leaves c hc
    · obtain rfl := List.mem_singleton.1 hc
      exact hleaves b files hpath rfl

/-- The device of a terminal that is closed has spared the file. -/
theorem close (h : Preserves tool p content f) (i : Nat) :
    Preserves tool p content (f.close i) := by
  unfold Fleet.close
  split
  · exact h
  · rename_i c hc
    have hspares := h.leaves c (List.mem_of_getElem? hc)
    refine ⟨h.tool, ?_, fun x hx => ?_⟩
    · dsimp only
      split
      · exact h.content
      · exact (hspares _ _).trans h.content
    · rcases List.mem_or_eq_of_mem_set hx with hx | rfl
      · exact h.leaves x hx
      · exact hspares

/-- Provisioning keeps the file, as long as its terminal logs spare it. -/
theorem invariant (p : Place) (content : Option (List UInt8)) (now : Nat) :
    Invariant (fun call => ∃ path, call.vars.get? Environment.termlogVar = some path ∧
      tool.Spares p path) now
      (Preserves tool p content) where
  build f call := by
    rintro ⟨path, hpath, hspares⟩ h
    refine ⟨h.tool, ?_, h.leaves⟩
    have hfiles := hspares.build f.calls f.files call hpath
    rw [← h.tool] at hfiles
    exact hfiles.trans h.content
  openTerminal _ _ := fun ⟨_, hpath, hspares⟩ h => h.openTerminal hpath hspares
  enlist _ _ h := ⟨h.tool, h.content, h.leaves⟩
  close _ i h := h.close i

/-- The nodes hold terminals of devices that spare the file. -/
def Lent (p : Place) (nodes : List Node) : Prop := ∀ n ∈ nodes, n.terminal.behaviour.Spares p

theorem lent_nodesOf (h : Preserves tool p content f) (es : List Environment) :
    Lent p (Experiment.nodesOf es f) := by
  intro n hn
  obtain ⟨i, hi⟩ := List.mem_iff_getElem?.1 hn
  obtain ⟨e, c, -, hc, rfl⟩ := List.getElem?_zipWith_eq_some.1 hi
  exact h.leaves c (List.mem_of_getElem? hc)

theorem Lent.uses (h : Lent p nodes) (hu : List.Forall₂ Uses nodes nodes') : Lent p nodes' := by
  intro n' hn'
  obtain ⟨i, hi, rfl⟩ := List.getElem_of_mem hn'
  have hi' : i < nodes.length := hu.length_eq ▸ hi
  have hsame := (hu.get hi' hi).behaviour
  rw [List.get_eq_getElem, List.get_eq_getElem] at hsame
  rw [hsame]
  exact h _ (List.getElem_mem hi')

theorem giveBack (h : Preserves tool p content f) (i : Nat) {t : Terminal}
    (ht : t.behaviour.Spares p) :
    Preserves tool p content (f.giveBack i t) := by
  unfold Fleet.giveBack
  split
  · exact h
  · refine ⟨h.tool, h.content, fun x hx => ?_⟩
    rcases List.mem_or_eq_of_mem_set hx with hx | rfl
    · exact h.leaves x hx
    · exact ht

theorem takeBack (h : Preserves tool p content f) (hn : Lent p nodes) :
    Preserves tool p content (f.takeBack nodes) :=
  keeps_takeBack h fun _ i _ hi hg => hg.giveBack i (hn _ (List.mem_of_getElem? hi))

end Preserves

end Fleet

end ProximityLab
