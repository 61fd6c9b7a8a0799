import ProximityLab.Proofs.Provisioning.Invariant

/-!
# What holds of all terminals of a fleet

A property that a tool's terminals have when they are opened, and that closing does not take away,
holds of all terminals of a fleet while devices are provisioned (`Fleet.Holds.provisionAll`).
-/

namespace ProximityLab

namespace Fleet

/-- The fleet uses this tool, and all its terminals have a property. -/
structure Holds (P : Terminal → Prop) (tool : FirmwareTool) (f : Fleet) : Prop where
  tool : f.tool = tool
  each : ∀ c ∈ f.connections, P c.terminal

namespace Holds

variable {P : Terminal → Prop} {tool : FirmwareTool} {f : Fleet}

theorem new (P : Terminal → Prop) (tool : FirmwareTool) (recipe : Recipe) (files : FileSystem) :
    Holds P tool (.new tool recipe files) := ⟨rfl, by simp [Fleet.new]⟩

section Provisioning

variable {now : Nat} (hclose : ∀ t, P t → P t.close.2)
  (hopened : ∀ calls files call b files',
    tool.openTerminal calls files call = (.done b, files') → P (.opened now b))

include hclose in
theorem close (h : Holds P tool f) (i : Nat) : Holds P tool (f.close i) := by
  unfold Fleet.close
  split
  · exact h
  · rename_i c hc
    refine ⟨h.tool, fun x hx => ?_⟩
    rcases List.mem_or_eq_of_mem_set hx with hx | rfl
    · exact h.each x hx
    · exact hclose _ (h.each c (List.mem_of_getElem? hc))

include hopened in
theorem openTerminal (h : Holds P tool f) (call : ToolCall) :
    Holds P tool (f.openTerminal now call).2 := by
  have hnew := hopened f.calls f.files call
  unfold Fleet.openTerminal
  rw [← h.tool] at hnew
  rcases hr : f.tool.openTerminal f.calls f.files call with ⟨result, files⟩
  cases result with
  | failed cause => exact ⟨h.tool, h.each⟩
  | panicked => exact ⟨h.tool, h.each⟩
  | done b =>
    refine ⟨h.tool, fun c hc => ?_⟩
    rcases List.mem_append.1 hc with hc | hc
    · exact h.each c hc
    · obtain rfl := List.mem_singleton.1 hc
      exact hnew b files hr

include hclose hopened

theorem invariant : Invariant (fun _ => True) now (Holds P tool) where
  build _ _ _ h := ⟨h.tool, h.each⟩
  openTerminal _ call _ h := h.openTerminal hopened call
  enlist _ _ h := ⟨h.tool, h.each⟩
  close _ i h := h.close hclose i

theorem provisionAll (h : Holds P tool f) (c : Configuration) (es : List Environment) :
    Holds P tool (Experiment.provisionAll c now es f).2 :=
  (invariant hclose hopened).provisionAll h fun _ _ _ _ _ => trivial

end Provisioning

end Holds

end Fleet

end ProximityLab
