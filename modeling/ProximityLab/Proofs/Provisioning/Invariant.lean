import ProximityLab.Experiment.Run
import Mathlib.Data.List.Forall2

/-!
# What provisioning keeps and what it achieves

- **Steps**: what registering and closing terminals keep is kept by all uses of the registry
  (`Fleet.Enduring`). What the other steps of provisioning keep as well is kept however provisioning
  ends (`Fleet.Invariant.provisionAll`). The tool is called for the devices of the environments
  only, and each call names the terminal log of its device.
- **Result**: when all devices are provisioned, each environment has one terminal, in the same
  order, and the tool was called three times for it (`Experiment.provisionAll_done`). A fleet grows
  in no other way (`Fleet.Grows`).
-/

namespace ProximityLab

/-! ## The terminal log -/

theorem Environment.node_eq_ok_iff {e : Environment} {node : String} :
    e.node = .ok node ↔ e.node? = some node := by
  unfold Environment.node
  split <;> simp_all

/-- The terminal log has no part in how a device is addressed. -/
theorem Environment.node_set_termlog {e : Environment} {path node : String} :
    (e.set termlogVar path).node = .ok node ↔ e.node = .ok node := by
  have hget : ∀ name, name ≠ termlogVar → (e.set termlogVar path).get? name = e.get? name :=
    fun name hname => e.vars.get?_set_of_ne hname
  rw [node_eq_ok_iff, node_eq_ok_iff]
  simp only [node?, addressing?, board?, hget addressVar (by decide), hget indexVar (by decide),
    hget adapterVar (by decide), hget boardVar (by decide)]

theorem Recipe.get?_override {name other : String} (h : other ≠ name) (setting : Option String)
    (v : Variables) :
    (override name setting v).get? other = v.get? other := by
  cases setting with
  | none => rfl
  | some value => exact v.get?_set_of_ne h

/-- No build setting changes where the terminal log is kept. -/
theorem Recipe.get?_termlog (r : Recipe) (e : Environment) :
    (r.vars e).get? Environment.termlogVar = e.get? Environment.termlogVar := by
  rw [vars, get?_override (by decide), get?_override (by decide), get?_override (by decide),
    Environment.get?]

/-! ## Steps -/

namespace Fleet

/-- Registering and closing terminals keep a property of the fleet. -/
structure Enduring (I : Fleet → Prop) : Prop where
  enlist : ∀ f registry, I f → I { f with registry := registry }
  close : ∀ f i, I f → I (f.close i)

/-- The steps of provisioning keep a property of the fleet, as long as the tool is called as it may
be. -/
structure Invariant (MayCall : ToolCall → Prop) (now : Nat) (I : Fleet → Prop) :
    Prop extends Enduring I where
  build : ∀ f call, MayCall call → I f → I (f.build call).2
  openTerminal : ∀ f call, MayCall call → I f → I (f.openTerminal now call).2

section Steps

variable {MayCall : ToolCall → Prop} {now : Nat} {I : Fleet → Prop} {f : Fleet}

theorem Enduring.register (h : Enduring I) (hf : I f) (node : String) (i : Nat) :
    I (f.register node i) := by
  have hlist := h.enlist f (f.registry.filter (·.1 ≠ node) ++ [(node, i)]) hf
  unfold Fleet.register
  dsimp only
  split
  · exact h.close _ _ hlist
  · exact hlist

theorem Enduring.closeAll (h : Enduring I) (hf : I f) : I f.closeAll.2 := by
  have hclose : ∀ (is : List Nat) (g : Fleet), I g → I (is.foldl (fun f i => f.close i) g) := by
    intro is
    induction is with
    | nil => exact fun g hg => hg
    | cons i is ih => exact fun g hg => ih _ (h.close g i hg)
  exact hclose _ _ (h.enlist f [] hf)

theorem keeps_andThen {α β : Type} {r : Attempt α × Fleet} {next : α → Fleet → Attempt β × Fleet}
    (hr : I r.2) (hnext : ∀ a g, I g → I (next a g).2) : I (andThen r next).2 := by
  obtain ⟨a | _ | _, g⟩ := r
  · exact hnext a g hr
  · exact hr
  · exact hr

/-- What is kept when the terminal of any of the nodes comes back is kept when all come back. -/
theorem keeps_takeBack {nodes : List Node} (hf : I f)
    (hback : ∀ g i n, nodes[i]? = some n → I g → I (g.giveBack i n.terminal)) :
    I (f.takeBack nodes) := by
  have hfold : ∀ (l : List (Node × Nat)) (g : Fleet), I g → (∀ p ∈ l, nodes[p.2]? = some p.1) →
      I (l.foldl (fun f p => f.giveBack p.2 p.1.terminal) g) := by
    intro l
    induction l with
    | nil => exact fun g hg _ => hg
    | cons p l ih =>
      intro g hg hl
      obtain ⟨hp, hl⟩ := List.forall_mem_cons.1 hl
      exact ih _ (hback g p.2 p.1 hp hg) hl
  exact hfold _ f hf fun p hp => List.mem_zipIdx_iff_getElem?.1 hp

namespace Invariant

theorem provision (h : Invariant MayCall now I) (hf : I f) (e : Environment)
    (hcalls : ∀ node, e.node = .ok node → ∀ (r : Recipe) target, MayCall ⟨node, r.vars e, target⟩) :
    I (f.provision now e).2 := by
  unfold Fleet.provision
  split
  · exact hf
  · rename_i node hnode
    refine keeps_andThen (h.build f _ (hcalls node hnode _ _) hf) fun _ g hg => ?_
    refine keeps_andThen (h.build g _ (hcalls node hnode _ _) hg) fun _ g hg => ?_
    exact keeps_andThen (h.openTerminal g _ (hcalls node hnode _ _) hg) fun i g hg =>
      h.register hg node i

/-- What the steps keep is kept however provisioning ends. -/
theorem provisionAll {c : Configuration} {es : List Environment} (h : Invariant MayCall now I)
    (hf : I f)
    (hcalls : ∀ e ∈ es, ∀ call : ToolCall, e.node = .ok call.node →
      call.vars.get? Environment.termlogVar = some (c.termlogPath call.node) → MayCall call) :
    I (Experiment.provisionAll c now es f).2 := by
  induction es generalizing f with
  | nil => exact hf
  | cons e es ih =>
    obtain ⟨he, hes⟩ := List.forall_mem_cons.1 hcalls
    unfold Experiment.provisionAll
    split
    · exact hf
    · rename_i node hnode
      refine keeps_andThen (h.provision hf _ fun node' hnode' r target => ?_) fun _ g hg =>
        ih hg hes
      rw [Environment.node_set_termlog, hnode] at hnode'
      obtain rfl := Except.ok.inj hnode'
      refine he _ hnode ?_
      rw [r.get?_termlog]
      exact e.vars.get?_set_self _ _

end Invariant

end Steps

end Fleet

/-! ## Result -/

/-- The calls that provision the device of an environment: its firmware is flashed, built anew
unless there is an image, the device is reset, and its terminal is opened. -/
def Recipe.calls (r : Recipe) (e : Environment) (node : String) : List ToolCall :=
  [⟨node, r.vars e, if r.image.isSome then "flash-only" else "flash"⟩,
    ⟨node, r.vars e, "reset"⟩, ⟨node, r.vars e, "term"⟩]

namespace Fleet

theorem andThen_done {α β : Type} {r : Attempt α × Fleet} {next : α → Fleet → Attempt β × Fleet}
    {b : β} {g : Fleet} (h : andThen r next = (.done b, g)) :
    ∃ a f, r = (.done a, f) ∧ next a f = (.done b, g) := by
  obtain ⟨a | _ | _, f⟩ := r
  · exact ⟨a, f, rfl, h⟩
  · cases h
  · cases h

/-- The names of the devices of all terminals, in the order in which these were opened. -/
def roster (f : Fleet) : List String := f.connections.map (·.node)

/-- The fleet was extended by terminals for these devices, with these calls of the tool. -/
structure Grows (f g : Fleet) (names : List String) (calls : List ToolCall) : Prop where
  roster : g.roster = f.roster ++ names
  calls : g.calls = f.calls ++ calls
  recipe : g.recipe = f.recipe

namespace Grows

variable {f g h : Fleet} {names names' : List String} {calls calls' : List ToolCall}

theorem refl (f : Fleet) : f.Grows f [] [] := ⟨by simp, by simp, rfl⟩

theorem trans (hfg : f.Grows g names calls) (hgh : g.Grows h names' calls') :
    f.Grows h (names ++ names') (calls ++ calls') :=
  ⟨by rw [hgh.roster, hfg.roster, List.append_assoc],
    by rw [hgh.calls, hfg.calls, List.append_assoc], hgh.recipe.trans hfg.recipe⟩

theorem build {call : ToolCall} {a : Attempt Unit} (h : f.build call = (a, g)) :
    f.Grows g [] [call] := by
  cases h
  exact ⟨(List.append_nil _).symm, rfl, rfl⟩

theorem openTerminal {now i : Nat} {call : ToolCall} (h : f.openTerminal now call = (.done i, g)) :
    f.Grows g [call.node] [call] := by
  unfold Fleet.openTerminal at h
  dsimp only at h
  split at h
  · cases h
    exact ⟨List.map_append, rfl, rfl⟩
  · cases h
  · cases h

/-- The terminal of a device is exchanged for another of the same device. -/
theorem of_set {i : Nat} {c : Connection} {t : Terminal} (hc : f.connections[i]? = some c)
    (hg : g.connections = f.connections.set i { c with terminal := t }) (hcalls : g.calls = f.calls)
    (hrecipe : g.recipe = f.recipe) : f.Grows g [] [] := by
  obtain ⟨hlt, rfl⟩ := List.getElem?_eq_some_iff.1 hc
  have hi : i < f.roster.length := by simpa [Fleet.roster] using hlt
  have hnode : f.roster[i] = f.connections[i].node := List.getElem_map _
  refine ⟨?_, by simpa using hcalls, hrecipe⟩
  rw [Fleet.roster, hg, List.map_set, ← hnode, List.append_nil]
  exact List.set_getElem_self hi

theorem close (f : Fleet) (i : Nat) : f.Grows (f.close i) [] [] := by
  unfold Fleet.close
  split
  · exact .refl f
  · rename_i c hc
    exact of_set hc rfl rfl rfl

theorem giveBack (f : Fleet) (i : Nat) (t : Terminal) : f.Grows (f.giveBack i t) [] [] := by
  unfold Fleet.giveBack
  split
  · exact .refl f
  · rename_i c hc
    exact of_set hc rfl rfl rfl

/-- A fleet does not grow by registering and closing terminals. -/
theorem enduring (f : Fleet) : Enduring fun g => f.Grows g [] [] where
  enlist _ _ h := ⟨h.roster, h.calls, h.recipe⟩
  close g i h := h.trans (close g i)

/-- Nor does it by taking back the terminals of nodes. -/
theorem takeBack (f : Fleet) (nodes : List Node) : f.Grows (f.takeBack nodes) [] [] :=
  keeps_takeBack (I := fun g => f.Grows g [] []) (refl f) fun g i n _ hg =>
    hg.trans (giveBack g i n.terminal)

/-- A device that was provisioned has one more terminal. -/
theorem provision {now : Nat} {e : Environment} {node : String}
    (h : f.provision now e = (.done node, g)) :
    e.node = .ok node ∧ f.Grows g [node] (f.recipe.calls e node) := by
  unfold Fleet.provision at h
  split at h
  · cases h
  · rename_i hnode
    obtain ⟨_, f₁, h₁, h⟩ := andThen_done h
    obtain ⟨_, f₂, h₂, h⟩ := andThen_done h
    obtain ⟨i, f₃, h₃, h⟩ := andThen_done h
    cases h
    exact ⟨hnode, (((build h₁).trans (build h₂)).trans (openTerminal h₃)).trans
      ((enduring f₃).register (refl f₃) node i)⟩

end Grows

end Fleet

namespace Experiment

/-- The calls that provision the device of an environment, with the terminal log in its place. -/
def callsFor (c : Configuration) (r : Recipe) (e : Environment) (node : String) : List ToolCall :=
  r.calls (e.set Environment.termlogVar (c.termlogPath node)) node

/-- When all devices are provisioned, each environment was classified and has one more terminal. -/
theorem provisionAll_done {c : Configuration} {now : Nat} {es : List Environment} {f g : Fleet}
    (h : provisionAll c now es f = (.done (), g)) :
    ∃ names, List.Forall₂ (fun e node => e.node = .ok node) es names ∧
      f.Grows g names (List.zipWith (callsFor c f.recipe) es names).flatten := by
  induction es generalizing f with
  | nil =>
    cases h
    exact ⟨[], .nil, .refl _⟩
  | cons e es ih =>
    unfold provisionAll at h
    split at h
    · cases h
    · rename_i node hnode
      obtain ⟨node', f₁, h₁, h⟩ := Fleet.andThen_done h
      obtain ⟨hnode', hfirst⟩ := Fleet.Grows.provision h₁
      rw [Environment.node_set_termlog, hnode] at hnode'
      obtain rfl := Except.ok.inj hnode'
      obtain ⟨names, hnames, hrest⟩ := ih h
      rw [hfirst.recipe] at hrest
      exact ⟨node :: names, .cons hnode hnames, hfirst.trans hrest⟩

end Experiment

end ProximityLab
