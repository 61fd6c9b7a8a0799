import ProximityLab.Proofs.Provisioning.Custody
import ProximityLab.Proofs.Provisioning.Invariant

/-!
# The registry of a fleet

Devices are provisioned and terminals are closed, in any order and with any success
(`Fleet.Action`).

- **Provisioning**: it registers the terminal that it has opened (`provision_done`), or it breaks
  off at a call of the tool and touches no terminal (`provision_setback`).
- **Registry**: each device that was provisioned since all were closed has its latest terminal there
  (`Fleet.Latest`), and nothing else is there. Provisioning keeps it so (`Tracked.provision`).
- **History**: so it is after any actions, and each terminal that is not registered was closed once
  (`registry_history`).
-/

namespace ProximityLab

/-- Why an attempt was not successful. -/
inductive Setback where
  | failed (cause : DeviceError)
  | panicked
  deriving DecidableEq

/-- Why an attempt was not successful, if it was not. -/
def Attempt.setback? {α : Type} : Attempt α → Option Setback
  | .done _ => none
  | .failed cause => some (.failed cause)
  | .panicked => some .panicked

/-- What an attempt has given, if it was successful. -/
def Attempt.done? {α : Type} : Attempt α → Option α
  | .done a => some a
  | _ => none

namespace Fleet

/-! ## Provisioning -/

/-- Uses the tool for one call: it opens a terminal, or it runs a target. -/
def use (now : Nat) (call : ToolCall) (f : Fleet) : Option Setback × Fleet :=
  if call.target = ToolCall.term then
    let (attempt, f) := f.openTerminal now call
    (attempt.setback?, f)
  else
    let (attempt, f) := f.build call
    (attempt.setback?, f)

/-- The tool is used for calls, one after the other, and breaks off at the last of them. -/
inductive BreaksOff (now : Nat) (s : Setback) : Fleet → List ToolCall → Fleet → Prop where
  | here {f g : Fleet} {call : ToolCall} (h : f.use now call = (some s, g)) :
      BreaksOff now s f [call] g
  | later {f g k : Fleet} {call : ToolCall} {calls : List ToolCall} (h : f.use now call = (none, g))
      (hrest : BreaksOff now s g calls k) : BreaksOff now s f (call :: calls) k

/-- The tool was used for these calls, and no terminal was touched. -/
structure Idle (f g : Fleet) (calls : List ToolCall) : Prop where
  calls : g.calls = f.calls ++ calls
  registry : g.registry = f.registry
  connections : g.connections = f.connections
  journal : g.journal = f.journal

namespace Idle

theorem trans {f g k : Fleet} {a b : List ToolCall} (h : f.Idle g a) (h' : g.Idle k b) :
    f.Idle k (a ++ b) :=
  ⟨by rw [h'.calls, h.calls, List.append_assoc], h'.registry.trans h.registry,
    h'.connections.trans h.connections, h'.journal.trans h.journal⟩

theorem build {f g : Fleet} {call : ToolCall} {attempt : Attempt Unit}
    (h : f.build call = (attempt, g)) :
    f.Idle g [call] := by
  cases h
  exact ⟨rfl, rfl, rfl, rfl⟩

theorem openTerminal {f g : Fleet} {now : Nat} {call : ToolCall} {attempt : Attempt Nat}
    {s : Setback} (h : f.openTerminal now call = (attempt, g)) (hs : attempt.setback? = some s) :
    f.Idle g [call] := by
  unfold Fleet.openTerminal at h
  dsimp only at h
  split at h
  · cases h
    cases hs
  · cases h
    exact ⟨rfl, rfl, rfl, rfl⟩
  · cases h
    exact ⟨rfl, rfl, rfl, rfl⟩

/-- The calls are those that have been added. -/
theorem calls_eq {f g : Fleet} {ran calls : List ToolCall} (h : f.Idle g ran)
    (hcalls : g.calls = f.calls ++ calls) : ran = calls :=
  List.append_cancel_left (h.calls.symm.trans hcalls)

end Idle

theorem use_build {f g : Fleet} {now : Nat} {call : ToolCall} {attempt : Attempt Unit}
    (hcall : call.target ≠ ToolCall.term) (h : f.build call = (attempt, g)) :
    f.use now call = (attempt.setback?, g) := by
  rw [use, if_neg hcall, h]

theorem use_openTerminal {f g : Fleet} {now : Nat} {call : ToolCall} {attempt : Attempt Nat}
    (hcall : call.target = ToolCall.term) (h : f.openTerminal now call = (attempt, g)) :
    f.use now call = (attempt.setback?, g) := by
  rw [use, if_pos hcall, h]

theorem flashTarget_ne_term (r : Recipe) : r.flashTarget ≠ ToolCall.term := by
  unfold Recipe.flashTarget
  split <;> decide

theorem reset_ne_term : ToolCall.reset ≠ ToolCall.term := by decide

/-- What does not succeed in two steps fails at the first or at the second. -/
theorem andThen_setback {α β : Type} {r : Attempt α × Fleet} {next : α → Fleet → Attempt β × Fleet}
    {b : Attempt β} {g : Fleet} {s : Setback} (h : andThen r next = (b, g))
    (hs : b.setback? = some s) :
    (∃ a, r = (a, g) ∧ a.setback? = some s) ∨ ∃ a f, r = (.done a, f) ∧ next a f = (b, g) := by
  obtain ⟨a | cause | _, f⟩ := r
  · exact .inr ⟨a, f, rfl, h⟩
  · cases h
    exact .inl ⟨_, rfl, hs⟩
  · cases h
    exact .inl ⟨_, rfl, hs⟩

/-- Provisioning that does not succeed has used the tool up to the call at which it broke off, and
touched no terminal. -/
theorem provision_setback {f g : Fleet} {now : Nat} {e : Environment} {attempt : Attempt String}
    {s : Setback} (h : f.provision now e = (attempt, g)) (hs : attempt.setback? = some s) :
    (∃ cause, e.node = .error cause ∧ s = .failed cause ∧ g = f) ∨
      ∃ node ran rest, e.node = .ok node ∧ f.recipe.calls e node = ran ++ rest ∧
        BreaksOff now s f ran g ∧ f.Idle g ran := by
  unfold Fleet.provision at h
  split at h
  · rename_i cause hnode
    cases h
    cases hs
    exact .inl ⟨cause, hnode, rfl, rfl⟩
  · rename_i node hnode
    have hflash := flashTarget_ne_term f.recipe
    refine .inr ⟨node, ?_⟩
    -- it breaks off at the first, the second or the third call, and the calls before that were
    -- successful
    obtain ⟨a, h₁, ha⟩ | ⟨_, f₁, h₁, h⟩ := andThen_setback h hs
    · have huse : f.use now _ = _ := use_build hflash h₁
      rw [ha] at huse
      exact ⟨[_], _, hnode, rfl, .here huse, .build h₁⟩
    obtain ⟨a, h₂, ha⟩ | ⟨_, f₂, h₂, h⟩ := andThen_setback h hs
    · have huse : f₁.use now _ = _ := use_build reset_ne_term h₂
      rw [ha] at huse
      exact ⟨[_, _], _, hnode, rfl, .later (use_build hflash h₁) (.here huse),
        (Idle.build h₁).trans (.build h₂)⟩
    obtain ⟨a, h₃, ha⟩ | ⟨i, f₃, h₃, h⟩ := andThen_setback h hs
    · have huse := use_openTerminal rfl h₃
      rw [ha] at huse
      exact ⟨[_, _, _], [], hnode, rfl,
        .later (use_build hflash h₁) (.later (use_build reset_ne_term h₂) (.here huse)),
        ((Idle.build h₁).trans (.build h₂)).trans (.openTerminal h₃ ha)⟩
    · cases h
      cases hs

theorem registry_close (f : Fleet) (i : Nat) : (f.close i).registry = f.registry := by
  unfold close
  split <;> rfl

theorem registry_register (f : Fleet) (node : String) (i : Nat) :
    (f.register node i).registry = f.registry.filter (·.1 ≠ node) ++ [(node, i)] := by
  unfold register
  dsimp only
  split
  · exact registry_close _ _
  · rfl

theorem openTerminal_done {f g : Fleet} {now i : Nat} {call : ToolCall}
    (h : f.openTerminal now call = (.done i, g)) :
    i = f.connections.length ∧ g.registry = f.registry := by
  unfold openTerminal at h
  dsimp only at h
  split at h
  · cases h
    exact ⟨rfl, rfl⟩
  · cases h
  · cases h

/-- A device that was provisioned has its new terminal in the registry, in place of any other. -/
theorem provision_done {f g : Fleet} {now : Nat} {e : Environment} {node : String}
    (h : f.provision now e = (.done node, g)) :
    g.registry = f.registry.filter (·.1 ≠ node) ++ [(node, f.roster.length)] ∧
      g.roster = f.roster ++ [node] := by
  refine ⟨?_, (Grows.provision h).2.roster⟩
  unfold Fleet.provision at h
  split at h
  · cases h
  · obtain ⟨_, f₁, h₁, h⟩ := andThen_done h
    obtain ⟨_, f₂, h₂, h⟩ := andThen_done h
    obtain ⟨i, f₃, h₃, h⟩ := andThen_done h
    cases h
    have hidle := (Idle.build h₁).trans (.build h₂)
    obtain ⟨rfl, hregistry⟩ := openTerminal_done h₃
    rw [registry_register, hregistry, hidle.registry, hidle.connections, roster, List.length_map]

/-- Provisioning is successful and adds a terminal, or it leaves the terminals and the registry
alone. -/
theorem provision_cases (f : Fleet) (now : Nat) (e : Environment) :
    (∃ node, (f.provision now e).1.done? = some node ∧
      (f.provision now e).2.roster = f.roster ++ [node] ∧
      (f.provision now e).2.registry =
      f.registry.filter (·.1 ≠ node) ++ [(node, f.roster.length)]) ∨
    (f.provision now e).1.done? = none ∧ (f.provision now e).2.roster = f.roster ∧
      (f.provision now e).2.registry = f.registry := by
  rcases hp : f.provision now e with ⟨attempt, g⟩
  have hidle : ∀ s, attempt.setback? = some s → g.roster = f.roster ∧ g.registry = f.registry := by
    intro s hs
    obtain ⟨_, -, -, rfl⟩ | ⟨_, _, _, -, -, -, hg⟩ := provision_setback hp hs
    · exact ⟨rfl, rfl⟩
    · exact ⟨by rw [roster, hg.connections, roster], hg.registry⟩
  cases attempt with
  | done node =>
    obtain ⟨hregistry, hroster⟩ := provision_done hp
    exact .inl ⟨node, rfl, hroster, hregistry⟩
  | failed cause => exact .inr ⟨rfl, hidle _ rfl⟩
  | panicked => exact .inr ⟨rfl, hidle _ rfl⟩

/-! ## Registry -/

/-- The last of the terminals that were opened for a device, and not one of the first `mark`
terminals. -/
structure Latest (roster : List String) (mark : Nat) (node : String) (i : Nat) : Prop where
  recent : mark ≤ i
  device : roster[i]? = some node
  last : ∀ j, i < j → roster[j]? ≠ some node

namespace Latest

variable {roster : List String} {mark i : Nat} {node name : String}

theorem lt (h : Latest roster mark node i) : i < roster.length :=
  (List.getElem?_eq_some_iff.1 h.device).1

/-- There is none if all terminals are among the first ones. -/
theorem not_all : ¬ Latest roster roster.length node i := fun h => Nat.not_lt.2 h.recent h.lt

/-- One more terminal is the latest for its device, and changes nothing for the others. -/
theorem append_iff (hmark : mark ≤ roster.length) :
    Latest (roster ++ [name]) mark node i ↔
      node ≠ name ∧ Latest roster mark node i ∨ node = name ∧ i = roster.length := by
  constructor
  · intro h
    have hlt := h.lt
    rw [List.length_append, List.length_singleton] at hlt
    obtain hlt | rfl := Nat.lt_succ_iff_lt_or_eq.1 hlt
    · refine .inl ⟨fun heq => h.last roster.length hlt (by simp [heq]), h.recent, ?_,
        fun j hj hdevice => ?_⟩
      · rw [← h.device, List.getElem?_append_left hlt]
      · have hshort := (List.getElem?_eq_some_iff.1 hdevice).1
        exact h.last j hj ((List.getElem?_append_left hshort).trans hdevice)
    · exact .inr ⟨by simpa using h.device.symm, rfl⟩
  · rintro (⟨hne, h⟩ | ⟨rfl, rfl⟩)
    · refine ⟨h.recent, (List.getElem?_append_left h.lt).trans h.device, fun j hj hdevice => ?_⟩
      obtain hlt | heq | hgt := Nat.lt_trichotomy j roster.length
      · exact h.last j hj ((List.getElem?_append_left hlt).symm.trans hdevice)
      · exact hne (by simpa [heq] using hdevice.symm)
      · rw [List.getElem?_eq_none (by rw [List.length_append]; exact hgt)] at hdevice
        cases hdevice
    · refine ⟨hmark, by simp, fun j hj hdevice => ?_⟩
      rw [List.getElem?_eq_none (by rw [List.length_append]; exact hj)] at hdevice
      cases hdevice

end Latest

/-- The registry has the latest terminal of each device, of those that came after the first `mark`
ones. -/
structure Tracked (mark : Nat) (f : Fleet) : Prop where
  bound : mark ≤ f.roster.length
  registered : ∀ node i, (node, i) ∈ f.registry ↔ Latest f.roster mark node i

namespace Tracked

variable {mark : Nat} {f : Fleet}

theorem of_registry_eq_nil (h : f.registry = []) : f.Tracked f.roster.length :=
  ⟨Nat.le_refl _, fun node i => by simp [h, Latest.not_all]⟩

theorem provision (h : f.Tracked mark) (now : Nat) (e : Environment) :
    (f.provision now e).2.Tracked mark := by
  obtain ⟨node, -, hroster, hregistry⟩ | ⟨-, hroster, hregistry⟩ := f.provision_cases now e
  · refine ⟨?_, fun key i => ?_⟩
    · rw [hroster, List.length_append]
      exact Nat.le_add_right_of_le h.bound
    · rw [hregistry, hroster, Latest.append_iff h.bound, ← h.registered]
      simp [and_comm]
  · refine ⟨?_, fun key i => ?_⟩
    · rw [hroster]
      exact h.bound
    · rw [hregistry, hroster]
      exact h.registered key i

end Tracked

/-! ## History -/

/-- Something that is done with a fleet. -/
inductive Action where
  | provision (now : Nat) (e : Environment)
  | closeAll

/-- The fleet after an action. -/
def Action.perform (f : Fleet) : Action → Fleet
  | .provision now e => (f.provision now e).2
  | .closeAll => f.closeAll.2

/-- The fleet after some actions. -/
def after (f : Fleet) (actions : List Action) : Fleet := actions.foldl Action.perform f

/-- The device that an action has provisioned. -/
def Action.provisioned? (f : Fleet) : Action → Option String
  | .provision now e => (f.provision now e).1.done?
  | .closeAll => none

/-- The devices that the actions have provisioned, one after the other. -/
def provisioned (f : Fleet) : List Action → List String
  | [] => []
  | a :: actions => (a.provisioned? f).toList ++ provisioned (a.perform f) actions

theorem after_append (f : Fleet) (before actions : List Action) :
    f.after (before ++ actions) = (f.after before).after actions := List.foldl_append

/-- What each action keeps is kept by all. -/
theorem keeps_after {I : Fleet → Prop} {f : Fleet} {actions : List Action} (hf : I f)
    (hstep : ∀ a ∈ actions, ∀ f, I f → I (a.perform f)) : I (f.after actions) := by
  induction actions generalizing f with
  | nil => exact hf
  | cons a actions ih =>
    obtain ⟨ha, hrest⟩ := List.forall_mem_cons.1 hstep
    exact ih (ha f hf) hrest

/-- The registry goes on to have the latest terminals until all are closed. -/
theorem Tracked.after {mark : Nat} {f : Fleet} {actions : List Action} (h : f.Tracked mark)
    (hopen : .closeAll ∉ actions) : (f.after actions).Tracked mark := by
  refine keeps_after h fun a ha f hf => ?_
  cases a with
  | provision now e => exact hf.provision now e
  | closeAll => exact absurd ha hopen

theorem Custody.after {f : Fleet} (h : Custody [] f) (actions : List Action) :
    Custody [] (f.after actions) := by
  refine keeps_after h fun a _ f hf => ?_
  cases a with
  | provision now e => exact hf.provision now e
  | closeAll => exact hf.closeAll.2

/-- The tool and the build settings stay as they are. -/
theorem setup_invariant (tool : FirmwareTool) (r : Recipe) (now : Nat) :
    Invariant (fun _ => True) now fun f => f.tool = tool ∧ f.recipe = r where
  build _ _ _ h := h
  openTerminal f call _ h := by
    unfold openTerminal
    dsimp only
    split <;> exact h
  enlist _ _ h := h
  close f i h := by
    unfold close
    split <;> exact h

theorem setup_perform (f : Fleet) (a : Action) :
    (a.perform f).tool = f.tool ∧ (a.perform f).recipe = f.recipe := by
  have hinvariant := setup_invariant f.tool f.recipe
  cases a with
  | provision now e => exact (hinvariant now).provision ⟨rfl, rfl⟩ e fun _ _ _ _ => trivial
  | closeAll => exact (hinvariant 0).closeAll ⟨rfl, rfl⟩

theorem recipe_after (f : Fleet) (actions : List Action) : (f.after actions).recipe = f.recipe :=
  keeps_after (I := fun g => g.recipe = f.recipe) rfl fun a _ g hg => (setup_perform g a).2.trans hg

/-- Terminals are opened for the devices that are provisioned. -/
theorem roster_perform (f : Fleet) (a : Action) :
    (a.perform f).roster = f.roster ++ (a.provisioned? f).toList := by
  cases a with
  | closeAll => simpa [Action.perform, Action.provisioned?]
      using ((Grows.enduring f).closeAll (.refl f)).roster
  | provision now e =>
    simp only [Action.perform, Action.provisioned?]
    obtain ⟨node, hdone, hroster, -⟩ | ⟨hdone, hroster, -⟩ := f.provision_cases now e
    · rw [hroster, hdone, Option.toList_some]
    · rw [hroster, hdone, Option.toList_none, List.append_nil]

theorem roster_after (f : Fleet) (actions : List Action) :
    (f.after actions).roster = f.roster ++ f.provisioned actions := by
  induction actions generalizing f with
  | nil => exact (List.append_nil _).symm
  | cons a actions ih =>
    have hrest := ih (a.perform f)
    rw [roster_perform, List.append_assoc] at hrest
    exact hrest

/-- A terminal was closed once, unless it is registered. -/
theorem Custody.closesOf_eq {f : Fleet} (h : Custody [] f) {i : Nat}
    (hi : i < f.connections.length) :
    f.closesOf i = if i ∈ f.registry.map (·.2) then 0 else 1 := by
  have hplace := h.place i
  rw [opens, if_pos hi, List.count_nil, Nat.add_zero] at hplace
  split
  · rename_i hmem
    have hcount := List.count_pos_iff.2 hmem
    omega
  · rename_i hmem
    rw [List.count_eq_zero.2 hmem] at hplace
    exact hplace

/-- Whatever was done with a fleet, the registry has the latest terminal of each device that was
provisioned since all terminals were closed, and nothing else; all other terminals were closed once.
If another device cannot be provisioned, the tool was called up to the step that failed and no
terminal was touched. Closing all gives the count of what was registered and leaves nothing
there. -/
theorem registry_history (tool : FirmwareTool) (recipe : Recipe) (files : FileSystem)
    (actions : List Action) :
    let f := after (.new tool recipe files) actions
    f.roster = provisioned (.new tool recipe files) actions ∧
    (f.registry.map (·.1)).Nodup ∧
    (∀ before recent, actions = before ++ recent → .closeAll ∉ recent →
      (before = [] ∨ ∃ earlier, before = earlier ++ [.closeAll]) →
      ∀ node i, (node, i) ∈ f.registry ↔
        Latest f.roster (provisioned (.new tool recipe files) before).length node i) ∧
    (∀ i < f.roster.length, f.closesOf i = if i ∈ f.registry.map (·.2) then 0 else 1) ∧
    (∀ now e attempt s g, f.provision now e = (attempt, g) → attempt.setback? = some s →
      (∃ cause, e.node = .error cause ∧ s = .failed cause ∧ g = f) ∨
        ∃ node ran rest, e.node = .ok node ∧ recipe.calls e node = ran ++ rest ∧
          BreaksOff now s f ran g ∧ f.Idle g ran) ∧
    f.closeAll.1 = f.registry.length ∧ f.closeAll.2.registry = [] := by
  intro f
  have hcustody : ∀ actions, Custody [] (after (.new tool recipe files) actions) :=
    (Custody.new tool recipe files).after
  have hroster : ∀ actions, (after (.new tool recipe files) actions).roster =
      provisioned (.new tool recipe files) actions := roster_after _
  refine ⟨hroster actions, (hcustody actions).keys, ?_, fun i hi => ?_,
    fun now e attempt s g hp hs => ?_, rfl, (hcustody actions).closeAll.1⟩
  · intro before recent hactions hopen hbefore
    have hnone : (after (.new tool recipe files) before).registry = [] := by
      obtain rfl | ⟨earlier, rfl⟩ := hbefore
      · rfl
      · rw [after_append]
        exact (hcustody earlier).closeAll.1
    have htracked := (Tracked.of_registry_eq_nil hnone).after hopen
    rw [← after_append, ← hactions, hroster before] at htracked
    exact htracked.registered
  · exact (hcustody actions).closesOf_eq (by rwa [roster, List.length_map] at hi)
  · have hrecipe : f.recipe = recipe := recipe_after _ actions
    have hsetback := provision_setback hp hs
    rwa [hrecipe] at hsetback

/-- The terminal of a device is replaced, all are closed, and the device is provisioned again; the
reset of another device fails. If there is an image, that is flashed before. -/
theorem registry_history_stuck :
    let board (index : String) : Environment := .set .empty Environment.indexVar index
    let stuck : DeviceError := .make "2" ToolCall.reset "exit status: 2" "no probe"
    let tool : FirmwareTool :=
      { build := fun _ fs call =>
          (if call.node = "2" ∧ call.target = "reset" then .failed stuck else .done (), fs)
        openTerminal := fun _ fs _ => (.done (.uniform (.accepted []) (some "stuck")), fs) }
    let start (image : Option String) : Fleet := .new tool ⟨none, none, image⟩ .empty
    let before : List Action := [.provision 0 (board "1"), .provision 1 (board "1"), .closeAll]
    let f := (start none).after (before ++ [.provision 2 (board "2"), .provision 3 (board "1")])
    let f' := start (some "pepper.elf")
    let vars : Variables := .set .empty "BOARD_INDEX" "2"
    let vars' : Variables := vars.set "FLASHFILE" "pepper.elf"
    let ran : List ToolCall := [⟨"2", vars, "flash"⟩, ⟨"2", vars, "reset"⟩]
    let ran' : List ToolCall := [⟨"2", vars', "flash-only"⟩, ⟨"2", vars', "reset"⟩]
    (Latest f.roster 2 "1" 2 ∧ f.closesOf 0 = 1 ∧ f.closesOf 1 = 1 ∧ f.closesOf 2 = 0) ∧
      (BreaksOff 4 (.failed stuck) f ran (f.provision 4 (board "2")).2 ∧
        f.Idle (f.provision 4 (board "2")).2 ran) ∧
      BreaksOff 0 (.failed stuck) f' ran' (f'.provision 0 (board "2")).2 ∧
        f'.Idle (f'.provision 0 (board "2")).2 ran' := by
  intro board stuck tool start before f f' vars vars' ran ran'
  obtain ⟨-, -, hlatest, hcloses, hfailed, -⟩ := registry_history tool ⟨none, none, none⟩ .empty
    (before ++ [.provision 2 (board "2"), .provision 3 (board "1")])
  obtain ⟨-, -, -, -, hfailed', -⟩ :=
    registry_history tool ⟨none, none, some "pepper.elf"⟩ .empty []
  have hregistry : f.registry = [("1", 2)] := by decide +kernel
  have hroster : f.roster.length = 3 := by decide +kernel
  have hmark : ((start none).provisioned before).length = 2 := by decide +kernel
  have hnode : ∀ cause, (board "2").node ≠ .error cause := by
    intro cause h
    rw [show (board "2").node = .ok "2" by decide +kernel] at h
    cases h
  have hfault : (f.provision 4 (board "2")).1.setback? = some (.failed stuck) := by decide +kernel
  have hfault' : (f'.provision 0 (board "2")).1.setback? = some (.failed stuck) := by decide +kernel
  have hclosed : ∀ i < 3, f.closesOf i = if i ∈ [2] then 0 else 1 := by
    intro i hi
    rw [hcloses i (by rwa [hroster]), hregistry]
    rfl
  refine ⟨⟨?_, hclosed 0 (by decide), hclosed 1 (by decide), hclosed 2 (by decide)⟩, ?_, ?_⟩
  · rw [← hmark, ← hlatest before _ rfl (by simp) (.inr ⟨[_, _], rfl⟩), hregistry]
    exact List.mem_cons_self
  · obtain ⟨cause, h, -⟩ | ⟨_, _, _, -, -, hbreaks, hidle⟩ :=
      hfailed 4 (board "2") _ _ _ (Prod.eta (f.provision 4 (board "2"))).symm hfault
    · exact absurd h (hnode cause)
    · obtain rfl := hidle.calls_eq (show _ = f.calls ++ ran by decide +kernel)
      exact ⟨hbreaks, hidle⟩
  · obtain ⟨cause, h, -⟩ | ⟨_, _, _, -, -, hbreaks, hidle⟩ :=
      hfailed' 0 (board "2") _ _ _ (Prod.eta (f'.provision 0 (board "2"))).symm hfault'
    · exact absurd h (hnode cause)
    · obtain rfl := hidle.calls_eq (show _ = f'.calls ++ ran' by decide +kernel)
      exact ⟨hbreaks, hidle⟩

end Fleet

end ProximityLab
