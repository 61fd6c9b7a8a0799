import ProximityLab.Proofs.Provisioning.Registry
import ProximityLab.Proofs.Text.Lines
import Mathlib.Data.List.Dedup
import Mathlib.Tactic.TFAE

/-!
# Names of devices

The name of a device follows from how it is addressed. It is the key of its terminal and of its
terminal log.

- **Names** (`Addressing.node_eq_iff`): when two devices that are addressed in different ways have
  one name (`Addressing.Confusable`).
- **Terminal logs** (`Configuration.termlogPath_eq_iff`): when two devices have one terminal log.
- **Terminals** (`terminals_by_name`): with a tool that never fails, devices that are provisioned
  one after the other leave one open terminal for each name. So all terminals are open exactly if no
  two devices have one name.
-/

namespace ProximityLab

open Text

/-! ## Names -/

/-- What a device is addressed by. -/
inductive Scheme where
  | network
  | boardIndex
  | debugAdapter
  deriving DecidableEq

namespace Addressing

/-- What the device is addressed by. -/
def scheme : Addressing → Scheme
  | .network _ => .network
  | .boardIndex .. => .boardIndex
  | .debugAdapter .. => .debugAdapter

/-- The board that goes into the name. -/
def board? : Addressing → Option String
  | .network _ => none
  | .boardIndex board _ => board
  | .debugAdapter board _ => board

/-- The address, the index or the serial number. -/
def id : Addressing → String
  | .network address => address
  | .boardIndex _ index => index
  | .debugAdapter _ id => id

theorem node_eq (a : Addressing) : a.node = qualified a.board? a.id := by cases a <;> rfl

theorem eq_of_parts :
    ∀ {a b : Addressing}, a.scheme = b.scheme → a.board? = b.board? → a.id = b.id → a = b
  | .network _, .network _, _, _, hid => congrArg network hid
  | .boardIndex .., .boardIndex .., _, hboard, hid => congrArg₂ boardIndex hboard hid
  | .debugAdapter .., .debugAdapter .., _, hboard, hid => congrArg₂ debugAdapter hboard hid

end Addressing

/-- An underscore in an identifier is read as the end of a longer board. -/
inductive Shifts : Option String → String → Option String → String → Prop where
  | unnamed (board id : String) : Shifts none (board ++ "_" ++ id) (some board) id
  | longer (board more id : String) :
      Shifts (some board) (more ++ "_" ++ id) (some (board ++ "_" ++ more)) id

namespace Shifts

variable {board board' : Option String} {id id' : String}

theorem qualified_eq (h : Shifts board id board' id') :
    qualified board id = qualified board' id' := by
  cases h with
  | unnamed => rfl
  | longer board more id => simp only [qualified, String.append_assoc]

theorem underscore_mem (h : Shifts board id board' id') : '_' ∈ id.toList := by
  cases h <;> simp

end Shifts

theorem toList_append_underscore (board id : String) :
    (board ++ "_" ++ id).toList = board.toList ++ '_' :: id.toList := by
  rw [String.toList_append, String.toList_append, List.append_assoc]
  rfl

/-- What a text with an underscore reads like for its parts. -/
theorem eq_append_underscore {s board id : String}
    (h : s.toList = board.toList ++ '_' :: id.toList) :
    s = board ++ "_" ++ id := by
  rw [← String.toList_inj, toList_append_underscore, h]

/-- Two names are the same if their parts are, or if an underscore shifts from one part to the
other. -/
theorem qualified_eq_iff {board board' : Option String} {id id' : String} :
    qualified board id = qualified board' id' ↔
      (board = board' ∧ id = id') ∨ Shifts board id board' id' ∨ Shifts board' id' board id := by
  constructor
  · intro h
    cases board with
    | none =>
      cases board' with
      | none => exact .inl ⟨rfl, h⟩
      | some y =>
        obtain rfl : id = y ++ "_" ++ id' := h
        exact .inr (.inl (.unnamed y id'))
    | some x =>
      cases board' with
      | none =>
        obtain rfl : x ++ "_" ++ id = id' := h
        exact .inr (.inr (.unnamed x id))
      | some y =>
        have hchars : x.toList ++ '_' :: id.toList = y.toList ++ '_' :: id'.toList := by
          rw [← toList_append_underscore, ← toList_append_underscore]
          exact congrArg String.toList h
        rcases append_sep_eq_iff.1 hchars
          with ⟨hboard, hid⟩ | ⟨more, hboard, hid⟩ | ⟨more, hboard, hid⟩
        · exact .inl ⟨congrArg some (String.toList_inj.1 hboard), String.toList_inj.1 hid⟩
        · rw [← String.toList_ofList (l := more)] at hboard hid
          rw [eq_append_underscore hboard, eq_append_underscore hid]
          exact .inr (.inl (.longer x _ id'))
        · rw [← String.toList_ofList (l := more)] at hboard hid
          rw [eq_append_underscore hboard, eq_append_underscore hid]
          exact .inr (.inr (.longer y _ id))
  · rintro (⟨rfl, rfl⟩ | h | h)
    · rfl
    · exact h.qualified_eq
    · exact h.qualified_eq.symm

namespace Addressing

/-- Devices that have one name and are addressed in different ways: in two schemes by the same board
and identifier, or with an underscore that belongs to the identifier of the one and ends the board
of the other. -/
def Confusable (a b : Addressing) : Prop :=
  (a.scheme ≠ b.scheme ∧ a.board? = b.board? ∧ a.id = b.id) ∨ Shifts a.board? a.id b.board? b.id ∨
    Shifts b.board? b.id a.board? a.id

theorem node_eq_iff {a b : Addressing} (h : a ≠ b) : a.node = b.node ↔ a.Confusable b := by
  rw [node_eq, node_eq, qualified_eq_iff, Confusable]
  refine or_congr_left ⟨fun ⟨hboard, hid⟩ => ⟨fun hscheme => ?_, hboard, hid⟩, And.right⟩
  exact h (eq_of_parts hscheme hboard hid)

/-- In one scheme, identifiers without underscores are not confused. -/
theorem not_confusable {a b : Addressing} (hscheme : a.scheme = b.scheme) (ha : '_' ∉ a.id.toList)
    (hb : '_' ∉ b.id.toList) : ¬ a.Confusable b := by
  rintro (⟨hne, -⟩ | h | h)
  · exact hne hscheme
  · exact ha h.underscore_mem
  · exact hb h.underscore_mem

/-- Different devices have different names exactly if none are confused. -/
theorem nodup_names_iff {addresses : List Addressing} (h : addresses.Nodup) :
    (addresses.map node).Nodup ↔ addresses.Pairwise fun a b => ¬ a.Confusable b := by
  rw [List.Nodup, List.pairwise_map]
  refine ⟨fun hnames => ?_, fun hapart => ?_⟩
  · exact h.imp₂ (fun _ _ hne => mt (node_eq_iff hne).2) hnames
  · exact h.imp₂ (fun _ _ hne => mt (node_eq_iff hne).1) hapart

end Addressing

/-! ## Terminal logs -/

namespace Path

/-- Relative paths are put behind a directory alike. -/
theorem exists_join (dir : String) :
    ∃ front, ∀ path, isAbsolute path = false → join dir path = front ++ path := by
  by_cases h : (dir.isEmpty || dir.toList.getLast? == some '/') = true
  · refine ⟨dir, fun path hpath => ?_⟩
    rw [join, if_neg (by simp [hpath]), if_pos h]
  · refine ⟨dir ++ "/", fun path hpath => ?_⟩
    rw [join, if_neg (by simp [hpath]), if_neg h]

theorem join_of_absolute {path : String} (h : isAbsolute path = true) (dir : String) :
    join dir path = path := by
  rw [join, if_pos h]

/-- Paths behind a directory are the same if an absolute one is what the other one is behind the
directory. -/
theorem join_eq_iff {dir p q : String} : join dir p = join dir q ↔
    p = q ∨ (isAbsolute p = true ∧ isAbsolute q = false ∧ p = join dir q) ∨
      (isAbsolute q = true ∧ isAbsolute p = false ∧ q = join dir p) := by
  constructor
  · intro h
    obtain ⟨front, hfront⟩ := exists_join dir
    cases hp : isAbsolute p <;> cases hq : isAbsolute q
    · rw [hfront p hp, hfront q hq, String.append_right_inj] at h
      exact .inl h
    · rw [join_of_absolute hq] at h
      exact .inr (.inr ⟨rfl, rfl, h.symm⟩)
    · rw [join_of_absolute hp] at h
      exact .inr (.inl ⟨rfl, rfl, h⟩)
    · rw [join_of_absolute hp, join_of_absolute hq] at h
      exact .inl h
  · rintro (rfl | ⟨hp, -, h⟩ | ⟨hq, -, h⟩)
    · rfl
    · rw [join_of_absolute hp, h]
    · rw [join_of_absolute hq, h]

theorem isAbsolute_append {extension : String} (h : isAbsolute extension = false) (path : String) :
    isAbsolute (path ++ extension) = isAbsolute path := by
  unfold isAbsolute at h ⊢
  rw [String.toList_append, List.head?_append]
  cases hpath : path.toList.head? with
  | none => exact h
  | some c => rfl

theorem join_append {extension : String} (h : isAbsolute extension = false) (dir path : String) :
    join dir (path ++ extension) = join dir path ++ extension := by
  cases hpath : isAbsolute path with
  | true => rw [join_of_absolute hpath, join_of_absolute (by rw [isAbsolute_append h, hpath])]
  | false =>
    obtain ⟨front, hfront⟩ := exists_join dir
    rw [hfront path hpath, hfront _ (by rw [isAbsolute_append h, hpath]), String.append_assoc]

end Path

/-- A name that is an absolute path takes the place of another one that is put behind the directory
of the logs. -/
def Configuration.Replaces (c : Configuration) (name name' : String) : Prop :=
  Path.isAbsolute name = true ∧ Path.isAbsolute name' = false ∧ name = Path.join c.logDir name'

theorem Configuration.termlogPath_eq_iff (c : Configuration) {name name' : String} :
    c.termlogPath name = c.termlogPath name' ↔
      name = name' ∨ c.Replaces name name' ∨ c.Replaces name' name := by
  have hext : Path.isAbsolute ".log" = false := by decide
  rw [termlogPath, termlogPath, Path.join_append hext, Path.join_append hext,
    String.append_left_inj]
  exact Path.join_eq_iff

/-- Devices with different names have logs of their own unless one of the names replaces another. -/
theorem Configuration.nodup_termlogPaths_iff (c : Configuration) (names : List String) :
    (names.map c.termlogPath).Nodup ↔
      names.Pairwise fun a b => a ≠ b ∧ ¬ c.Replaces a b ∧ ¬ c.Replaces b a := by
  simp only [List.Nodup, List.pairwise_map, ne_eq, c.termlogPath_eq_iff, not_or]

/-! ## Terminals -/

/-- The tool succeeds whatever it is used for. -/
structure FirmwareTool.Infallible (tool : FirmwareTool) : Prop where
  build : ∀ calls files call, (tool.build calls files call).1 = .done ()
  openTerminal : ∀ calls files call, ∃ behaviour,
    (tool.openTerminal calls files call).1 = .done behaviour

namespace Fleet

variable {f : Fleet}

/-- Each use of a tool that never fails goes well. -/
theorem use_of_infallible (h : f.tool.Infallible) (now : Nat) (call : ToolCall) :
    ∃ g, f.use now call = (none, g) ∧ g.tool = f.tool := by
  unfold use
  split
  · obtain ⟨behaviour, hdone⟩ := h.openTerminal f.calls f.files call
    unfold openTerminal
    dsimp only
    rw [hdone]
    exact ⟨_, rfl, rfl⟩
  · have hdone := h.build f.calls f.files call
    unfold build
    dsimp only
    rw [hdone]
    exact ⟨_, rfl, rfl⟩

theorem not_breaksOff (h : f.tool.Infallible) {now : Nat} {s : Setback} {calls : List ToolCall}
    {g : Fleet} :
    ¬ BreaksOff now s f calls g := by
  intro hbreaks
  induction hbreaks with
  | @here f _ call huse =>
    obtain ⟨_, hgood, -⟩ := use_of_infallible h now call
    cases huse.symm.trans hgood
  | @later f _ _ call _ huse _ ih =>
    obtain ⟨_, hgood, htool⟩ := use_of_infallible h now call
    cases huse.symm.trans hgood
    exact ih (htool ▸ h)

/-- So the device of an environment is provisioned if it has a name. -/
theorem provision_of_infallible (h : f.tool.Infallible) (now : Nat) {e : Environment}
    {node : String} (he : e.node? = some node) : (f.provision now e).1.done? = some node := by
  have hnode : e.node = .ok node := Environment.node_eq_ok_iff.2 he
  rcases hp : f.provision now e with ⟨attempt, g⟩
  have hgood : ∀ s, attempt.setback? ≠ some s := by
    intro s hs
    obtain ⟨_, hnone, -⟩ | ⟨_, _, _, -, -, hbreaks, -⟩ := provision_setback hp hs
    · cases hnode.symm.trans hnone
    · exact not_breaksOff h hbreaks
  cases attempt with
  | done node' =>
    obtain rfl := Except.ok.inj (hnode.symm.trans (Grows.provision hp).1)
    rfl
  | failed cause => exact absurd rfl (hgood (.failed cause))
  | panicked => exact absurd rfl (hgood .panicked)

/-- The devices of environments are provisioned one after the other, each at its time. -/
def visits (plan : List (Nat × Environment)) : List Action := plan.map fun p => .provision p.1 p.2

theorem provisioned_visits (h : f.tool.Infallible) {plan : List (Nat × Environment)}
    {names : List String} (hnames : plan.map (·.2.node?) = names.map some) :
    f.provisioned (visits plan) = names := by
  induction plan generalizing f names with
  | nil => exact (List.map_eq_nil_iff.1 hnames.symm).symm
  | cons p plan ih =>
    obtain ⟨node, names, rfl, hnode, hnames⟩ := List.map_eq_cons_iff.1 hnames.symm
    have hdone := provision_of_infallible h p.1 hnode.symm
    have htool := (setup_perform f (.provision p.1 p.2)).1
    calc f.provisioned (visits (p :: plan))
        = (f.provision p.1 p.2).1.done?.toList ++
        provisioned (f.provision p.1 p.2).2 (visits plan) := rfl
      _ = node :: names := by rw [hdone, ih (htool ▸ h) hnames.symm]; rfl

/-- A device has a latest terminal if it has any. -/
theorem exists_latest_iff {roster : List String} {node : String} :
    (∃ i, Latest roster 0 node i) ↔ node ∈ roster := by
  induction roster using List.reverseRecOn with
  | nil => exact iff_of_false (fun ⟨_, hi⟩ => absurd hi.lt (Nat.not_lt_zero _)) List.not_mem_nil
  | append_singleton roster name ih =>
    simp only [Latest.append_iff (Nat.zero_le _), exists_or, exists_and_left, ih, exists_eq,
      and_true, List.mem_append, List.mem_singleton]
    refine ⟨Or.imp_left And.right, fun h => ?_⟩
    exact or_iff_not_imp_right.2 fun hne => ⟨hne, h.resolve_right hne⟩

namespace Tracked

/-- The registry has one terminal for each name. -/
theorem openCount_eq (h : f.Tracked 0) (hkeys : (f.registry.map (·.1)).Nodup) :
    f.openCount = f.roster.dedup.length := by
  have hmem : ∀ node, node ∈ f.registry.map (·.1) ↔ node ∈ f.roster.dedup := by
    intro node
    rw [List.mem_map, List.mem_dedup, ← exists_latest_iff]
    constructor
    · rintro ⟨⟨_, i⟩, hi, rfl⟩
      exact ⟨i, (h.registered _ i).1 hi⟩
    · rintro ⟨i, hi⟩
      exact ⟨(node, i), (h.registered node i).2 hi, rfl⟩
  rw [openCount, ← ((List.perm_ext_iff_of_nodup hkeys f.roster.nodup_dedup).2 hmem).length_eq,
    List.length_map]

/-- A terminal is registered unless a later one is for the same device. -/
theorem mem_registry_iff (h : f.Tracked 0) {i : Nat} {node : String}
    (hi : f.roster[i]? = some node) :
    i ∈ f.registry.map (·.2) ↔ node ∉ f.roster.drop (i + 1) := by
  have hlater : node ∈ f.roster.drop (i + 1) ↔ ∃ j, i < j ∧ f.roster[j]? = some node := by
    simp only [List.mem_iff_getElem?, List.getElem?_drop]
    constructor
    · rintro ⟨j, hj⟩
      exact ⟨i + 1 + j, by omega, hj⟩
    · rintro ⟨j, hij, hj⟩
      exact ⟨j - (i + 1), by rwa [show i + 1 + (j - (i + 1)) = j by omega]⟩
  rw [hlater, List.mem_map]
  constructor
  · rintro ⟨⟨node', _⟩, hmem, rfl⟩ ⟨j, hij, hj⟩
    have hlatest := (h.registered node' _).1 hmem
    obtain rfl := Option.some.inj (hi.symm.trans hlatest.device)
    exact hlatest.last j hij hj
  · intro hnone
    exact ⟨(node, i), (h.registered node i).2 ⟨Nat.zero_le i, hi,
      fun j hij hj => hnone ⟨j, hij, hj⟩⟩, rfl⟩

end Tracked

/-- Nothing is twice in a list if nothing comes again later. -/
theorem nodup_iff_not_mem_drop {α : Type} {l : List α} :
    l.Nodup ↔ ∀ i a, l[i]? = some a → a ∉ l.drop (i + 1) := by
  induction l with
  | nil => simp
  | cons x l ih =>
    rw [List.nodup_cons, ih]
    constructor
    · rintro ⟨hx, hl⟩ (_ | i) a ha
      · exact Option.some.inj ha ▸ hx
      · exact hl i a ha
    · intro h
      exact ⟨h 0 x rfl, fun i => h (i + 1)⟩

section Visits

variable {tool : FirmwareTool} (htool : tool.Infallible) (recipe : Recipe) (files : FileSystem)
  {plan : List (Nat × Environment)} {names : List String}
  (hnames : plan.map (·.2.node?) = names.map some)
include htool hnames

theorem roster_visits : ((Fleet.new tool recipe files).after (visits plan)).roster = names :=
  (roster_after _ (visits plan)).trans (provisioned_visits htool hnames)

omit htool hnames in
/-- What is registered after devices were provisioned are the latest terminals of all. -/
theorem tracked_visits : ((Fleet.new tool recipe files).after (visits plan)).Tracked 0 := by
  have hnew : (Fleet.new tool recipe files).Tracked 0 :=
    Tracked.of_registry_eq_nil (f := .new tool recipe files) rfl
  refine hnew.after ?_
  simp [visits]

/-- There is one open terminal for each name. -/
theorem openCount_visits :
    ((Fleet.new tool recipe files).after (visits plan)).openCount = names.dedup.length := by
  have hcustody := (Custody.new tool recipe files).after (visits plan)
  rw [(tracked_visits recipe files).openCount_eq hcustody.keys,
    roster_visits htool recipe files hnames]

/-- A terminal was closed if a later device has the same name. -/
theorem closesOf_visits {i : Nat} {name : String} (hi : names[i]? = some name) :
    ((Fleet.new tool recipe files).after (visits plan)).closesOf i =
      if name ∈ names.drop (i + 1) then 1 else 0 := by
  have hroster := roster_visits htool recipe files hnames
  have hcustody := (Custody.new tool recipe files).after (visits plan)
  have htracked : ((Fleet.new tool recipe files).after (visits plan)).Tracked 0 :=
    tracked_visits recipe files
  generalize (Fleet.new tool recipe files).after (visits plan) = f at hroster hcustody htracked
  subst hroster
  have hlt : i < f.connections.length := by simpa [roster] using (List.getElem?_eq_some_iff.1 hi).1
  rw [hcustody.closesOf_eq hlt]
  simp only [htracked.mem_registry_iff hi]
  split <;> simp_all

end Visits

/-- **One terminal for each name.** With a tool that never fails, devices that are addressed in
different ways are provisioned one after the other, each under its name. A terminal was closed if a
later device has the same name, and only then. So all terminals stay open exactly if the names
differ, exactly if no two devices are confused, as is the case if all are addressed in one scheme by
identifiers without underscores. Then the terminal logs differ, too, unless a name replaces another
one in their directory. -/
theorem terminals_by_name {tool : FirmwareTool} (htool : tool.Infallible) (recipe : Recipe)
    (files : FileSystem) {plan : List (Nat × Environment)} {addresses : List Addressing}
    (haddresses : plan.map (·.2.addressing?) = addresses.map some) (hdifferent : addresses.Nodup) :
    let start := Fleet.new tool recipe files
    let f := start.after (visits plan)
    let names := addresses.map Addressing.node
    start.provisioned (visits plan) = names ∧
      (∀ i name, names[i]? = some name →
        f.closesOf i = if name ∈ names.drop (i + 1) then 1 else 0) ∧
      [f.openCount = plan.length, ∀ i < plan.length, f.closesOf i = 0, names.Nodup,
        addresses.Pairwise fun a b => ¬ a.Confusable b].TFAE ∧
      ((∀ a ∈ addresses, ∀ b ∈ addresses, a.scheme = b.scheme) →
        (∀ a ∈ addresses, '_' ∉ a.id.toList) → names.Nodup) ∧
      ∀ c : Configuration, (names.map c.termlogPath).Nodup ↔
        names.Pairwise fun a b => a ≠ b ∧ ¬ c.Replaces a b ∧ ¬ c.Replaces b a := by
  intro start f names
  have hnames : plan.map (·.2.node?) = names.map some := by
    have hnode := congrArg (List.map (Option.map Addressing.node)) haddresses
    simpa [names, Environment.node?, Function.comp_def] using hnode
  have hlength : plan.length = names.length := by simpa using congrArg List.length hnames
  have hcloses : ∀ i name, names[i]? = some name →
      f.closesOf i = if name ∈ names.drop (i + 1) then 1 else 0 :=
    fun i name => closesOf_visits htool recipe files hnames
  have hopen : f.openCount = names.dedup.length := openCount_visits htool recipe files hnames
  refine ⟨provisioned_visits htool hnames, hcloses, ?_, fun hscheme hid => ?_,
    fun c => c.nodup_termlogPaths_iff names⟩
  · tfae_have 1 ↔ 3 := by
      rw [hopen, hlength]
      exact ⟨fun h => List.dedup_eq_self.1 ((List.dedup_sublist names).eq_of_length h),
        fun h => by rw [h.dedup]⟩
    tfae_have 2 ↔ 3 := by
      rw [nodup_iff_not_mem_drop, hlength]
      constructor
      · intro hnone i name hi hlater
        have hclosed := hcloses i name hi
        rw [if_pos hlater, hnone i (List.getElem?_eq_some_iff.1 hi).1] at hclosed
        cases hclosed
      · intro hnone i hi
        have hname := List.getElem?_eq_getElem hi
        rw [hcloses i _ hname, if_neg (hnone i _ hname)]
    tfae_have 3 ↔ 4 := Addressing.nodup_names_iff hdifferent
    tfae_finish
  · refine (Addressing.nodup_names_iff hdifferent).2
      (List.pairwise_of_forall_mem_list fun a ha b hb => ?_)
    exact Addressing.not_confusable (hscheme a ha b hb) (hid a ha) (hid b hb)

/-- An index and the serial number of an adapter give one name, and the terminal of the first device
is closed. -/
theorem terminals_by_name_confused :
    let base : Environment := .set .empty Environment.boardVar "dwm1001"
    let tool : FirmwareTool :=
      { build := fun _ fs _ => (.done (), fs)
        openTerminal := fun _ fs _ => (.done (.uniform (.accepted []) none), fs) }
    let start := Fleet.new tool ⟨none, none, none⟩ .empty
    let plan := [(0, base.set Environment.indexVar "1"), (1, base.set Environment.adapterVar "1")]
    start.provisioned (visits plan) = ["dwm1001_1", "dwm1001_1"] ∧
      (start.after (visits plan)).closesOf 0 = 1 ∧ (start.after (visits plan)).closesOf 1 = 0 ∧
      (start.after (visits plan)).openCount ≠ plan.length := by
  intro base tool start plan
  have htool : tool.Infallible := ⟨fun _ _ _ => rfl, fun _ _ _ => ⟨_, rfl⟩⟩
  let addresses : List Addressing :=
    [.boardIndex (some "dwm1001") "1", .debugAdapter (some "dwm1001") "1"]
  have haddresses : plan.map (·.2.addressing?) = addresses.map some := by decide +kernel
  obtain ⟨hprovisioned, hcloses, hopen, -⟩ :=
    terminals_by_name htool ⟨none, none, none⟩ .empty haddresses (by decide)
  have hnames : addresses.map Addressing.node = ["dwm1001_1", "dwm1001_1"] := by decide
  rw [hnames] at hprovisioned hcloses hopen
  refine ⟨hprovisioned, ?_, ?_, mt (hopen.out 0 2).1 (by decide)⟩
  · rw [hcloses 0 "dwm1001_1" rfl, if_pos (by decide)]
  · rw [hcloses 1 "dwm1001_1" rfl, if_neg (by decide)]

end Fleet

end ProximityLab
