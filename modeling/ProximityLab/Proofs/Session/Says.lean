import ProximityLab.Proofs.Session.Talk

/-!
# What is said on a terminal

`Terminal.Says lines now later t t'`: between two moments some of the given lines were tried on the
terminal, in their order, each once at most, and nothing else. What is said one after the other adds
up (`Says.trans`), reading says nothing, and a command says its line (`Talk.says_command`).
-/

namespace ProximityLab

/-- Moments that follow one another between two others. -/
structure Within (first last : Nat) (moments : List Nat) : Prop where
  le : first ≤ last
  order : moments.Pairwise (· ≤ ·)
  first_le : ∀ m ∈ moments, first ≤ m
  le_last : ∀ m ∈ moments, m ≤ last

namespace Within

variable {first mid last : Nat} {moments moments' : List Nat}

theorem nil (h : first ≤ last) : Within first last [] := ⟨h, .nil, by simp, by simp⟩

theorem single (h : first ≤ mid) (h' : mid ≤ last) : Within first last [mid] :=
  ⟨Nat.le_trans h h', List.pairwise_singleton _ _, by simpa using h, by simpa using h'⟩

theorem append (h : Within first mid moments) (h' : Within mid last moments') :
    Within first last (moments ++ moments') where
  le := Nat.le_trans h.le h'.le
  order := List.pairwise_append.2 ⟨h.order, h'.order, fun a ha b hb =>
    Nat.le_trans (h.le_last a ha) (h'.first_le b hb)⟩
  first_le := List.forall_mem_append.2
    ⟨h.first_le, fun m hm => Nat.le_trans h.le (h'.first_le m hm)⟩
  le_last := List.forall_mem_append.2
    ⟨fun m hm => Nat.le_trans (h.le_last m hm) h'.le, h'.le_last⟩

theorem sublist (h : Within first last moments) (hsub : moments'.Sublist moments) :
    Within first last moments' :=
  ⟨h.le, h.order.sublist hsub, fun m hm => h.first_le m (hsub.subset hm),
    fun m hm => h.le_last m (hsub.subset hm)⟩

end Within

namespace Terminal

/-- Some of these lines were tried on the terminal, in their order, between two moments. -/
def Says (lines : List String) (now later : Nat) (t t' : Terminal) : Prop :=
  ∃ trials : List Trial, t'.trials = t.trials ++ trials ∧
    (trials.map (·.line)).Sublist lines ∧ Within now later (trials.map (·.time))

namespace Says

variable {lines lines' : List String} {now mid later : Nat} {t t' t'' : Terminal}

/-- Nothing was said. -/
theorem nothing (h : t'.trials = t.trials) (hle : now ≤ later) (lines : List String) :
    Says lines now later t t' :=
  ⟨[], by simpa using h, List.nil_sublist _, .nil hle⟩

theorem refl (t : Terminal) (hle : now ≤ later) (lines : List String) : Says lines now later t t :=
  nothing rfl hle lines

theorem mono (h : Says lines now later t t') (hsub : lines.Sublist lines') :
    Says lines' now later t t' := by
  obtain ⟨trials, htrials, hlines, hwithin⟩ := h
  exact ⟨trials, htrials, hlines.trans hsub, hwithin⟩

theorem trans (h : Says lines now mid t t') (h' : Says lines' mid later t' t'') :
    Says (lines ++ lines') now later t t'' := by
  obtain ⟨trials, htrials, hlines, hwithin⟩ := h
  obtain ⟨trials', htrials', hlines', hwithin'⟩ := h'
  refine ⟨trials ++ trials', ?_, ?_, ?_⟩
  · rw [htrials', htrials, List.append_assoc]
  · rw [List.map_append]
    exact hlines.append hlines'
  · rw [List.map_append]
    exact hwithin.append hwithin'

end Says

theorem says_send (now : Nat) (line : String) (t : Terminal) :
    Says [line] now now t (t.send now line).2 := by
  obtain ⟨trials, rfl | ⟨taken, rfl⟩, hsend⟩ := t.trials_send now line
  · exact .nothing (by simpa using hsend) (Nat.le_refl now) _
  · exact ⟨_, hsend, .refl _, .single (Nat.le_refl now) (Nat.le_refl now)⟩

theorem trials_read (now horizon : Nat) (deadline : Option Nat) (t : Terminal) :
    (t.read now horizon deadline).2.2.trials = t.trials := by
  unfold read
  split <;> rfl

/-- A wait goes on from the present moment, and no longer than to the horizon. -/
theorem read_time {now horizon : Nat} (deadline : Option Nat) (t : Terminal) (h : now ≤ horizon) :
    now ≤ (t.read now horizon deadline).2.1 ∧ (t.read now horizon deadline).2.1 ≤ horizon := by
  have hexpire : now ≤ (expire now horizon deadline).2 ∧
      (expire now horizon deadline).2 ≤ horizon := by
    unfold expire
    split
    · split
      · exact ⟨Nat.le_max_left _ _, ‹_›⟩
      · exact ⟨h, Nat.le_refl _⟩
    · exact ⟨h, Nat.le_refl _⟩
  unfold read
  split
  · exact ⟨Nat.le_refl _, h⟩
  · cases t.queue with
    | nil => exact hexpire
    | cons d queue =>
      simp only [await]
      split
      · rename_i hin
        rw [Bool.and_eq_true, decide_eq_true_eq] at hin
        exact ⟨Nat.le_max_left _ _, hin.2⟩
      · exact hexpire

end Terminal

namespace Talk

/-- Between the moments of two stations some of these lines were tried. The horizon is the same, and
was not passed. -/
structure Says (lines : List String) (s s' : Station) : Prop where
  horizon : s'.horizon = s.horizon
  said : s.now ≤ s.horizon → s'.now ≤ s.horizon ∧ s.terminal.Says lines s.now s'.now s'.terminal

namespace Says

variable {lines lines' : List String} {s s' s'' : Station}

theorem mono (h : Says lines s s') (hsub : lines.Sublist lines') : Says lines' s s' :=
  ⟨h.horizon, fun hnow => (h.said hnow).imp_right (·.mono hsub)⟩

theorem trans (h : Says lines s s') (h' : Says lines' s' s'') : Says (lines ++ lines') s s'' := by
  refine ⟨h'.horizon.trans h.horizon, fun hnow => ?_⟩
  obtain ⟨hnow', hsaid⟩ := h.said hnow
  obtain ⟨hnow'', hsaid'⟩ := h'.said (h.horizon ▸ hnow')
  exact ⟨h.horizon ▸ hnow'', hsaid.trans hsaid'⟩

theorem trans_nil (h : Says lines s s') (h' : Says [] s' s'') : Says lines s s'' := by
  simpa using h.trans h'

theorem nil_trans (h : Says [] s s') (h' : Says lines s' s'') : Says lines s s'' := h.trans h'

end Says

theorem reading_says : Reading (Says []) where
  refl s := ⟨rfl, fun hnow => ⟨hnow, .refl _ (Nat.le_refl _) _⟩⟩
  trans := .trans_nil
  read deadline s := by
    refine ⟨rfl, fun hnow => ?_⟩
    obtain ⟨hle, hhorizon⟩ := s.terminal.read_time deadline hnow
    exact ⟨hhorizon, .nothing (s.terminal.trials_read s.now s.horizon deadline) hle _⟩

/-- A command says its line, however it ends. -/
theorem says_command (limit : TimeSpan) (line : String) :
    Relates (Says [line]) (command limit line) :=
  reading_says.command limit
    (fun s => ⟨rfl, fun hnow => ⟨hnow, s.terminal.says_send s.now line⟩⟩)
    (fun h => h.mono (List.nil_sublist _)) .nil_trans .trans_nil

theorem says_uid (limit : TimeSpan) : Relates (Says [uidLine]) (uid limit) :=
  Relates.bind (says_command limit uidLine) (fun _ => reading_says.pure _) id .trans_nil

end Talk

end ProximityLab
