import ProximityLab.Proofs.Campaign.Records
import ProximityLab.Proofs.Experiment.Cases
import ProximityLab.Proofs.Experiment.Sync
import ProximityLab.Proofs.Provisioning.Invariant

/-!
# The records of an experiment

Each environment of an experiment has one record in the end, in the same order: of its device, at
its position, and with an outcome (`Executes.recorded`). On the way there

- provisioning gives each environment its node (`provided_nodesOf`),
- the synchronisation takes no node out of its place and leaves all of them idle (`syncAll_spec`),
  so that
- no node breaks a rule of its life (`Executes.not_node`).
-/

namespace ProximityLab

open Campaign (Carries Left)

/-- The record is of the device of the environment, at its position. -/
structure Environment.Owns (e : Environment) (r : NodeRecord) : Prop where
  node : e.node = .ok r.node
  position : r.position = e.position

theorem Environment.Owns.carries {e : Environment} {n n' : Node} (h : e.Owns n.record)
    (hc : Carries n n') :
    e.Owns n'.record :=
  ⟨by rw [hc.node, h.node], hc.position.trans h.position⟩

namespace Experiment

/-! ## Synchronisation -/

/-- The node is before its first campaign, and nobody has asked for its identifier. -/
structure Untouched (n : Node) : Prop where
  uid : n.record.uid = none
  idle : n.phase = .idle

theorem breakoff?_ne_failed {h : Halt} {cause : ExperimentError} :
    h.breakoff? ≠ some (.failed cause) := by
  cases h <;> simp [Halt.breakoff?]

/-- An identifier can be assigned to an untouched node. Whatever comes of asking for it, the
experiment does not fail. -/
theorem identify_spec (limit : TimeSpan) (now horizon : Nat) {n : Node} (hn : Untouched n) :
    Carries n (identify limit now horizon n).2.2 ∧
      (identify limit now horizon n).2.2.phase = .idle ∧
      ∀ cause, (identify limit now horizon n).1 ≠ .error (.failed cause) := by
  unfold identify
  rcases (Talk.uid limit).run.run ⟨now, horizon, n.terminal⟩ with ⟨h | _ | uid, s⟩
  · dsimp only
    rcases hb : h.breakoff? with _ | b
    · exact ⟨.withTerminal n _, hn.idle, by simp⟩
    · refine ⟨.withTerminal n _, hn.idle, fun cause hc => ?_⟩
      obtain rfl := Except.error.inj hc
      exact breakoff?_ne_failed hb
  · exact ⟨.withTerminal n _, hn.idle, by simp⟩
  · have hset : (n.withTerminal s.terminal).setUid uid =
        .ok { n.withTerminal s.terminal with record := { n.record with uid := some uid } } :=
      Node.setUid_eq_ok_iff.2 ⟨hn.uid, hn.idle, rfl⟩
    dsimp only
    rw [hset]
    exact ⟨⟨rfl, rfl, fun h => ⟨h.summaries, h.telemetry⟩⟩, hn.idle, by simp⟩

theorem adjust_spec (limit : TimeSpan) (time : DateTime) (now horizon : Nat) (n : Node) :
    Carries n (adjust limit time now horizon n).2.2 ∧
      (adjust limit time now horizon n).2.2.phase = n.phase ∧
      ∀ cause, (adjust limit time now horizon n).1 ≠ .error (.failed cause) := by
  unfold adjust
  rcases (Talk.setTime limit time).run.run ⟨now, horizon, n.terminal⟩ with ⟨h | _, s⟩
  · dsimp only
    rcases hb : h.breakoff? with _ | b
    · exact ⟨.withTerminal n _, rfl, by simp⟩
    · refine ⟨.withTerminal n _, rfl, fun cause hc => ?_⟩
      obtain rfl := Except.error.inj hc
      exact breakoff?_ne_failed hb
  · exact ⟨.withTerminal n _, rfl, by simp⟩

/-- Wherever the synchronisation of untouched nodes breaks off, they are all in their places and
idle, and it has not broken off by a failure. -/
theorem syncAll_spec (limit : TimeSpan) (o : Circumstances) (now : Nat) {nodes : List Node}
    (hnodes : ∀ n ∈ nodes, Untouched n) :
    List.Forall₂ Carries nodes (syncAll limit o now nodes).2.2 ∧
      (∀ n ∈ (syncAll limit o now nodes).2.2, n.phase = .idle) ∧
      ∀ cause, (syncAll limit o now nodes).1 ≠ .error (.failed cause) := by
  induction nodes generalizing now with
  | nil => exact ⟨.nil, by simp [syncAll], by simp [syncAll]⟩
  | cons n ns ih =>
    obtain ⟨hn, hns⟩ := List.forall_mem_cons.1 hnodes
    have hsame : List.Forall₂ Carries ns ns := List.forall₂_same.2 fun m _ => .refl m
    have hidle : ∀ m ∈ ns, m.phase = .idle := fun m hm => (hns m hm).idle
    obtain ⟨hcarries, hphase, hfail⟩ := identify_spec limit now o.horizon hn
    unfold syncAll
    generalize identify limit now o.horizon n = r at hcarries hphase hfail ⊢
    obtain ⟨b | _, now', n'⟩ := r
    · exact ⟨.cons hcarries hsame, List.forall_mem_cons.2 ⟨hphase, hidle⟩, hfail⟩
    · obtain ⟨hcarries', hphase', hfail'⟩ := adjust_spec limit (o.clock now') now' o.horizon n'
      have hboth : Carries n _ := hcarries.trans hcarries'
      have hidle' := hphase'.trans hphase
      dsimp only
      generalize adjust limit (o.clock now') now' o.horizon n' = r at hboth hidle' hfail' ⊢
      obtain ⟨b | _, now'', n''⟩ := r
      · exact ⟨.cons hboth hsame, List.forall_mem_cons.2 ⟨hidle', hidle⟩, hfail'⟩
      · obtain ⟨hrest, hidles, hfails⟩ := ih now'' hns
        exact ⟨.cons hboth hrest, List.forall_mem_cons.2 ⟨hidle', hidles⟩, hfails⟩

/-! ## Provisioning -/

/-- What a node is like right after its device was provisioned. -/
structure Provided (e : Environment) (n : Node) : Prop extends Untouched n where
  owns : e.Owns n.record
  reported : n.record.Reported

/-- Each environment has the node of its device. -/
theorem provided_nodesOf {es : List Environment} {f : Fleet}
    (h : List.Forall₂ (fun e node => e.node = .ok node) es f.roster) :
    List.Forall₂ Provided es (nodesOf es f) := by
  unfold Fleet.roster at h
  unfold nodesOf
  rw [List.forall₂_map_right_iff] at h
  generalize f.connections = cs at h
  induction h with
  | nil => exact .nil
  | @cons e c _ _ hnode _ ih =>
    rw [List.zipWith_cons_cons]
    exact .cons ⟨⟨rfl, rfl⟩, ⟨hnode, rfl⟩,
      ⟨by simp [Node.new, NodeRecord.new], by simp [Node.new, NodeRecord.new]⟩⟩ ih

variable {σ : Type} {c : Configuration} {src : EnvironmentSource σ} {o : Circumstances} {state : σ}
  {tool : FirmwareTool} {fs : FileSystem}

/-- The first course of an experiment. -/
def outset (c : Configuration) (tool : FirmwareTool) (state : σ) (fs : FileSystem)
    (o : Circumstances) : Course σ :=
  ⟨state, .new tool c.recipe fs, o.start⟩

/-- The devices of all environments are provisioned: each has one terminal, in the order of the
environments, and the tool was called for nothing else. -/
structure Equipped (c : Configuration) (es : List Environment) (f : Fleet) : Prop where
  roster : List.Forall₂ (fun e node => e.node = .ok node) es f.roster
  calls : f.calls = (List.zipWith (callsFor c c.recipe) es f.roster).flatten

theorem Equipped.length_eq {es : List Environment} {f : Fleet} (h : Equipped c es f) :
    es.length = f.connections.length := by
  simpa [Fleet.roster] using h.roster.length_eq

theorem Equipped.grows {es : List Environment} {f g : Fleet} (h : Equipped c es f)
    (hg : f.Grows g [] []) :
    Equipped c es g := by
  have hroster : g.roster = f.roster := by rw [hg.roster, List.append_nil]
  refine ⟨hroster ▸ h.roster, ?_⟩
  rw [hg.calls, List.append_nil, h.calls, hroster]

theorem Equipped.takeBack {es : List Environment} {f : Fleet} (h : Equipped c es f)
    (nodes : List Node) :
    Equipped c es (f.takeBack nodes) := h.grows (.takeBack f nodes)

theorem Provisions.equipped {es : List Environment} {now : Nat} {state' : σ} {f : Fleet}
    (h : Provisions c src o (outset c tool state fs o) es now state' (.done ()) f) :
    Equipped c es f := by
  obtain ⟨files, -, hp⟩ := h.provisioned
  obtain ⟨names, hnames, hgrows⟩ := provisionAll_done hp
  have hroster : f.roster = names := hgrows.roster
  exact ⟨hroster ▸ hnames, hroster ▸ hgrows.calls⟩

/-! ## The whole experiment -/

section Whole

variable {k : Course σ}

/-- The nodes that come out of the synchronisation are idle. -/
theorem Provisions.synced {es : List Environment} {now now' : Nat} {state' : σ} {f : Fleet}
    {result : Except Breakoff Unit} {nodes : List Node}
    (h : Provisions c src o (outset c tool state fs o) es now state' (.done ()) f)
    (hsync : syncAll c.commandSpan o (now + c.settleSpan.millisUp) (nodesOf es f) =
      (result, now', nodes)) :
    List.Forall₂ (fun e n => e.Owns n.record ∧ n.record.Reported) es nodes ∧
      (∀ n ∈ nodes, n.phase.inFlight = false) ∧ ∀ cause, result ≠ .error (.failed cause) := by
  have hprovided := provided_nodesOf h.equipped.roster
  have hnew : ∀ n ∈ nodesOf es f, Untouched n :=
    forall_mem_of_forall₂ (P := fun _ => True) hprovided (fun _ _ => trivial) fun _ _ _ hp =>
      hp.toUntouched
  obtain ⟨hcarries, hidle, hfail⟩ := syncAll_spec c.commandSpan o (now + c.settleSpan.millisUp) hnew
  rw [hsync] at hcarries hidle hfail
  refine ⟨?_, fun n hn => by simp [hidle n hn, Phase.inFlight], hfail⟩
  exact forall₂_comp hprovided hcarries fun e n n' hp hc =>
    ⟨hp.owns.carries hc, hc.reported hp.reported⟩

/-- Each environment has its record in the end, or there were too few of them. -/
theorem Executes.recorded {nodes : List Node}
    (h : Executes c src o (outset c tool state fs o) (.ok nodes) k) :
    ∃ es now state', src.reserve fs o.start o.horizon state = (.environments es, now, state') ∧
      (es.length < c.minNodes ∧ nodes = [] ∧ k = ⟨state', .new tool c.recipe fs, now⟩ ∨
        c.minNodes ≤ es.length ∧ Equipped c es k.fleet ∧
          List.Forall₂ (fun e n => e.Owns n.record ∧ n.record.Reported ∧ Left n) es nodes) := by
  generalize hresult : Except.ok nodes = result at h
  cases h with
  | tooFew hreserve hfew =>
    obtain rfl := Except.ok.inj hresult
    exact ⟨_, _, _, hreserve, .inl ⟨hfew, rfl, rfl⟩⟩
  | @campaigned es now now' state' f nodes' slack r hp hsync hslack hrun =>
    obtain ⟨hnodes, hidle, -⟩ := hp.synced hsync
    have hequipped := ((hp.equipped.takeBack nodes').takeBack r.started).takeBack r.nodes
    refine ⟨es, now, state', hp.reserved, .inr ⟨hp.enough, hequipped, ?_⟩⟩
    rcases hend : r.ending with _ | cause | _ | _ <;> rw [hend] at hresult <;> cases hresult
    subst hrun
    have hleft := Campaign.outcome_of_done hend
    rw [((Campaign.run_spec _ _ _ _ hidle).2 (by rw [hend]; simp)).2] at hleft ⊢
    rw [List.forall_mem_map] at hleft
    refine forall₂_comp (S := fun n n' => Carries n n' ∧ Left n') hnodes ?_ fun e n n' hn hn' =>
      ⟨hn.1.carries hn'.1, hn'.1.reported hn.2, hn'.2⟩
    rw [List.forall₂_map_right_iff, List.forall₂_same]
    exact fun n hn => ⟨.resolve _ _ _ _ n, hleft n hn⟩
  | _ => cases hresult

/-- No experiment breaks off because of a rule of a node's life. -/
theorem Executes.not_node {b : Breakoff}
    (h : Executes c src o (outset c tool state fs o) (.error b) k) (cause : NodeError) :
    b ≠ .failed (.node cause) := by
  rintro rfl
  generalize hresult : Except.error (Breakoff.failed (.node cause)) = result at h
  cases h with
  | @unreserved reserved _ _ b _ hb => cases reserved <;> cases hb <;> cases hresult
  | @unprovisioned _ _ _ attempt _ _ _ hb => cases attempt <;> cases hb <;> cases hresult
  | unsynced hp hsync =>
    cases hresult
    exact (hp.synced hsync).2.2 _ rfl
  | @campaigned es now now' state' f nodes' slack r hp hsync hslack hrun =>
    obtain ⟨-, hidle, -⟩ := hp.synced hsync
    have hruns := Campaign.runs ⟨c.params, slack, c.graceSpan⟩ now' o.horizon
      (o.stop.moment o.start now') nodes'
    rw [hrun] at hruns
    cases hruns with
    | refused hn hflight => exact absurd ((hidle _ hn).symm.trans hflight) (by decide)
    | _ => cases hresult
  | _ => cases hresult

end Whole

end Experiment

end ProximityLab
