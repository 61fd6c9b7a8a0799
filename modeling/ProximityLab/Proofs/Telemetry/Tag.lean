import ProximityLab.Proofs.Text.Lines
import ProximityLab.Telemetry.Tag

/-!
# The texts of annotation tags

`Tag.parse?_eq_some_iff`: exactly the texts of proper tags are read, each as its tag. So the pieces
of a tag, joined with colons, are read as these pieces, and everything else is refused
(`Tag.parse?_grammar`).
-/

namespace ProximityLab

namespace Tag

/-- No segment holds a colon, and there is a neighbor. -/
structure Proper (t : Tag) : Prop where
  node : ∀ node ∈ t.node, ':' ∉ node.toList
  subsystem : ':' ∉ t.subsystem.toList
  neighbor : ':' ∉ t.neighbor.toList
  named : t.neighbor ≠ ""

theorem ofSegments?_eq_some_iff {node : Option String} {subsystem radio neighbor : String}
    {t : Tag} :
    ofSegments? node subsystem radio neighbor = some t ↔
      neighbor ≠ "" ∧ radio = t.radio.name ∧ t = ⟨node, subsystem, t.radio, neighbor⟩ := by
  unfold ofSegments?
  by_cases hempty : neighbor = ""
  · simp [hempty]
  · rw [if_neg (by simpa using hempty), Option.map_eq_some_iff]
    constructor
    · rintro ⟨r, hr, rfl⟩
      exact ⟨hempty, Radio.name_of_ofName? hr, rfl⟩
    · rintro ⟨-, hradio, ht⟩
      exact ⟨t.radio, by rw [hradio, Radio.ofName?_name], ht.symm⟩

/-- The pieces of a tag. -/
def segments (t : Tag) : List String := t.node.toList ++ [t.subsystem, t.radio.name, t.neighbor]

theorem split_text {t : Tag} (h : t.Proper) : Text.split ':' t.text = t.segments := by
  have hradio : ':' ∉ t.radio.name.toList := by cases t.radio <;> decide
  rw [Text.split_eq_map]
  obtain ⟨node, subsystem, radio, neighbor⟩ := t
  have htail : Text.splitOn ':' (subsystem ++ ":" ++ radio.name ++ ":" ++ neighbor).toList =
      [subsystem.toList, radio.name.toList, neighbor.toList] := by
    simp only [String.toList_append, List.append_assoc]
    change Text.splitOn ':' (subsystem.toList ++
      ':' :: (radio.name.toList ++ ':' :: neighbor.toList)) = _
    rw [Text.splitOn_append_cons h.subsystem, Text.splitOn_append_cons hradio,
      Text.splitOn_of_not_mem h.neighbor]
  cases node with
  | none => exact htail
  | some node =>
    have hnode : (text ⟨some node, subsystem, radio, neighbor⟩).toList =
        node.toList ++ ':' :: (subsystem ++ ":" ++ radio.name ++ ":" ++ neighbor).toList := by
      simp only [text, String.toList_append, List.append_assoc]
      rfl
    rw [hnode, Text.splitOn_append_cons (h.node node rfl), htail]
    rfl

theorem text_of_split {s subsystem radio neighbor : String}
    (h : Text.splitOn ':' s.toList = [subsystem, radio, neighbor].map String.toList) :
    ':' ∉ subsystem.toList ∧ ':' ∉ neighbor.toList ∧
      s = subsystem ++ ":" ++ radio ++ ":" ++ neighbor := by
  obtain ⟨hsubsystem, rest, hs, hrest⟩ := Text.splitOn_eq_cons_cons.1 h
  obtain ⟨-, rest', rfl, hrest'⟩ := Text.splitOn_eq_cons_cons.1 hrest
  obtain ⟨hneighbor, rfl⟩ := Text.splitOn_eq_singleton.1 hrest'
  refine ⟨hsubsystem, hneighbor, String.toList_inj.1 ?_⟩
  simp only [hs, String.toList_append, List.append_assoc]
  rfl

/-- Exactly the texts of proper tags are read, each as its tag. -/
theorem parse?_eq_some_iff {s : String} {t : Tag} : parse? s = some t ↔ t.Proper ∧ s = t.text := by
  constructor
  · intro h
    unfold parse? at h
    split at h
    · rename_i node subsystem radio neighbor hsplit
      obtain ⟨hnamed, hradio, ht⟩ := ofSegments?_eq_some_iff.1 h
      obtain ⟨hnode, rest, hs, hrest⟩ :=
        Text.splitOn_eq_cons_cons.1 ((Text.split_eq_map _ _ _).1 hsplit)
      obtain ⟨hsubsystem, hneighbor, htext⟩ := text_of_split (s := String.ofList rest)
        (by rw [String.toList_ofList]; exact hrest)
      rw [ht]
      refine ⟨⟨by rintro _ ⟨⟩; exact hnode, hsubsystem, hneighbor, hnamed⟩, String.toList_inj.1 ?_⟩
      have hrest : rest = (subsystem ++ ":" ++ radio ++ ":" ++ neighbor).toList := by
        rw [← htext, String.toList_ofList]
      rw [hs, hrest, hradio]
      simp only [text, String.toList_append, List.append_assoc]
      rfl
    · rename_i subsystem radio neighbor hsplit
      obtain ⟨hnamed, hradio, ht⟩ := ofSegments?_eq_some_iff.1 h
      obtain ⟨hsubsystem, hneighbor, rfl⟩ := text_of_split ((Text.split_eq_map _ _ _).1 hsplit)
      rw [ht]
      exact ⟨⟨nofun, hsubsystem, hneighbor, hnamed⟩, by rw [hradio]; rfl⟩
    · cases h
  · rintro ⟨ht, rfl⟩
    obtain ⟨_ | node, subsystem, radio, neighbor⟩ := t
    all_goals
      rw [parse?, split_text ht]
      exact ofSegments?_eq_some_iff.2 ⟨ht.named, rfl, rfl⟩

/-- The text of a tag is its pieces with colons between them. -/
theorem intercalate_segments (t : Tag) : ":".intercalate t.segments = t.text := by
  obtain ⟨_ | node, subsystem, radio, neighbor⟩ := t
  · rfl
  · change node ++ ":" ++ subsystem ++ ":" ++ radio.name ++ ":" ++ neighbor =
      node ++ ":" ++ (subsystem ++ ":" ++ radio.name ++ ":" ++ neighbor)
    simp only [String.append_assoc]

/-- **The grammar of tags.** What is read from a text is the tag whose pieces, joined with colons,
are that text: the pieces of every proper tag are read as that tag, and a text that no proper tag
has is refused. -/
theorem parse?_grammar (s : String) :
    (∀ t, parse? s = some t ↔ t.Proper ∧ ":".intercalate t.segments = s) ∧
      (parse? s = none ↔ ∀ t : Tag, t.Proper → ":".intercalate t.segments ≠ s) := by
  have hread (t : Tag) : parse? s = some t ↔ t.Proper ∧ ":".intercalate t.segments = s := by
    rw [parse?_eq_some_iff, intercalate_segments, eq_comm (a := s)]
  refine ⟨hread, ?_⟩
  constructor
  · intro hnone t ht hs
    have hsome := (hread t).2 ⟨ht, hs⟩
    rw [hnone] at hsome
    cases hsome
  · intro hno
    rw [Option.eq_none_iff_forall_ne_some]
    intro t hsome
    obtain ⟨ht, hs⟩ := (hread t).1 hsome
    exact hno t ht hs

end Tag

end ProximityLab
