import ProximityLab.FileSystem.Basic

/-!
# What writing does to files

- **Back**: what was written to a path is read from it (`read_write`). Writing puts no directory in
  the way, so the path still leads to the same place, and writing there once more replaces what was
  written (`put_put`).
- **Elsewhere**: a path that leads to one place is no way to change what is at another
  (`content?_tryWrite`). Paths with different names at their ends lead to different places
  (`getLast?_place`).
-/

namespace ProximityLab.FileSystem

variable {fs fs' : FileSystem} {path : String} {p q : Place} {bytes : List UInt8}

theorem writable_eq_ok (h : fs.writable path = .ok p) :
    fs.place path = .ok p ∧ Path.endsInDirectory path = false ∧ fs.isDir p = false := by
  unfold writable at h
  cases hp : fs.place path with
  | error e =>
    rw [hp] at h
    cases h
  | ok q =>
    rw [hp] at h
    dsimp only [bind, Except.bind] at h
    by_cases hfile : (Path.endsInDirectory path || fs.isDir q) = true
    · rw [if_pos hfile] at h
      cases h
    · rw [if_neg hfile] at h
      rw [Bool.not_eq_true, Bool.or_eq_false_iff] at hfile
      generalize (if (fs.content? q).isSome = true then q else q.dropLast) = guard at h
      obtain rfl : q = p := by
        split at h
        · cases h
        · exact Except.ok.inj h
      exact ⟨rfl, hfile⟩

theorem isDir_put (fs : FileSystem) (p : Place) (bytes : List UInt8) (q : Place) :
    (fs.put p bytes).isDir q = fs.isDir q := by
  unfold put
  split <;> rfl

/-- Steps through directories that stay lead to where they led. -/
theorem follow_of_isDir (hdirs : ∀ q, fs.isDir q = true → fs'.isDir q = true) {steps : List String}
    {here there : Place} (h : fs.follow here steps = .ok there) :
    fs'.follow here steps = .ok there := by
  fun_induction fs.follow here steps with
  | case1 here => exact h
  | case2 here steps ih => exact ih h
  | case3 here steps ih => exact ih h
  | case4 here steps name hdot hdots next hdir ih =>
    rw [follow, if_pos (hdirs _ hdir)]
    · exact ih h
    · exact hdot
    · exact hdots
  | case5 => cases h
  | case6 => cases h

theorem place_of_isDir (hdirs : ∀ q, fs.isDir q = true → fs'.isDir q = true)
    (h : fs.place path = .ok q) :
    fs'.place path = .ok q := by
  unfold place at h ⊢
  split at h
  · exact h
  · rename_i name hname
    cases hparent : fs.follow (origin path) (Path.steps path).dropLast with
    | error e =>
      rw [hparent] at h
      cases h
    | ok parent =>
      rw [hparent] at h
      rw [follow_of_isDir hdirs hparent]
      exact h

/-- A file does not stand in the way of a path that leads somewhere. -/
theorem place_put (h : fs.place path = .ok q) : (fs.put p bytes).place path = .ok q :=
  place_of_isDir (fun q hdir => (isDir_put fs p bytes q).trans hdir) h

/-- What was written is read. -/
theorem read_write (h : fs.write path bytes = .ok fs') : fs'.read path = .ok bytes := by
  cases hp : fs.writable path with
  | error e =>
    rw [write, hp] at h
    cases h
  | ok p =>
    obtain ⟨hplace, hends, -⟩ := writable_eq_ok hp
    have hcontent := content?_write_self hp h
    rw [write, hp] at h
    obtain rfl := Except.ok.inj h
    rw [read, place_put hplace]
    simp [bind, Except.bind, hcontent, hends]

theorem content?_of_read (h : fs.read path = .ok bytes) :
    ∃ p, fs.place path = .ok p ∧ fs.content? p = some bytes := by
  cases hp : fs.place path with
  | error e => simp [read, hp, bind, Except.bind] at h
  | ok p =>
    simp only [read, hp, bind, Except.bind] at h
    refine ⟨p, rfl, ?_⟩
    cases hcontent : fs.content? p with
    | none =>
      rw [hcontent] at h
      dsimp only at h
      split at h <;> cases h
    | some content =>
      rw [hcontent] at h
      dsimp only at h
      split at h
      · cases h
      · rw [Except.ok.inj h]

theorem write_of_writable (h : fs.writable path = .ok p) (bytes : List UInt8) :
    fs.write path bytes = .ok (fs.put p bytes) := by
  rw [write, h]
  rfl

/-- Directories that were made are not in the way of reading. -/
theorem Grows.read_eq (h : fs.Grows fs') (hread : fs.read path = .ok bytes) :
    fs'.read path = .ok bytes := by
  obtain ⟨p, hplace, hcontent⟩ := content?_of_read hread
  have hthere := place_of_isDir (fun q hq => h.isDir hq) hplace
  simp only [read, hplace, hthere, bind, Except.bind, h.content?_eq, hcontent] at hread ⊢
  exact hread

/-! ## Writing again -/

theorem eq_of_mem_put {f : Place × List UInt8} (h : f ∈ (fs.put p bytes).files) (hf : f.1 = p) :
    f = (p, bytes) := by
  unfold put at h
  split at h
  · obtain ⟨g, -, rfl⟩ := List.mem_map.1 h
    by_cases hg : g.1 = p <;> simp_all
  · rename_i hnone
    rcases List.mem_append.1 h with h | h
    · exact absurd (List.any_eq_true.2 ⟨f, h, by simpa using hf⟩) hnone
    · exact List.mem_singleton.1 h

/-- What is there already need not be written. -/
theorem put_put (fs : FileSystem) (p : Place) (bytes : List UInt8) :
    (fs.put p bytes).put p bytes = fs.put p bytes := by
  have hthere : (fs.put p bytes).files.any (·.1 == p) = true := by
    obtain ⟨f, hfind, -⟩ := Option.map_eq_some_iff.1 (content?_put_self fs p bytes)
    have hf := List.find?_some hfind
    exact List.any_eq_true.2 ⟨f, List.mem_of_find?_eq_some hfind, hf⟩
  have hsame : ((fs.put p bytes).files.map fun f => if f.1 == p then (p, bytes) else f) =
      (fs.put p bytes).files := by
    refine (List.map_congr_left fun f hf => ?_).trans (List.map_id _)
    by_cases hp : f.1 = p
    · simp [eq_of_mem_put hf hp]
    · simp [hp]
  rw [put, if_pos hthere, hsame]

/-- A file that could be written can be written again. -/
theorem writable_put (h : fs.writable path = .ok p) (hthere : (fs.content? p).isSome) :
    (fs.put p bytes).writable path = .ok p := by
  obtain ⟨hplace, -, -⟩ := writable_eq_ok h
  have hlocked : (fs.put p bytes).locked = fs.locked := by
    unfold put
    split <;> rfl
  simp only [writable, hplace, bind, Except.bind, hthere, if_true] at h
  simp only [writable, place_put hplace, bind, Except.bind, isDir_put, content?_put_self,
    Option.isSome_some, if_true, hlocked]
  exact h

/-! ## Other places -/

/-- A path leads to a place of the name at its end. -/
theorem getLast?_place {name : String} (h : fs.place path = .ok p)
    (hname : (Path.steps path).getLast? = some name) (hdot : name ≠ ".") (hdots : name ≠ "..") :
    p.getLast? = some name := by
  rw [place, hname] at h
  cases hparent : fs.follow (origin path) (Path.steps path).dropLast with
  | error e => simp [hparent, bind, Except.bind] at h
  | ok parent =>
    simp only [hparent, bind, Except.bind, if_neg hdot, if_neg hdots, pure, Except.pure] at h
    obtain rfl := Except.ok.inj h
    exact List.getLast?_concat

theorem content?_append_of_ne (hp : fs.writable path = .ok p) (h : fs.append path bytes = .ok fs')
    (hq : q ≠ p) :
    fs'.content? q = fs.content? q := by
  simp only [append, hp] at h
  cases h
  exact content?_put_of_ne fs hq _

/-- Writing to a path that does not lead to a place changes nothing there. -/
theorem content?_tryWrite (w : FileWrite) (h : fs.place w.path ≠ .ok p) :
    (fs.tryWrite w).content? p = fs.content? p := by
  have hother : ∀ target, fs.writable w.path = .ok target → p ≠ target := by
    rintro target hw rfl
    exact h (writable_eq_ok hw).1
  unfold tryWrite
  dsimp only
  split
  · rename_i fs' hwritten
    cases hw : fs.writable w.path with
    | error e => split at hwritten <;> simp [append, write, hw, bind, Except.bind] at hwritten
    | ok target =>
      split at hwritten
      · exact content?_append_of_ne hw hwritten (hother target hw)
      · exact content?_write_of_ne hw hwritten (hother target hw)
  · rfl

end ProximityLab.FileSystem
