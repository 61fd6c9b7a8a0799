import ProximityLab.Proofs.Snapshot.Store

/-!
# Data files saved again and again

- **One save** (`saving`): directories are made, and then the data file is replaced or nothing else
  happens. So a save that fails leaves the content of every file, and what could be loaded before
  can be loaded after it (`load_of_grows`).
- **Many saves** (`saveAll`): between saves nothing is lost, so the data file holds the log of the
  list that was saved last, however many saves have failed since (`latest_saveAll`).
- **All of it** (`save_replaces`): saving is all or nothing, and loading gives back what was saved
  last.
-/

namespace ProximityLab.Store

variable {fs fs' : FileSystem} {path : String} {ss : List Snapshot}

/-! ## One save -/

theorem grows_makeRoom (fs : FileSystem) (path : String) : fs.Grows (makeRoom fs path).2 := by
  unfold makeRoom
  split
  · rename_i dir _
    exact fs.grows_makeDirs dir
  · exact .refl fs

/-- The ways that saving can go, with its result and the files that it leaves. -/
inductive Saving (fs : FileSystem) (path : String) (ss : List Snapshot) :
    Except StoreError Unit → FileSystem → Prop where
  | saved {made : FileSystem} {p : Place} (hmade : fs.Grows made)
      (hp : made.writable path = .ok p) :
      Saving fs path ss (.ok ()) (made.put p (Text.encode (Snapshot.toLog ss)))
  | failed {made : FileSystem} (cause : StoreError) (hmade : fs.Grows made) :
      Saving fs path ss (.error cause) made

theorem saving (fs : FileSystem) (path : String) (ss : List Snapshot) :
    Saving fs path ss (save fs path ss).1 (save fs path ss).2 := by
  have hmade := grows_makeRoom fs path
  unfold save
  rcases hroom : makeRoom fs path with ⟨cause | _, made⟩ <;> rw [hroom] at hmade
  · exact .failed cause hmade
  · dsimp only
    cases hp : made.writable path with
    | error failure =>
      have hwrite : made.write path (Text.encode (Snapshot.toLog ss)) = .error failure := by
        rw [FileSystem.write, hp]
        rfl
      rw [hwrite]
      exact .failed _ hmade
    | ok p =>
      rw [FileSystem.write_of_writable hp]
      exact .saved hmade hp

/-- A save replaces what stands at the path, and nothing else. -/
theorem content?_save (h : save fs path ss = (.ok (), fs')) : ∃ p, fs'.place path = .ok p ∧
    fs'.content? p = some (Text.encode (Snapshot.toLog ss)) ∧
    ∀ q ≠ p, fs'.content? q = fs.content? q := by
  have hsaving := saving fs path ss
  rw [h] at hsaving
  cases hsaving with
  | @saved made p hmade hp =>
    refine ⟨p, FileSystem.place_put (FileSystem.writable_eq_ok hp).1,
      FileSystem.content?_put_self .., fun q hq => ?_⟩
    exact (made.content?_put_of_ne hq _).trans (hmade.content?_eq q)

/-- A save that fails makes directories at most. -/
theorem grows_of_save_error {cause : StoreError} (h : save fs path ss = (.error cause, fs')) :
    fs.Grows fs' := by
  have hsaving := saving fs path ss
  rw [h] at hsaving
  cases hsaving with
  | failed _ hmade => exact hmade

/-- Directories that were made are not in the way of loading. -/
theorem load_of_grows (h : fs.Grows fs') (hload : load fs path = .ok ss) :
    load fs' path = .ok ss := by
  cases hread : fs.read path with
  | error failure =>
    simp [load, FileSystem.readText, hread, bind, Except.bind, Except.mapError] at hload
  | ok bytes =>
    rw [load, FileSystem.readText, hread] at hload
    rw [load, FileSystem.readText, h.read_eq hread]
    exact hload

/-! ## Many saves -/

/-- One more save. What comes first is the list that was saved last, if any was. -/
def saveNext (path : String) (s : Option (List Snapshot) × FileSystem) (ss : List Snapshot) :
    Option (List Snapshot) × FileSystem :=
  match save s.2 path ss with
  | (.ok (), fs) => (some ss, fs)
  | (.error _, fs) => (s.1, fs)

/-- Saves lists one after the other, and goes on if one cannot be saved. -/
def saveAll (path : String) (fs : FileSystem) (lists : List (List Snapshot)) :
    Option (List Snapshot) × FileSystem :=
  lists.foldl (saveNext path) (none, fs)

/-- The data file holds the log of the list that was saved last. -/
def Latest (path : String) (s : Option (List Snapshot) × FileSystem) : Prop :=
  ∀ ss ∈ s.1, s.2.read path = .ok (Text.encode (Snapshot.toLog ss))

theorem latest_saveNext {s : Option (List Snapshot) × FileSystem} (h : Latest path s)
    (ss : List Snapshot) :
    Latest path (saveNext path s ss) := by
  unfold saveNext
  split
  · rename_i fs' hsave
    rintro _ ⟨⟩
    exact read_save hsave
  · rename_i cause fs' hsave
    intro last hlast
    exact (grows_of_save_error hsave).read_eq (h last hlast)

theorem latest_saveAll (path : String) (fs : FileSystem) (lists : List (List Snapshot)) :
    Latest path (saveAll path fs lists) := by
  have hrun : ∀ s, Latest path s → Latest path (lists.foldl (saveNext path) s) := by
    induction lists with
    | nil => exact fun s h => h
    | cons ss lists ih => exact fun s h => ih _ (latest_saveNext h ss)
  exact hrun _ nofun

/-! ## All of it -/

/-- **Saving is all or nothing.** A save that succeeds leaves at the path the log of just what was
saved, whatever was there, changes no other file, and lets storable snapshots be loaded again. A
save that fails changes no file, and what could be loaded still can. After any saves of which one
has succeeded, the list that was saved last is loaded. -/
theorem save_replaces (path : String) :
    (∀ fs ss fs', save fs path ss = (.ok (), fs') →
      (∃ p, fs'.place path = .ok p ∧ fs'.content? p = some (Text.encode (Snapshot.toLog ss)) ∧
        ∀ q ≠ p, fs'.content? q = fs.content? q) ∧
      ((∀ s ∈ ss, s.Storable) → load fs' path = .ok ss)) ∧
    (∀ fs ss cause fs', save fs path ss = (.error cause, fs') →
      (∀ q, fs'.content? q = fs.content? q) ∧
      ∀ old, load fs path = .ok old → load fs' path = .ok old) ∧
    ∀ fs lists ss fs', saveAll path fs lists = (some ss, fs') → (∀ s ∈ ss, s.Storable) →
      load fs' path = .ok ss := by
  refine ⟨fun fs ss fs' h => ⟨content?_save h, load_of_storables (read_save h)⟩,
    fun fs ss cause fs' h => ?_, fun fs lists ss fs' h => ?_⟩
  · have hgrows := grows_of_save_error h
    exact ⟨hgrows.content?_eq, fun old => load_of_grows hgrows⟩
  · have hlatest := latest_saveAll path fs lists
    rw [h] at hlatest
    exact load_of_storables (hlatest ss rfl)

/-- The data file can be written only once: the first list stays. Below a file there is no place for
a data file, and the file is as it was. -/
theorem save_replaces_once :
    let fs : FileSystem :=
      { FileSystem.empty with files := [(["f"], [62])], locked := [["logs", "exp.log"]] }
    let s := saveAll "logs/exp.log" fs [[.filled], []]
    (s.1 = some [.filled] ∧ load s.2 "logs/exp.log" = .ok [.filled]) ∧
      (save fs "f/exp.log" [.filled]).1 = .error (.write "f" .exists) ∧
        (save fs "f/exp.log" [.filled]).2.content? ["f"] = some [62] := by
  intro fs s
  have hlast : s.1 = some [.filled] := by decide +kernel
  have herror : (save fs "f/exp.log" [.filled]).1 = .error (.write "f" .exists) := by decide +kernel
  refine ⟨⟨hlast, ?_⟩, herror, ?_⟩
  · exact (save_replaces "logs/exp.log").2.2 fs _ [.filled] s.2 (Prod.ext hlast rfl)
      (by simpa using Snapshot.storable_filled)
  · exact ((save_replaces "f/exp.log").2.1 fs [.filled] _ _ (Prod.ext herror rfl)).1 ["f"]

end ProximityLab.Store
