import ProximityLab.FileSystem.Path
import ProximityLab.Text.Utf8

/-!
# Files and directories

A `FileSystem` holds the files and directories below a working directory, each at a `Place`: the
names that lead to it. Every file that is there can be read; writing may be denied. Operations take
paths and fail with a `FileError`, in which case nothing has changed.

* `content?_write_self`, `content?_write_of_ne`: writing a file changes that file only.
* `grows_makeDirs`: making directories makes directories and changes nothing else, no file above all
  (`content?_makeDirs`).
-/

namespace ProximityLab

/-- Why an operation on files failed. -/
inductive FileError where
  | notFound
  | denied
  | exists
  | notDirectory
  | isDirectory
  /-- The content is not text. -/
  | notText
  deriving DecidableEq

/-- The failure for people to read. -/
def FileError.message : FileError → String
  | .notFound => "No such file or directory (os error 2)"
  | .denied => "Permission denied (os error 13)"
  | .exists => "File exists (os error 17)"
  | .notDirectory => "Not a directory (os error 20)"
  | .isDirectory => "Is a directory (os error 21)"
  | .notText => "stream did not contain valid UTF-8"

/-- The names that lead from the working directory to a file or directory. -/
abbrev Place := List String

/-- Content that goes into a file, behind what is there or in its place. -/
structure FileWrite where
  path : String
  bytes : List UInt8
  behind : Bool
  deriving DecidableEq

/-- Files and directories below a working directory. -/
structure FileSystem where
  files : List (Place × List UInt8)
  dirs : List Place
  /-- Files that cannot be written and directories that nothing can be created in. -/
  locked : List Place

namespace FileSystem

/-- An empty working directory. -/
def empty : FileSystem := ⟨[], [], []⟩

instance : Inhabited FileSystem := ⟨empty⟩

/-- The content of the file at a place. -/
def content? (fs : FileSystem) (p : Place) : Option (List UInt8) :=
  (fs.files.find? (·.1 == p)).map (·.2)

/-- A directory is at a place. The working directory and the root are always there. -/
def isDir (fs : FileSystem) (p : Place) : Bool := p.isEmpty || p == ["/"] || fs.dirs.contains p

/-- Follows steps through directories. -/
def follow (fs : FileSystem) (here : Place) : List String → Except FileError Place
  | [] => .ok here
  | "." :: steps => fs.follow here steps
  | ".." :: steps => fs.follow here.dropLast steps
  | name :: steps =>
    let next := here ++ [name]
    if fs.isDir next then fs.follow next steps
    else if (fs.content? next).isSome then .error .notDirectory
    else .error .notFound

/-- Where a path starts. -/
def origin (path : String) : Place := if Path.isAbsolute path then ["/"] else []

/-- The place that a path denotes, whether or not anything is there; what leads to it has to be. -/
def place (fs : FileSystem) (path : String) : Except FileError Place :=
  match (Path.steps path).getLast? with
  | none => if path.isEmpty then .error .notFound else .ok (origin path)
  | some name => do
    let parent ← fs.follow (origin path) (Path.steps path).dropLast
    if name = "." then return parent
    else if name = ".." then return parent.dropLast
    else return parent ++ [name]

/-- A directory is at a path. -/
def isDirAt (fs : FileSystem) (path : String) : Bool :=
  match fs.place path with
  | .ok p => fs.isDir p
  | .error _ => false

/-- The content of the file at a path. -/
def read (fs : FileSystem) (path : String) : Except FileError (List UInt8) := do
  let p ← fs.place path
  match fs.content? p with
  | some bytes => if Path.endsInDirectory path then .error .notDirectory else .ok bytes
  | none => if fs.isDir p then .error .isDirectory else .error .notFound

/-- The text in the file at a path. -/
def readText (fs : FileSystem) (path : String) : Except FileError String := do
  match Text.decode? (← fs.read path) with
  | some text => .ok text
  | none => .error .notText

/-- Puts content at a place. -/
def put (fs : FileSystem) (p : Place) (bytes : List UInt8) : FileSystem :=
  if fs.files.any (·.1 == p) then
    { fs with files := fs.files.map fun f => if f.1 == p then (p, bytes) else f }
  else { fs with files := fs.files ++ [(p, bytes)] }

/-- The place that can be written through a path: a file that is there, or a new one. -/
def writable (fs : FileSystem) (path : String) : Except FileError Place := do
  let p ← fs.place path
  if Path.endsInDirectory path || fs.isDir p then .error .isDirectory
  else
    let guard := if (fs.content? p).isSome then p else p.dropLast
    if fs.locked.contains guard then .error .denied else .ok p

/-- Writes the file at a path, replacing what it held. -/
def write (fs : FileSystem) (path : String) (bytes : List UInt8) : Except FileError FileSystem := do
  return fs.put (← fs.writable path) bytes

/-- Writes behind what the file at a path holds. -/
def append (fs : FileSystem) (path : String) (bytes : List UInt8) :
    Except FileError FileSystem := do
  let p ← fs.writable path
  return fs.put p ((fs.content? p).getD [] ++ bytes)

/-- Something is at a path. -/
def existsAt (fs : FileSystem) (path : String) : Bool :=
  match fs.place path with
  | .ok p => fs.isDir p || ((fs.content? p).isSome && !Path.endsInDirectory path)
  | .error _ => false

/-- Puts content into a file if that is possible. -/
def tryWrite (fs : FileSystem) (w : FileWrite) : FileSystem :=
  let written := if w.behind then fs.append w.path w.bytes else fs.write w.path w.bytes
  match written with
  | .ok fs => fs
  | .error _ => fs

/-- Puts contents into files, each if that is possible. -/
def apply (fs : FileSystem) (ws : List FileWrite) : FileSystem := ws.foldl tryWrite fs

/-- Makes one directory. -/
def makeDir (fs : FileSystem) (path : String) : Except FileError FileSystem := do
  let p ← fs.place path
  if fs.isDir p || (fs.content? p).isSome then .error .exists
  else if fs.locked.contains p.dropLast then .error .denied
  else return { fs with dirs := fs.dirs ++ [p] }

/-- Makes one directory unless it is there. -/
def ensureDir (fs : FileSystem) (path : String) : Except FileError Unit × FileSystem :=
  match fs.makeDir path with
  | .ok fs => (.ok (), fs)
  | .error e => (if fs.isDirAt path then .ok () else .error e, fs)

/-- Makes a directory and the directories on the way to it. `fuel` bounds the pieces of the path. -/
def makeDirsWithin (fs : FileSystem) : Nat → String → Except FileError Unit × FileSystem
  | 0, _ => (.ok (), fs)
  | fuel + 1, path =>
    if path.isEmpty then (.ok (), fs)
    else
      match fs.makeDir path, Path.parent? path with
      | .error .notFound, some parent =>
        match fs.makeDirsWithin fuel parent with
        | (.ok (), fs) => fs.ensureDir path
        | failed => failed
      | _, _ => fs.ensureDir path

/-- Makes a directory and the directories on the way to it. If that fails those made before the
failure stay. -/
def makeDirs (fs : FileSystem) (path : String) : Except FileError Unit × FileSystem :=
  fs.makeDirsWithin (path.length + 1) path

/-! ## What operations change -/

theorem content?_put_self (fs : FileSystem) (p : Place) (bytes : List UInt8) :
    (fs.put p bytes).content? p = some bytes := by
  unfold put
  split
  · rename_i h
    obtain ⟨f, hf, he⟩ := List.any_eq_true.1 h
    unfold content?
    generalize fs.files = files at hf
    induction files with
    | nil => simp at hf
    | cons g gs ih =>
      by_cases hg : g.1 = p
      · simp [hg]
      · rcases List.mem_cons.1 hf with rfl | hf
        · exact absurd (by simpa using he) hg
        · simpa [hg] using ih hf
  · rename_i h
    have hn : fs.files.find? (·.1 == p) = none := by
      rw [List.find?_eq_none]
      intro f hf hfp
      exact h (List.any_eq_true.2 ⟨f, hf, hfp⟩)
    simp [content?, List.find?_append, hn]

theorem content?_put_of_ne (fs : FileSystem) {p q : Place} (h : q ≠ p) (bytes : List UInt8) :
    (fs.put p bytes).content? q = fs.content? q := by
  unfold put
  split
  · unfold content?
    generalize fs.files = files
    induction files with
    | nil => rfl
    | cons g gs ih =>
      by_cases hg : g.1 = p
      · simpa [hg, Ne.symm h] using ih
      · by_cases hq : g.1 = q
        · subst hq
          simp [hg]
        · simpa [hg, hq] using ih
  · simp [content?, List.find?_append, Ne.symm h]

theorem content?_write_self {fs fs' : FileSystem} {path : String} {bytes : List UInt8} {p : Place}
    (hp : fs.writable path = .ok p) (h : fs.write path bytes = .ok fs') :
    fs'.content? p = some bytes := by
  simp only [write, hp] at h
  cases h
  exact content?_put_self fs p bytes

theorem content?_write_of_ne {fs fs' : FileSystem} {path : String} {bytes : List UInt8}
    {p q : Place} (hp : fs.writable path = .ok p) (h : fs.write path bytes = .ok fs') (hq : q ≠ p) :
    fs'.content? q = fs.content? q := by
  simp only [write, hp] at h
  cases h
  exact content?_put_of_ne fs hq bytes

/-! ## What making directories changes -/

/-- Directories were made, and nothing else has changed. -/
structure Grows (fs fs' : FileSystem) : Prop where
  files : fs'.files = fs.files
  dirs : fs.dirs <+: fs'.dirs
  locked : fs'.locked = fs.locked

namespace Grows

variable {fs fs' fs'' : FileSystem}

theorem refl (fs : FileSystem) : fs.Grows fs := ⟨rfl, List.prefix_refl _, rfl⟩

theorem trans (h : fs.Grows fs') (h' : fs'.Grows fs'') : fs.Grows fs'' :=
  ⟨h'.files.trans h.files, h.dirs.trans h'.dirs, h'.locked.trans h.locked⟩

theorem content?_eq (h : fs.Grows fs') (p : Place) : fs'.content? p = fs.content? p := by
  rw [content?, content?, h.files]

theorem isDir (h : fs.Grows fs') {p : Place} (hp : fs.isDir p = true) : fs'.isDir p = true := by
  simp only [FileSystem.isDir, Bool.or_eq_true, List.contains_iff_mem] at hp ⊢
  exact hp.imp_right fun hmem => h.dirs.subset hmem

end Grows

theorem grows_makeDir {fs fs' : FileSystem} {path : String} (h : fs.makeDir path = .ok fs') :
    fs.Grows fs' := by
  unfold makeDir at h
  cases hp : fs.place path with
  | error e => simp [hp, bind, Except.bind] at h
  | ok p =>
    simp only [hp, bind, Except.bind, pure, Except.pure] at h
    split at h
    · simp at h
    · split at h
      · simp at h
      · cases h
        exact ⟨rfl, List.prefix_append _ _, rfl⟩

theorem grows_ensureDir (fs : FileSystem) (path : String) : fs.Grows (fs.ensureDir path).2 := by
  unfold ensureDir
  split
  · rename_i fs₁ h₁
    exact grows_makeDir h₁
  · exact .refl fs

theorem grows_makeDirsWithin (fs : FileSystem) (fuel : Nat) (path : String) :
    fs.Grows (fs.makeDirsWithin fuel path).2 := by
  induction fuel generalizing path with
  | zero => exact .refl fs
  | succ fuel ih =>
    unfold makeDirsWithin
    split
    · exact .refl fs
    · split
      · rename_i parent _ _
        have hparent := ih parent
        split
        · rename_i fs₁ h₁
          rw [h₁] at hparent
          exact hparent.trans (grows_ensureDir fs₁ path)
        · exact hparent
      · exact grows_ensureDir fs path

/-- Whether or not all directories can be made, nothing but directories is. -/
theorem grows_makeDirs (fs : FileSystem) (path : String) : fs.Grows (fs.makeDirs path).2 :=
  grows_makeDirsWithin fs _ path

theorem content?_makeDirs (fs : FileSystem) (path : String) (p : Place) :
    (fs.makeDirs path).2.content? p = fs.content? p :=
  (grows_makeDirs fs path).content?_eq p

end FileSystem

end ProximityLab
