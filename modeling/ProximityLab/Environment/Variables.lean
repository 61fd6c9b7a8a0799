/-!
# Variables

`Variables` maps names to values. The entries are kept in the order of their names, each name once,
so equal maps are equal values and the order in which variables were set does not show.

`get?_set_self` and `get?_set_of_ne` say what a variable is after one was set.
-/

namespace ProximityLab

/-- A map from names to values, in the order of the names. -/
structure Variables where
  entries : List (String × String)
  sorted : entries.Pairwise fun a b => a.1 < b.1
  deriving DecidableEq

namespace Variables

/-- No variables. -/
def empty : Variables := ⟨[], .nil⟩

instance : Inhabited Variables := ⟨empty⟩

/-- Puts an entry in its place; it replaces one of the same name. -/
def insertEntry (name value : String) : List (String × String) → List (String × String)
  | [] => [(name, value)]
  | e :: es =>
    if name < e.1 then (name, value) :: e :: es
    else if name = e.1 then (name, value) :: es
    else e :: insertEntry name value es

theorem mem_insertEntry {name value : String} {e : String × String} {es : List (String × String)}
    (h : e ∈ insertEntry name value es) : e = (name, value) ∨ e ∈ es := by
  induction es with
  | nil => simp_all [insertEntry]
  | cons d ds ih => grind [insertEntry]

theorem sorted_insertEntry (name value : String) {es : List (String × String)}
    (h : es.Pairwise fun a b => a.1 < b.1) :
    (insertEntry name value es).Pairwise fun a b => a.1 < b.1 := by
  induction es with
  | nil => simp [insertEntry]
  | cons d ds ih =>
    have hd := List.pairwise_cons.1 h
    have ih := ih hd.2
    rw [insertEntry]
    split
    · rename_i hlt
      refine List.pairwise_cons.2 ⟨fun e he => ?_, h⟩
      rcases List.mem_cons.1 he with rfl | he
      · exact hlt
      · exact String.lt_trans hlt (hd.1 e he)
    · split
      · rename_i heq
        exact List.pairwise_cons.2 ⟨fun e he => heq ▸ hd.1 e he, hd.2⟩
      · refine List.pairwise_cons.2 ⟨fun e he => ?_, ih⟩
        rcases mem_insertEntry he with rfl | he
        · grind
        · exact hd.1 e he

/-- The map in which a variable has a value. -/
def set (v : Variables) (name value : String) : Variables :=
  ⟨insertEntry name value v.entries, sorted_insertEntry name value v.sorted⟩

/-- The map of a list of entries; the last entry of a name counts. -/
def ofList (es : List (String × String)) : Variables :=
  es.foldl (fun v e => v.set e.1 e.2) empty

/-- The value of a variable. -/
def get? (v : Variables) (name : String) : Option String :=
  (v.entries.find? (·.1 == name)).map (·.2)

theorem find?_insertEntry_self (name value : String) (es : List (String × String)) :
    (insertEntry name value es).find? (·.1 == name) = some (name, value) := by
  induction es with
  | nil => simp [insertEntry]
  | cons d ds ih =>
    rw [insertEntry]
    split
    · simp
    · split
      · simp
      · rename_i hne
        rw [List.find?_cons_of_neg (by simpa using Ne.symm hne), ih]

theorem find?_insertEntry_of_ne {name value other : String} (h : other ≠ name)
    (es : List (String × String)) :
    (insertEntry name value es).find? (·.1 == other) = es.find? (·.1 == other) := by
  induction es with
  | nil => simp [insertEntry, Ne.symm h]
  | cons d ds ih => grind [insertEntry]

@[simp] theorem get?_set_self (v : Variables) (name value : String) :
    (v.set name value).get? name = some value := by
  simp [get?, set, find?_insertEntry_self]

theorem get?_set_of_ne (v : Variables) {name value other : String} (h : other ≠ name) :
    (v.set name value).get? other = v.get? other := by
  simp [get?, set, find?_insertEntry_of_ne h]

/-- The entries for people to read. -/
def text (v : Variables) : String :=
  "\x7b" ++ ", ".intercalate (v.entries.map fun e => e.1 ++ "=" ++ e.2) ++ "\x7d"

end Variables

end ProximityLab
