/-!
# Tables by name

A table gives each name at most one entry and keeps the names in the order in
which they were first entered.  The view is `get?`: what each operation does is
said by its effect on the lookups.
-/

namespace DocumentHost

/-- Entries under distinct names. -/
structure NameTable (α : Type) where
  entries : List (String × α) := []
deriving Repr

namespace NameTable

variable {α : Type}

instance : Inhabited (NameTable α) := ⟨{}⟩

/-- The value of the first entry under a name. -/
def findEntry (name : String) : List (String × α) → Option α
  | [] => none
  | (known, held) :: rest => if name = known then some held else findEntry name rest

/-- The entry under a name. -/
def get? (table : NameTable α) (name : String) : Option α :=
  findEntry name table.entries

/-- Replace the entry under a name in place, or add it behind the others. -/
def insertEntry (name : String) (value : α) : List (String × α) → List (String × α)
  | [] => [(name, value)]
  | (known, held) :: rest =>
      if name = known then (known, value) :: rest
      else (known, held) :: insertEntry name value rest

/-- Enter a value under a name. -/
def insert (table : NameTable α) (name : String) (value : α) : NameTable α :=
  ⟨insertEntry name value table.entries⟩

/-- Remove the entry under a name. -/
def erase (table : NameTable α) (name : String) : NameTable α :=
  ⟨table.entries.filter fun entry => entry.1 ≠ name⟩

/-- Keep the entries whose value passes a test. -/
def retain (table : NameTable α) (keep : α → Bool) : NameTable α :=
  ⟨table.entries.filter fun entry => keep entry.2⟩

/-- The names in use. -/
def names (table : NameTable α) : List String :=
  table.entries.map Prod.fst

/-- The values held. -/
def values (table : NameTable α) : List α :=
  table.entries.map Prod.snd

/-- The entries in the order of their names. -/
def sorted (table : NameTable α) : List (String × α) :=
  table.entries.mergeSort fun first second => decide (first.1 ≤ second.1)

/-- The first name, in order, of a value. -/
def nameOf? [DecidableEq α] (table : NameTable α) (value : α) : Option String :=
  (table.sorted.find? fun entry => entry.2 = value).map Prod.fst

/-- Enter all of a list, a later entry replacing an earlier one of its name. -/
def ofList (entries : List (String × α)) : NameTable α :=
  entries.foldl (fun table entry => table.insert entry.1 entry.2) {}

theorem findEntry_insertEntry (name other : String) (value : α)
    (entries : List (String × α)) :
    findEntry other (insertEntry name value entries) =
      if other = name then some value else findEntry other entries := by
  induction entries with
  | nil => simp [insertEntry, findEntry]
  | cons entry rest ih =>
      obtain ⟨known, held⟩ := entry
      by_cases found : name = known
      · subst found
        by_cases same : other = name <;> simp [insertEntry, findEntry, same]
      · by_cases here : other = known
        · subst here
          have differs : ¬other = name := fun same => found same.symm
          simp [insertEntry, findEntry, found, differs]
        · simp [insertEntry, findEntry, found, here, ih]

theorem get?_insert (table : NameTable α) (name other : String) (value : α) :
    (table.insert name value).get? other = if other = name then some value else table.get? other :=
  findEntry_insertEntry name other value table.entries

@[simp]
theorem get?_insert_self (table : NameTable α) (name : String) (value : α) :
    (table.insert name value).get? name = some value := by
  rw [get?_insert, if_pos rfl]

theorem get?_insert_of_ne (table : NameTable α) {name other : String} (value : α)
    (differs : other ≠ name) : (table.insert name value).get? other = table.get? other := by
  rw [get?_insert, if_neg differs]

theorem findEntry_filter_name (name other : String) (entries : List (String × α)) :
    findEntry other (entries.filter fun entry => decide (entry.1 ≠ name)) =
      if other = name then none else findEntry other entries := by
  induction entries with
  | nil => simp [findEntry]
  | cons entry rest ih =>
      obtain ⟨known, held⟩ := entry
      rw [List.filter_cons]
      by_cases removed : known = name
      · subst removed
        rw [if_neg (by simp), ih]
        by_cases same : other = known <;> simp [findEntry, same]
      · rw [if_pos (by simpa using removed)]
        by_cases here : other = known
        · subst here
          simp [findEntry, removed]
        · simp only [findEntry, here, if_false, ih]

@[simp]
theorem get?_erase_self (table : NameTable α) (name : String) :
    (table.erase name).get? name = none := by
  simp only [get?, erase, findEntry_filter_name, if_true]

theorem get?_erase_of_ne (table : NameTable α) {name other : String} (differs : other ≠ name) :
    (table.erase name).get? other = table.get? other := by
  simp only [get?, erase, findEntry_filter_name, differs, if_false]

end NameTable

end DocumentHost
