/-!
# Arenas

The objects of a host have an identity beside their value: two contexts with
equal contents are still two contexts.  An arena keeps the objects of one kind,
an identity is a place in it, and the kind is part of the identity's type.
Places are never reused.
-/

namespace DocumentHost

/-- The kinds of objects that have an identity. -/
inductive Kind where
  | adapter
  | registry
  | executable
  | context
  | descriptor
  | sink
deriving DecidableEq, Repr

/-- The identity of an object of one kind. -/
structure Identity (kind : Kind) where
  index : Nat
deriving DecidableEq, Repr, Inhabited

/-- The objects of one kind, in the order in which they were made. -/
structure Arena (kind : Kind) (α : Type) where
  items : List α := []

namespace Arena

variable {kind : Kind} {α : Type}

instance : Inhabited (Arena kind α) := ⟨{}⟩

/-- The number of objects made so far. -/
def size (arena : Arena kind α) : Nat :=
  arena.items.length

/-- The object of an identity; an identity of no object gives the default. -/
def get [Inhabited α] (arena : Arena kind α) (id : Identity kind) : α :=
  arena.items.getD id.index default

/-- Make an object. -/
def add (arena : Arena kind α) (item : α) : Identity kind × Arena kind α :=
  (⟨arena.items.length⟩, ⟨arena.items ++ [item]⟩)

/-- Change the object of an identity. -/
def modify (arena : Arena kind α) (id : Identity kind) (change : α → α) : Arena kind α :=
  ⟨arena.items.modify id.index change⟩

/-- The identities of all objects, oldest first. -/
def ids (arena : Arena kind α) : List (Identity kind) :=
  (List.range arena.items.length).map Identity.mk

@[simp]
theorem size_modify (arena : Arena kind α) (id : Identity kind) (change : α → α) :
    (arena.modify id change).size = arena.size := by
  simp [size, modify]

@[simp]
theorem size_add (arena : Arena kind α) (item : α) :
    (arena.add item).2.size = arena.size + 1 := by
  simp [size, add]

theorem get_modify_self [Inhabited α] (arena : Arena kind α) {id : Identity kind}
    (change : α → α) (known : id.index < arena.size) :
    (arena.modify id change).get id = change (arena.get id) := by
  simp only [size] at known
  simp [get, modify, List.getD, known]

theorem get_modify_of_ne [Inhabited α] (arena : Arena kind α) {id other : Identity kind}
    (change : α → α) (differs : other ≠ id) :
    (arena.modify id change).get other = arena.get other := by
  have indexDiffers : id.index ≠ other.index := fun same =>
    differs (by cases id; cases other; simp_all)
  simp [get, modify, List.getD, indexDiffers]

@[simp]
theorem get_add_self [Inhabited α] (arena : Arena kind α) (item : α) :
    (arena.add item).2.get (arena.add item).1 = item := by
  simp [get, add]

theorem get_add_of_lt [Inhabited α] (arena : Arena kind α) (item : α) {id : Identity kind}
    (known : id.index < arena.size) : (arena.add item).2.get id = arena.get id := by
  simp only [size] at known
  simp [get, add, List.getD, List.getElem?_append_left known]

/-! An identity of no object gives the default, also where something is made or changed. -/

theorem get_of_unknown [Inhabited α] (arena : Arena kind α) {id : Identity kind}
    (unknown : ¬id.index < arena.size) : arena.get id = default := by
  simp only [size, Nat.not_lt] at unknown
  simp [get, List.getD, unknown]

theorem modify_of_unknown (arena : Arena kind α) {id : Identity kind} (change : α → α)
    (unknown : ¬id.index < arena.size) : arena.modify id change = arena := by
  simp only [size, Nat.not_lt] at unknown
  simp [modify, List.modify_eq_self unknown]

theorem get_modify [Inhabited α] (arena : Arena kind α) (id other : Identity kind)
    (change : α → α) : (arena.modify id change).get other =
      if other = id ∧ id.index < arena.size then change (arena.get id) else arena.get other := by
  by_cases known : id.index < arena.size
  · by_cases here : other = id
    · rw [if_pos ⟨here, known⟩, here, get_modify_self _ _ known]
    · rw [if_neg fun both => here both.1, get_modify_of_ne _ _ here]
  · rw [if_neg fun both => known both.2, modify_of_unknown _ _ known]

/-- An identity that stands for an object now, but did not before, is the one that was made. -/
theorem eq_fst_add_of_new {arena : Arena kind α} {item : α} {id : Identity kind}
    (new : ¬id.index < arena.size) (known : id.index < (arena.add item).2.size) :
    id = (arena.add item).1 := by
  rw [size_add] at known
  have last : id.index = arena.size := by omega
  cases id
  exact congrArg Identity.mk last

/-- An object that was not there before is the one that has been made. -/
theorem get_add_of_new [Inhabited α] {arena : Arena kind α} {item : α} {id : Identity kind}
    (new : ¬id.index < arena.size) (known : id.index < (arena.add item).2.size) :
    (arena.add item).2.get id = item := by
  rw [eq_fst_add_of_new new known, get_add_self]

theorem get_add [Inhabited α] (arena : Arena kind α) (item : α) (id : Identity kind) :
    (arena.add item).2.get id = if id = (arena.add item).1 then item else arena.get id := by
  by_cases new : id = (arena.add item).1
  · rw [if_pos new, new, get_add_self]
  · rw [if_neg new]
    by_cases known : id.index < arena.size
    · exact get_add_of_lt _ _ known
    · have beyond : ¬id.index < (arena.add item).2.size := fun lower =>
        new (eq_fst_add_of_new known lower)
      rw [get_of_unknown _ beyond, get_of_unknown _ known]

end Arena

/-- The identity of a language adapter. -/
abbrev AdapterId := Identity .adapter

/-- The identity of a registry of adapters. -/
abbrev RegistryId := Identity .registry

/-- The identity of a compiled document. -/
abbrev ExecutableId := Identity .executable

/-- The identity of an execution context. -/
abbrev ContextId := Identity .context

/-- The identity of a document descriptor. -/
abbrev DescriptorId := Identity .descriptor

/-- The identity of an output sink. -/
abbrev SinkId := Identity .sink

end DocumentHost
