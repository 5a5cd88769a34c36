import DocumentHost.Host.World

/-!
# Descriptors: invalidation and validity

An invalid descriptor stays invalid and takes along the descriptors that were
made dependent on it.  A descriptor is valid if neither it nor anything it
depends on has been invalidated or dropped, and if the files behind them have
not been modified since they were read.  The search visits every descriptor
once and gives up on chains beyond a limit.
-/

namespace DocumentHost

/-- The longest chain of dependencies that is followed. -/
def dependencyLimit : Nat := 128

namespace Descriptor

/-- Mark as invalid; the dependents have been taken out. -/
def invalidate (descriptor : Descriptor) : Descriptor :=
  { descriptor with invalidated := true, dependents := [] }

/-- The work that invalidating a descriptor still takes. -/
def weight (descriptor : Descriptor) : Nat :=
  if descriptor.invalidated then 0 else descriptor.dependents.length + 1

end Descriptor

/-- All descriptors of a host. -/
abbrev Descriptors := Arena .descriptor Descriptor

namespace Descriptors

/-- Whether an identity is that of a descriptor that can become invalid: it exists,
somebody holds it, and it is not invalid yet. -/
def canInvalidate (descriptors : Descriptors) (id : DescriptorId) : Bool :=
  id.index < descriptors.size && !(descriptors.get id).invalidated &&
    !(descriptors.get id).dropped

/-- The work that invalidating all descriptors would take. -/
def weight (descriptors : Descriptors) : Nat :=
  descriptors.items.foldr (fun descriptor total => descriptor.weight + total) 0

theorem foldr_weight_modify (items : List Descriptor) {index : Nat}
    (known : index < items.length) (valid : items[index].invalidated = false) :
    (items.modify index Descriptor.invalidate).foldr
          (fun descriptor total => descriptor.weight + total) 0 +
        (items[index].dependents.length + 1) =
      items.foldr (fun descriptor total => descriptor.weight + total) 0 := by
  induction items generalizing index with
  | nil => simp at known
  | cons item items ih =>
      cases index with
      | zero =>
          simp only [List.getElem_cons_zero] at valid
          simp [Descriptor.weight, Descriptor.invalidate, valid]
          omega
      | succ index =>
          have rest := @ih index (by simpa using known) (by simpa using valid)
          simp only [List.modify_succ_cons, List.foldr_cons, List.getElem_cons_succ]
          omega

theorem weight_invalidate {descriptors : Descriptors} {id : DescriptorId}
    (possible : descriptors.canInvalidate id = true) :
    weight (descriptors.modify id Descriptor.invalidate) +
        ((descriptors.get id).dependents.length + 1) =
      weight descriptors := by
  simp only [canInvalidate, Bool.and_eq_true, Bool.not_eq_true'] at possible
  obtain ⟨⟨inArena, valid⟩, _⟩ := possible
  have known : id.index < descriptors.items.length := of_decide_eq_true inArena
  have found : descriptors.get id = descriptors.items[id.index] := by
    simp [Arena.get, List.getD, known]
  rw [found] at valid ⊢
  exact foldr_weight_modify descriptors.items known valid

/-- Invalidate the descriptors of a list and all that depend on them. -/
def invalidateAll : List DescriptorId → Descriptors → Descriptors
  | [], descriptors => descriptors
  | id :: pending, descriptors =>
      if descriptors.canInvalidate id then
        invalidateAll ((descriptors.get id).dependents ++ pending)
          (descriptors.modify id Descriptor.invalidate)
      else invalidateAll pending descriptors
termination_by pending descriptors => pending.length + weight descriptors
decreasing_by
  · rename_i possible
    have lighter := weight_invalidate possible
    simp only [List.length_append, List.length_cons]
    omega
  · simp only [List.length_cons]
    omega

end Descriptors

namespace World

/-- Invalidate a descriptor and all that depend on it. -/
def invalidate (world : World) (id : DescriptorId) : World :=
  { world with descriptors := Descriptors.invalidateAll [id] world.descriptors }

/-- Record that a descriptor depends on another one. -/
def linkDependency (world : World) (id dependency : DescriptorId) : World :=
  world.modifyDescriptor id fun descriptor =>
    if dependency ∈ descriptor.dependencies then descriptor
    else { descriptor with dependencies := descriptor.dependencies ++ [dependency] }

/-- Let a descriptor become invalid together with another one, at once if that one is
invalid already. -/
def linkDependent (world : World) (id dependent : DescriptorId) : World :=
  let linked := world.modifyDescriptor id fun descriptor =>
    { descriptor with dependents := descriptor.dependents ++ [dependent] }
  if (linked.descriptors.get id).invalidated then linked.invalidate dependent else linked

/-- The dependencies of a descriptor that somebody still holds. -/
def liveDependencies (world : World) (id : DescriptorId) : List DescriptorId :=
  (world.descriptors.get id).dependencies.filter fun dependency =>
    !(world.descriptors.get dependency).dropped

/-- Put a compiled form under a key unless there is one, and return the one that
stays. -/
def fillSlot (world : World) (id : DescriptorId) (key : String) (executable : ExecutableId) :
    ExecutableId × World :=
  match (world.descriptors.get id).slots.get? key with
  | some present => (present, world)
  | none =>
      (executable, world.modifyDescriptor id fun descriptor =>
        { descriptor with slots := descriptor.slots.insert key executable })

/-- Make a descriptor. -/
def addDescriptor (world : World) (descriptor : Descriptor) : DescriptorId × World :=
  let (id, descriptors) := world.descriptors.add descriptor
  (id, { world with descriptors })

end World

/-- The keys of the compiled forms, in order. -/
def Descriptor.formKeys (descriptor : Descriptor) : List String :=
  descriptor.slots.sorted.map Prod.fst

/-- Make a descriptor for a text that comes from no file. -/
def newDescriptor {ε : Type} (name partition tag text : String) : HostM ε DescriptorId := do
  let timestamp ← readClock
  let (id, world) := (← get).addDescriptor { name, partition, tag, text, timestamp }
  set world
  return id

/-- Whether the file behind a descriptor is as it was read.  The file is not looked
at more often than the policy says. -/
def fileIsCurrent (id : DescriptorId) (backing : Backing) : HostM DocumentError Bool := do
  if !backing.policy.enabled then return true
  let now ← readClock
  let elapsed := now.nanoseconds - backing.lastChecked.nanoseconds
  if elapsed < backing.policy.interval * 1000000 then return true
  modify fun world => world.modifyDescriptor id fun descriptor =>
    { descriptor with backing := some { backing with lastChecked := now } }
  match (← get).files.modified backing.path with
  | .ok modified => return modified.notAfter backing.modified
  | .error _ => return false

/-- Check descriptors in turn, up to the first that is not valid.  The descriptors
visited are passed along. -/
def judgeEach
    (check : DescriptorId → List DescriptorId →
      HostM DocumentError (Bool × List DescriptorId)) :
    List DescriptorId → List DescriptorId → HostM DocumentError (Bool × List DescriptorId)
  | [], visited => pure (true, visited)
  | id :: rest, visited => do
      if ((← get).descriptors.get id).dropped then return (false, visited)
      let (valid, visited) ← check id visited
      if valid then judgeEach check rest visited else return (false, visited)

/-- Check a descriptor while chains of `levels` more descriptors may be followed.  A
descriptor that has been visited counts as valid: its own visit decides. -/
def judgeWithin : (levels : Nat) → DescriptorId → List DescriptorId →
    HostM DocumentError (Bool × List DescriptorId)
  | 0, id, _ => do throw (.dependencyLoop ((← get).descriptors.get id).name)
  | levels + 1, id, visited => do
      let descriptor := (← get).descriptors.get id
      if descriptor.invalidated then return (false, visited)
      if visited.contains id then return (true, visited)
      let (sound, visited) ←
        judgeEach (judgeWithin levels) descriptor.dependencies (id :: visited)
      let current ←
        if sound then
          match ((← get).descriptors.get id).backing with
          | some backing => fileIsCurrent id backing
          | none => pure true
        else pure false
      if !current then modify fun world => world.invalidate id
      return (current, visited)

/-- Whether a descriptor is valid. -/
def isValid (id : DescriptorId) : HostM DocumentError Bool := do
  return (← judgeWithin (dependencyLimit + 1) id []).1

end DocumentHost
