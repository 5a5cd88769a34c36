import DocumentHost.Host.Context

/-!
# What is still held

Objects live as long as somebody holds them.  A source holds its descriptors, a
descriptor its compiled forms, and an executable the contexts that can be
entered; the current context is held too, and everything else is held from
outside or by an operation that has not ended.  A context that nobody holds any
longer is released, and a descriptor that nobody holds counts as dropped.
-/

namespace DocumentHost

namespace World

/-- The descriptors that are held. -/
def heldDescriptors (world : World) : List DescriptorId :=
  world.holdings.descriptors ++ world.source.elim [] fun source => source.documents.values

/-- The executables that are held. -/
def heldExecutables (world : World) : List ExecutableId :=
  world.holdings.executables ++
    world.heldDescriptors.flatMap fun id => (world.descriptors.get id).slots.values

/-- The contexts that are held. -/
def heldContexts (world : World) : List ContextId :=
  world.holdings.contexts ++ world.current.toList ++
    world.heldExecutables.flatMap fun id => (world.executables.get id).enterable.values

/-- Release the contexts that nobody holds any longer. -/
def releaseUnheld (world : World) : World :=
  let held := world.heldContexts
  (world.contexts.ids.filter fun id => !held.contains id).foldl dropContext world

/-- Let go of everything that is not held. -/
def reclaim (world : World) : World :=
  let held := world.heldDescriptors
  ((world.descriptors.ids.filter fun id => !held.contains id).foldl
    (fun marked id => marked.modifyDescriptor id fun descriptor =>
      { descriptor with dropped := true })
    world).releaseUnheld

end World

/-- Carry out an operation for which more is kept.  Afterwards that is let go of, however
the operation ends. -/
def keeping {ε α : Type} (more : Holdings) (action : HostM ε α) : HostM ε α := do
  let outcome ← (holding more action).attempt
  modify World.releaseUnheld
  HostM.ofExcept outcome

end DocumentHost
