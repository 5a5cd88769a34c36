import DocumentHost.Proofs.Host.Surroundings

/-!
# Quiet changes

Many changes of the state of a host have nothing to do with its contexts, adapters and
executables: time passes, descriptors and documents change, globals are set.  Such a change
does the same in two states that differ in their contexts.
-/

namespace DocumentHost

/-- A change that neither looks at contexts nor touches them, adapters, registries,
executables, or the current context. -/
structure Quiet (change : World → World) : Prop where
  contexts : ∀ world contexts,
    change { world with contexts } = { change world with contexts }
  adapters : ∀ world, (change world).adapters = world.adapters
  registries : ∀ world, (change world).registries = world.registries
  executables : ∀ world, (change world).executables = world.executables
  current : ∀ world, (change world).current = world.current

namespace Quiet

theorem contexts_eq {change : World → World} (quiet : Quiet change) (world : World) :
    (change world).contexts = world.contexts := by
  have same := congrArg World.contexts (quiet.contexts world world.contexts)
  exact same

/-- What changes documents without a look at the surroundings is quiet. -/
theorem of_bookkeeping {change : World → World} (bookkeeping : Bookkeeping change) :
    Quiet change where
  contexts world contexts := by
    have otherwise := bookkeeping.within world { world.surroundings with contexts }
    rw [show world.within { world.surroundings with contexts } = { world with contexts } from rfl]
      at otherwise
    rw [otherwise, ← bookkeeping.surroundings_eq world]
    rfl
  adapters := bookkeeping.adapters
  registries := bookkeeping.registries
  executables := bookkeeping.executables
  current world := congrArg Surroundings.current (bookkeeping.surroundings_eq world)

theorem noteAll (texts : List String) : Quiet (World.noteAll · texts) :=
  ⟨fun _ _ => rfl, fun _ => rfl, fun _ => rfl, fun _ => rfl, fun _ => rfl⟩

theorem hold (holdings : Holdings) : Quiet ({ · with holdings }) :=
  ⟨fun _ _ => rfl, fun _ => rfl, fun _ => rfl, fun _ => rfl, fun _ => rfl⟩

theorem setDepth (includeDepth : Nat) : Quiet ({ · with includeDepth }) :=
  ⟨fun _ _ => rfl, fun _ => rfl, fun _ => rfl, fun _ => rfl, fun _ => rfl⟩

theorem setGlobals (globals : NameTable Json) : Quiet ({ · with globals }) :=
  ⟨fun _ _ => rfl, fun _ => rfl, fun _ => rfl, fun _ => rfl, fun _ => rfl⟩

theorem setSinks (sinks : Arena .sink Sink) : Quiet ({ · with sinks }) :=
  ⟨fun _ _ => rfl, fun _ => rfl, fun _ => rfl, fun _ => rfl, fun _ => rfl⟩

theorem linkDependency (id dependency : DescriptorId) :
    Quiet (World.linkDependency · id dependency) :=
  of_bookkeeping (.modifyDescriptor id _)

end Quiet

end DocumentHost
