import DocumentHost.Host.Source
import DocumentHost.Proofs.Host.Evaluation

/-!
# The surroundings of documents

Adapters, compiled documents, descriptors with their source, files and the time are what a
document is fetched and compiled with.  All else is surroundings: contexts and which of them
is current, sinks, global values, what is held, how deep includes are nested, the journal.
A document source does its bookkeeping without a look at the surroundings.
-/

namespace DocumentHost

/-- What a host has besides what documents are fetched and compiled with. -/
structure Surroundings where
  contexts : Arena .context Context
  sinks : Arena .sink Sink
  globals : NameTable Json
  current : Option ContextId
  holdings : Holdings
  includeDepth : Nat
  journal : List Event

namespace World

/-- The surroundings of a host. -/
def surroundings (world : World) : Surroundings where
  contexts := world.contexts
  sinks := world.sinks
  globals := world.globals
  current := world.current
  holdings := world.holdings
  includeDepth := world.includeDepth
  journal := world.journal

/-- A host in other surroundings. -/
def within (world : World) (around : Surroundings) : World :=
  { world with
    contexts := around.contexts
    sinks := around.sinks
    globals := around.globals
    current := around.current
    holdings := around.holdings
    includeDepth := around.includeDepth
    journal := around.journal }

@[simp]
theorem within_descriptors (world : World) (around : Surroundings) :
    (world.within around).descriptors = world.descriptors :=
  rfl

@[simp]
theorem within_source (world : World) (around : Surroundings) :
    (world.within around).source = world.source :=
  rfl

@[simp]
theorem within_files (world : World) (around : Surroundings) :
    (world.within around).files = world.files :=
  rfl

/-- Two states differ in their surroundings only. -/
def SameStore (world other : World) : Prop :=
  other = world.within other.surroundings

namespace SameStore

variable {world other further : World}

theorem refl (world : World) : SameStore world world :=
  rfl

theorem hold (world : World) (holdings : Holdings) : SameStore world { world with holdings } :=
  rfl

theorem noteAll (world : World) (texts : List String) : SameStore world (world.noteAll texts) :=
  rfl

theorem symm (same : SameStore world other) : SameStore other world := by
  have back : world = (world.within other.surroundings).within world.surroundings := rfl
  rwa [← same] at back

theorem trans (first : SameStore world other) (second : SameStore other further) :
    SameStore world further := by
  have there : (world.within other.surroundings).within further.surroundings =
      world.within further.surroundings := rfl
  rw [← first, ← second] at there
  exact there

end SameStore

end World

/-- A change of documents, descriptors and the time that is made without a look at the
surroundings. -/
structure Bookkeeping (change : World → World) : Prop where
  within : ∀ world around, change (World.within world around) = (change world).within around
  adapters : ∀ world, (change world).adapters = world.adapters
  registries : ∀ world, (change world).registries = world.registries
  executables : ∀ world, (change world).executables = world.executables
  sourced : ∀ world, (change world).source.isNone = world.source.isNone

namespace Bookkeeping

theorem surroundings_eq {change : World → World} (bookkeeping : Bookkeeping change) (world : World) :
    (change world).surroundings = world.surroundings := by
  have unchanged : change world = (change world).within world.surroundings :=
    bookkeeping.within world world.surroundings
  rw [unchanged]
  rfl

theorem tick : Bookkeeping World.tick :=
  ⟨fun _ _ => rfl, fun _ => rfl, fun _ => rfl, fun _ => rfl, fun _ => rfl⟩

theorem modifyDescriptor (id : DescriptorId) (edit : Descriptor → Descriptor) :
    Bookkeeping (World.modifyDescriptor · id edit) :=
  ⟨fun _ _ => rfl, fun _ => rfl, fun _ => rfl, fun _ => rfl, fun _ => rfl⟩

theorem invalidate (id : DescriptorId) : Bookkeeping (World.invalidate · id) :=
  ⟨fun _ _ => rfl, fun _ => rfl, fun _ => rfl, fun _ => rfl, fun _ => rfl⟩

theorem addDescriptor (descriptor : Descriptor) : Bookkeeping fun world =>
    (world.addDescriptor descriptor).2 :=
  ⟨fun _ _ => rfl, fun _ => rfl, fun _ => rfl, fun _ => rfl, fun _ => rfl⟩

/-- The documents of a source are edited; whether there is a source stays as it is. -/
theorem editDocuments (edit : World → NameTable DescriptorId → NameTable DescriptorId)
    (within : ∀ world around, edit (World.within world around) = edit world) :
    Bookkeeping fun world => world.modifyDocuments (edit world) := by
  refine ⟨fun world around => ?_, fun _ => rfl, fun _ => rfl, fun _ => rfl, fun world => ?_⟩
  · rw [within]
    rfl
  · exact Option.isNone_map

theorem modifyDocuments (edit : NameTable DescriptorId → NameTable DescriptorId) :
    Bookkeeping (World.modifyDocuments · edit) :=
  editDocuments (fun _ => edit) fun _ _ => rfl

theorem retainValid : Bookkeeping fun world => world.modifyDocuments fun documents =>
    documents.retain fun id => !(world.descriptors.get id).invalidated :=
  editDocuments _ fun _ _ => rfl

theorem same : Bookkeeping fun world => world :=
  ⟨fun _ _ => rfl, fun _ => rfl, fun _ => rfl, fun _ => rfl, fun _ => rfl⟩

theorem comp {change further : World → World} (bookkeeping : Bookkeeping change)
    (bookkeepingToo : Bookkeeping further) : Bookkeeping fun world => further (change world) where
  within world around := by rw [bookkeeping.within, bookkeepingToo.within]
  adapters world := by rw [bookkeepingToo.adapters, bookkeeping.adapters]
  registries world := by rw [bookkeepingToo.registries, bookkeeping.registries]
  executables world := by rw [bookkeepingToo.executables, bookkeeping.executables]
  sourced world := by rw [bookkeepingToo.sourced, bookkeeping.sourced]

/-- What is changed may depend on the state, but not on its surroundings. -/
theorem of_cases {change : World → World}
    (cases : ∀ world : World, ∃ kept, Bookkeeping kept ∧
      ∀ around, change (world.within around) = kept (world.within around)) :
    Bookkeeping change := by
  have atWorld (world : World) : ∃ kept, Bookkeeping kept ∧ change world = kept world := by
    obtain ⟨kept, bookkeeping, equal⟩ := cases world
    exact ⟨kept, bookkeeping, equal world.surroundings⟩
  constructor
  · intro world around
    obtain ⟨kept, bookkeeping, equal⟩ := cases world
    have unchanged : change world = kept world := equal world.surroundings
    rw [equal, unchanged, bookkeeping.within]
  · intro world
    obtain ⟨kept, bookkeeping, equal⟩ := atWorld world
    rw [equal, bookkeeping.adapters]
  · intro world
    obtain ⟨kept, bookkeeping, equal⟩ := atWorld world
    rw [equal, bookkeeping.registries]
  · intro world
    obtain ⟨kept, bookkeeping, equal⟩ := atWorld world
    rw [equal, bookkeeping.executables]
  · intro world
    obtain ⟨kept, bookkeeping, equal⟩ := atWorld world
    rw [equal, bookkeeping.sourced]

theorem linkDependent (id dependent : DescriptorId) :
    Bookkeeping (World.linkDependent · id dependent) := by
  have settled : Bookkeeping fun linked : World =>
      if (linked.descriptors.get id).invalidated then linked.invalidate dependent
      else linked := by
    apply of_cases
    intro linked
    by_cases invalid : (linked.descriptors.get id).invalidated = true
    · exact ⟨_, invalidate dependent, fun _ => if_pos invalid⟩
    · exact ⟨_, same, fun _ => if_neg invalid⟩
  exact comp (modifyDescriptor id fun descriptor =>
    { descriptor with dependents := descriptor.dependents ++ [dependent] }) settled

theorem fillSlot (id : DescriptorId) (key : String) (executable : ExecutableId) :
    Bookkeeping fun world => (world.fillSlot id key executable).2 := by
  apply of_cases
  intro world
  cases slot : (world.descriptors.get id).slots.get? key with
  | some present =>
      exact ⟨_, same, fun _ => by simp only [World.fillSlot, World.within, slot]⟩
  | none =>
      refine ⟨_, modifyDescriptor id fun descriptor =>
        { descriptor with slots := descriptor.slots.insert key executable }, ?_⟩
      intro around
      simp only [World.fillSlot, World.within, slot]

end Bookkeeping

end DocumentHost
